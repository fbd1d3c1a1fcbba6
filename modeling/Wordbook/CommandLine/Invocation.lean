import Wordbook.BuiltIn
import Wordbook.CommandLine.Grammar
import Wordbook.Format

/-!
# Invocations

What a command line asks for.

## Main Definitions

* `Selection` — which dictionary is asked
* `Action` — what is asked of it
* `Invocation` — both together
* `Invocation.ofArgs` — reads a command line

## Design Notes

The options that select a dictionary may stand before the subcommand as well as behind it; what
stands behind it wins.  The path of the settings may also come from the environment, where it counts
only for want of the option; there too it must not be empty.
-/

namespace Wordbook.CommandLine

/-- Which dictionary is asked, and with which settings. -/
structure Selection where
  /-- A built-in dialect. -/
  builtIn : Option BuiltIn := none
  /-- The path of a dialect document. -/
  dialectFile : Option String := none
  /-- The path of the settings. -/
  settingsFile : Option String := none
deriving DecidableEq, Repr

/-- What is asked of a dictionary. -/
inductive Action where
  /-- The completion of a word in a script: in a file, or else in the input. -/
  | complete (file : Option String) (cursor : Option Nat) (json : Bool)
  /-- The table of contents. -/
  | contents (hideMissing : Bool)
  /-- All about one command. -/
  | describe (name : String)
  /-- The list of the commands. -/
  | commands
  /-- The list of the types. -/
  | types
  /-- The documentation checks. -/
  | check
  /-- The dictionary as a document: in a file, or else in the output. -/
  | document (format : Format) (file : Option String)
  /-- A dialogue over the lines of the input. -/
  | dialogue
deriving DecidableEq, Repr

/-- What a command line asks for; without an action, only what the program is. -/
structure Invocation where
  /-- Which dictionary is asked. -/
  selection : Selection := {}
  /-- What is asked of it. -/
  action : Option Action := none
deriving DecidableEq, Repr

/-! ### Values -/

/-- A path must not be empty. -/
def isPath (text : String) : Bool := !text.isEmpty

/-- The digits of a number behind a sign that does not change it. -/
def unsignedDigits (text : String) : List Char :=
  match text.toList with
  | '+' :: digits => digits
  | digits => digits

/-- The number that a text of decimal digits stands for; it has to fit 64 bits. -/
def count? (text : String) : Option Nat :=
  let digits := unsignedDigits text
  if digits.isEmpty || !digits.all Char.isDigit then none
  else
    let n := digits.foldl (fun n c => 10 * n + (c.toNat - '0'.toNat)) 0
    if n < Nat.pow 2 64 then some n else none

/-! ### Grammars -/

/-- The subcommands. -/
inductive Subcommand where
  | complete
  | contents
  | describe
  | commands
  | types
  | check
  | document
  | dialogue
deriving DecidableEq, Repr

/-- The options of every level. -/
def sharedParameters : List Parameter := [
  { name := "verbose", letter := some 'v', effect := .level },
  { name := "dialect", letter := some 'd', effect := .value (fun s => (BuiltIn.ofName? s).isSome) },
  { name := "dialect-file", letter := some 'f', effect := .value isPath },
  { name := "config", letter := some 'c', effect := .value isPath },
  { name := "help", letter := some 'h', effect := .stop .help }]

namespace Subcommand

/-- All subcommands. -/
def all : List Subcommand :=
  [complete, contents, describe, commands, types, check, document, dialogue]

/-- The name of a subcommand. -/
def name : Subcommand → String
  | complete => "complete"
  | contents => "toc"
  | describe => "describe"
  | commands => "commands"
  | types => "types"
  | check => "lint"
  | document => "export"
  | dialogue => "repl"

/-- The subcommand of a name. -/
def ofName? (name : String) : Option Subcommand := all.find? (fun s => s.name == name)

/-- The options of a subcommand alone. -/
def parameters : Subcommand → List Parameter
  | complete => [
      { name := "cursor", effect := .value (fun s => (count? s).isSome) },
      { name := "json", effect := .switch }]
  | contents => [{ name := "hide-missing", effect := .switch }]
  | document => [
      { name := "format", effect := .value (fun s => (Format.ofName? s).isSome) },
      { name := "output", letter := some 'o', effect := .value isPath }]
  | _ => []

/-- The operands of a subcommand. -/
def operands : Subcommand → List (String → Bool)
  | complete => [isPath]
  | describe => [fun _ => true]
  | _ => []

/-- What may stand behind the name of a subcommand. -/
def grammar (s : Subcommand) : Grammar where
  parameters := sharedParameters ++ s.parameters
  operands := s.operands
  needed := if s = describe then 1 else 0

/-- What a subcommand asks for, with the options and operands it was given. -/
def action (given : Given) : Subcommand → Action
  | complete =>
    .complete given.operands.head? ((given.value? "cursor").bind count?) (given.has "json")
  | contents => .contents (given.has "hide-missing")
  | describe => .describe (given.operands.head?.getD "")
  | commands => .commands
  | types => .types
  | check => .check
  | document =>
    .document (((given.value? "format").bind Format.ofName?).getD .toml) (given.value? "output")
  | dialogue => .dialogue

end Subcommand

/-- The name that asks for help like a subcommand. -/
def helpName : String := "help"

/-- What may stand on the first level. -/
def rootGrammar : Grammar where
  parameters :=
    sharedParameters ++ [{ name := "version", letter := some 'V', effect := .stop .version }]
  subcommands := helpName :: Subcommand.all.map Subcommand.name

/-! ### Reading -/

/-- What the options of a level select. -/
def Selection.ofGiven (given : Given) : Selection where
  builtIn := (given.value? "dialect").bind BuiltIn.ofName?
  dialectFile := given.value? "dialect-file"
  settingsFile := given.value? "config"

/-- What two levels select together. -/
def Selection.orElse (inner outer : Selection) : Selection where
  builtIn := inner.builtIn <|> outer.builtIn
  dialectFile := inner.dialectFile <|> outer.dialectFile
  settingsFile := inner.settingsFile <|> outer.settingsFile

/-- A level that does not name the settings itself takes them from the environment, which must not
name an empty path. -/
def checkEnvironment (environment : Option String) (given : Given) : Except Stop Unit :=
  if !given.has "config" && environment == some "" then .error .misuse else .ok ()

/-- What the words behind the name that asks for help come to. -/
def helpStop : List String → Stop
  | [] => .help
  | [name] => if rootGrammar.subcommands.contains name then .help else .misuse
  | _ => .misuse

/-- Reads a command line; the environment may name the settings. -/
def Invocation.ofArgs (environment : Option String) (args : List String) :
    Except Stop Invocation := do
  let outer ← rootGrammar.read args
  let selection := (Selection.ofGiven outer).orElse { settingsFile := environment }
  match outer.subcommand with
  | none =>
    checkEnvironment environment outer
    return ⟨selection, none⟩
  | some (name, rest) =>
    match Subcommand.ofName? name with
    | none => .error (helpStop rest)
    | some subcommand =>
      let inner ← subcommand.grammar.read rest
      checkEnvironment environment inner
      checkEnvironment environment outer
      return ⟨(Selection.ofGiven inner).orElse selection, some (subcommand.action inner)⟩

end Wordbook.CommandLine
