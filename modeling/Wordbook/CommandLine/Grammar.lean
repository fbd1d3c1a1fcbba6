/-!
# Grammars of command lines

How the words of a command line are told apart: options with and without values, operands, and the
name of a subcommand.

## Main Definitions

* `Parameter` — an option and what it does
* `Grammar` — what may stand on one level of a command line
* `Given` — what stands there
* `Grammar.read` — reads one level

## Design Notes

The words are read from left to right and every value is checked as it comes, so of two things that
end the reading the first one counts.  A level ends with the line or with the name of a subcommand,
whose own level is what remains.
-/

namespace Wordbook.CommandLine

/-- What ends the reading of a command line early. -/
inductive Stop where
  /-- The line does not fit the grammar. -/
  | misuse
  /-- The line asks for help. -/
  | help
  /-- The line asks for the version. -/
  | version
deriving DecidableEq, Repr

/-- What an option does. -/
inductive Effect where
  /-- It switches something on; it may be given once. -/
  | switch
  /-- It raises a level that no answer depends on; it may be given any number of times. -/
  | level
  /-- It takes a value; it may be given once. -/
  | value (accepts : String → Bool)
  /-- It ends the reading. -/
  | stop (stop : Stop)

/-- An option. -/
structure Parameter where
  /-- The name behind two dashes. -/
  name : String
  /-- The letter behind one dash, if there is one. -/
  letter : Option Char := none
  /-- What the option does. -/
  effect : Effect

/-- The option takes a value. -/
def Parameter.takesValue (p : Parameter) : Bool :=
  match p.effect with
  | .value _ => true
  | _ => false

/-- What may stand on one level of a command line. -/
structure Grammar where
  /-- The options. -/
  parameters : List Parameter
  /-- The operands, by the texts that each accepts. -/
  operands : List (String → Bool) := []
  /-- How many operands there must be. -/
  needed : Nat := 0
  /-- The subcommands. -/
  subcommands : List String := []

/-- What stands on one level of a command line. -/
structure Given where
  /-- The names of the options that were given, with their values; a switch has an empty one. -/
  options : List (String × String) := []
  /-- The operands that were given. -/
  operands : List String := []
  /-- The subcommand, and the words behind it. -/
  subcommand : Option (String × List String) := none
deriving DecidableEq, Repr

namespace Given

/-- The value of an option. -/
def value? (given : Given) (name : String) : Option String := given.options.lookup name

/-- The option was given. -/
def has (given : Given) (name : String) : Bool := (given.value? name).isSome

/-- Notes an option with its value, unless it was given before. -/
def note (given : Given) (name value : String) : Except Stop Given :=
  if given.has name then .error .misuse
  else .ok { given with options := given.options ++ [(name, value)] }

/-- Does what an option does. -/
def set (given : Given) (p : Parameter) (value : String) : Except Stop Given :=
  match p.effect with
  | .stop stop => .error stop
  | .level => .ok given
  | .switch => given.note p.name ""
  | .value accepts => if accepts value then given.note p.name value else .error .misuse

end Given

/-- The word begins like an option. -/
def isDashed (word : String) : Bool :=
  match word.toList with
  | '-' :: _ :: _ => true
  | _ => false

namespace Grammar

variable (g : Grammar)

/-- The option of a name. -/
def named? (name : String) : Option Parameter := g.parameters.find? (fun p => p.name == name)

/-- The option of a letter. -/
def lettered? (c : Char) : Option Parameter := g.parameters.find? (fun p => p.letter == some c)

/-- What is known after a word: what was given, and the option that waits for its value in the next
word. -/
abbrev Taken := Given × Option Parameter

/-- Reads letters behind one dash.  What follows the letter of an option with a value is the value;
a sign of equality between them does not count. -/
def takeLetters (given : Given) : List Char → Except Stop Taken
  | [] => .ok (given, none)
  | c :: rest =>
    match g.lettered? c with
    | none => .error .misuse
    | some p =>
      if p.takesValue then
        match rest with
        | [] => .ok (given, some p)
        | '=' :: value => (given.set p (String.ofList value)).map (·, none)
        | value => (given.set p (String.ofList value)).map (·, none)
      else
        match given.set p "" with
        | .error stop => .error stop
        | .ok given => takeLetters given rest

/-- Reads what stands behind two dashes: a name, and perhaps a value behind a sign of equality. -/
def takeName (given : Given) (text : List Char) : Except Stop Taken :=
  match g.named? (String.ofList (text.takeWhile (· != '='))), text.dropWhile (· != '=') with
  | none, _ => .error .misuse
  | some p, [] => if p.takesValue then .ok (given, some p) else (given.set p "").map (·, none)
  | some p, _ :: value =>
    if p.takesValue then (given.set p (String.ofList value)).map (·, none) else .error .misuse

/-- Reads an operand. -/
def takeOperand (given : Given) (word : String) : Except Stop Given :=
  match g.operands[given.operands.length]? with
  | none => .error .misuse
  | some accepts =>
    if accepts word then .ok { given with operands := given.operands ++ [word] }
    else .error .misuse

/-- Reads a word that is not the name of a subcommand. -/
def take (given : Given) (word : String) : Except Stop Taken :=
  match word.toList with
  | '-' :: '-' :: text => g.takeName given text
  | '-' :: c :: letters => g.takeLetters given (c :: letters)
  | _ => (g.takeOperand given word).map (·, none)

/-- Reads words that are all operands. -/
def takeOperands (given : Given) : List String → Except Stop Given
  | [] => .ok given
  | word :: more =>
    match g.takeOperand given word with
    | .error stop => .error stop
    | .ok given => takeOperands given more

/-- Reads the words of a level.  Behind two dashes alone there are only operands. -/
def readWords (given : Given) : List String → Except Stop Given
  | [] => .ok given
  | word :: more =>
    if g.subcommands.contains word then .ok { given with subcommand := some (word, more) }
    else if word == "--" then g.takeOperands given more
    else
      match g.take given word with
      | .error stop => .error stop
      | .ok (given, none) => readWords given more
      | .ok (given, some p) =>
        match more with
        | [] => .error .misuse
        | value :: more =>
          if isDashed value then .error .misuse
          else
            match given.set p value with
            | .error stop => .error stop
            | .ok given => readWords given more

/-- Reads a level; all operands that it needs must be there. -/
def read (words : List String) : Except Stop Given :=
  match g.readWords {} words with
  | .error stop => .error stop
  | .ok given => if given.operands.length < g.needed then .error .misuse else .ok given

@[simp] theorem readWords_nil (given : Given) : g.readWords given [] = .ok given := by
  simp [readWords]

end Grammar

end Wordbook.CommandLine
