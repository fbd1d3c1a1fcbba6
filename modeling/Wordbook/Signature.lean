import Wordbook.Entry
import Wordbook.Text.Lines

/-!
# How entries are shown

The printed forms of commands and types: an argument, the signature of a call, a summary on one
line, and a help block.

## Main Definitions

* `Argument.shown` — an argument with its default
* `Command.signature` — the arguments of a call in braces
* `Command.summary`, `ValueType.summary` — everything on one line
* `Command.help`, `ValueType.help` — help blocks, one fact a line

## Design Notes

In a signature one bracket opens before the first optional argument and closes at the end.  Required
arguments that follow an optional one are shown inside it, in the order of the call.
-/

namespace Wordbook

namespace Argument

/-- The type and the name of an argument, and its default if it has one. -/
def shown (arg : Argument) : String :=
  match arg.default with
  | none => arg.type ++ " " ++ arg.name
  | some text => arg.type ++ " " ++ arg.name ++ " = " ++ text

end Argument

namespace Command

/-- The rest of a signature from some argument on.  `first` says that no argument stands before, and
`opened` that the bracket of the optional arguments is open. -/
def signatureRest (first opened : Bool) : List Argument → String
  | [] => if opened then "]\x7d" else "\x7d"
  | arg :: more =>
    (if arg.isOptional && !opened then " [" else "") ++ (if first then "" else ", ") ++ arg.shown
      ++ signatureRest false (opened || arg.isOptional) more

/-- The arguments of a call, as one writes them down to remember them; empty if there are none. -/
def signatureOf (args : List Argument) : String :=
  if args.isEmpty then "" else "\x7b" ++ signatureRest true false args

/-- The signature of a command. -/
def signature (command : Command) : String := signatureOf command.args

/-- The names of a command beside one another. -/
def aliasLine (command : Command) : String := " | ".intercalate command.aliases

/-- A text, and after a space the signature if the command has one. -/
def withSignature (command : Command) (text : String) : String :=
  if command.signature.isEmpty then text else text ++ " " ++ command.signature

/-- The command on one line, if its description has only one. -/
def summary (command : Command) : String :=
  ",".intercalate command.aliases ++ " [" ++ command.description ++ "]" ++ command.signature

/-- The line of a help block about one argument. -/
def argumentLine (arg : Argument) : String :=
  "  - " ++ arg.shown ++ (if arg.isOptional then " (optional)" else " (required)")

/-- The lines of a help block: the names with the signature, the description, the arguments. -/
def helpLines (command : Command) : List String :=
  command.withSignature command.aliasLine
    :: (Text.lines command.description.toList).map (fun line => "    " ++ String.ofList line)
    ++ command.args.map argumentLine

/-- The help block of a command. -/
def help (command : Command) : String := Text.unlines command.helpLines

@[simp] theorem signatureOf_nil : signatureOf [] = "" := rfl

@[simp] theorem signatureRest_nil (first opened : Bool) :
    signatureRest first opened [] = if opened then "]\x7d" else "\x7d" := rfl

end Command

namespace ValueType

/-- The type on one line, if each of its notes is one. -/
def summary (type : ValueType) : String := " ".intercalate (type.id :: type.notes)

/-- The help block of a type: its name, then its notes. -/
def help (type : ValueType) : String :=
  Text.unlines (type.id :: type.notes.map ("    " ++ ·))

end ValueType

end Wordbook
