import Wordbook.Json.Value
import Wordbook.LineEdit
import Wordbook.Lint
import Wordbook.Paint
import Wordbook.Session
import Wordbook.Text.Blank

/-!
# Single questions

What a session answers to one question, as text that ends its last line.

## Main Definitions

* `Completion.report` — a completion as JSON
* `Session.completionText` — the panel or the report of a word in a script
* `Session.contentsText`, `Session.commandsText`, `Session.typesText` — overviews
* `Session.describe` — all about one command
* `Session.checkText` — the documentation checks
-/

namespace Wordbook

/-- The name of a state of the search. -/
def Completion.State.name : Completion.State → String
  | searching => "Searching"
  | noMatch => "NoMatch"
  | resolved => "Resolved"
  | ambiguous => "Ambiguous"

/-- A completion as JSON: the word, the state of the search, and the candidates by their primary
aliases, best first. -/
def Completion.report (completion : Completion) (d : Dictionary) : Json.Value :=
  .object [
    ("dialect", .string d.name),
    ("token", .string completion.token),
    ("start", .number completion.word.start),
    ("end", .number completion.word.stop),
    ("state", .string completion.state.name),
    ("perfect", .bool completion.isExact),
    ("best", .optional ((completion.best d).map Prod.snd)),
    ("candidates", .strings (d.primaryAliases completion.candidates))]

namespace Session

variable (session : Session)

/-- A text without the blanks at its end, as a line. -/
def closeLine (text : String) : String :=
  String.ofList (Text.trimRight text.toList) ++ "\n"

/-- A text on one line. -/
def oneLine (text : String) : String := text.map (fun c => if c = '\n' then ' ' else c)

/-- The panel of the word that a cursor in a script belongs to. -/
def panelText (text : String) (cursor : Nat) : String :=
  closeLine (session.panel.render session.dictionary (session.completer.complete text cursor))

/-- The report on the word that a cursor in a script belongs to. -/
def reportText (text : String) (cursor : Nat) : String :=
  ((session.completer.complete text cursor).report session.dictionary).write ++ "\n"

/-- The completion of a word in a script, as a panel or as a report.  Without a cursor, the word at
the end of the script is meant. -/
def completionText (json : Bool) (text : String) (cursor : Option Nat) : String :=
  let cursor := cursor.getD text.length
  if json then session.reportText text cursor else session.panelText text cursor

/-- The table of contents, without the missing letters if they are hidden. -/
def contentsText (hideMissing : Bool) : String :=
  session.dictionary.contents.render (if hideMissing then none else some session.settings.marker)
    ++ "\n"

/-- Every command on a line. -/
def commandsText : String :=
  Text.unlines (session.dictionary.commands.map (fun command => oneLine command.summary))

/-- Every documented type on a line. -/
def typesText : String :=
  Text.unlines (session.dictionary.types.map (fun type => oneLine type.summary))

/-- What is to be known about a type of an argument, after an empty line. -/
def typeText (coloured : Bool) (name : String) : String :=
  match session.dictionary.findType name with
  | some type => "\n" ++ type.help
  | none => "\n" ++ Style.gap.paint coloured "undocumented type:" ++ " " ++ name ++ "\n"

/-- The help of a command and of the types of its arguments. -/
def commandText (coloured : Bool) (command : Command) : String :=
  command.help ++ String.join (command.argumentTypes.map (session.typeText coloured))

/-- All about the command that an alias leads to. -/
def describe (coloured : Bool) (name : String) : Except Failure String :=
  let d := session.dictionary
  match d.find name with
  | some command => .ok (session.commandText coloured command)
  | none => .error (.unknownCommand name d.name (d.primaryAliases (d.matching name)))

/-- A warning on a line. -/
def warningLine (coloured : Bool) (warning : Warning) : String :=
  Style.caution.paint coloured "warning:" ++ " " ++ warning.message

/-- The outcome of the documentation checks. -/
def checkText (coloured : Bool) : String :=
  let d := session.dictionary
  let warnings := d.lint
  if warnings.isEmpty then
    Style.good.paint coloured "✓ No lint warnings in" ++ " " ++ d.name ++ "\n"
  else
    Text.unlines (warnings.map (warningLine coloured) ++ ["",
      Style.alarm.paint coloured "Total" ++ ": " ++ toString warnings.length ++ " warnings in "
        ++ d.name])

end Session

end Wordbook
