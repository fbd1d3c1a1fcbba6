import Wordbook.Session.Query

/-!
# Dialogues

A session that is asked line by line.  A line that starts with a colon is an instruction; any other
line is a script, and the word at its end is completed.

## Main Definitions

* `Instruction` — what a line asks for
* `Reply` — what a line is answered with
* `Session.reply` — the answer to a line
* `Session.dialogue` — everything that is said until someone quits
-/

namespace Wordbook

/-- What a line asks for. -/
inductive Instruction where
  /-- Nothing. -/
  | nothing
  /-- The end of the dialogue. -/
  | quit
  /-- The table of contents. -/
  | contents
  /-- The list of instructions. -/
  | help
  /-- All about one command. -/
  | describe (name : String)
  /-- An instruction that does not exist. -/
  | unknown (name : String)
  /-- The completion of a script. -/
  | complete (script : String)
deriving DecidableEq, Repr

/-- What a line asks for. -/
def Instruction.ofLine (line : String) : Instruction :=
  let trimmed := Text.trim line.toList
  let name := trimmed.takeWhile (· != ' ')
  let operand := (trimmed.dropWhile (· != ' ')).drop 1
  match name with
  | [] => .nothing
  | ':' :: rest =>
    match String.ofList rest with
    | "quit" => .quit
    | "q" => .quit
    | "toc" => .contents
    | "help" => if operand.isEmpty then .help else .describe (String.ofList (Text.trim operand))
    | _ => .unknown (String.ofList name)
  | _ => .complete line

/-- What a line is answered with. -/
inductive Reply where
  /-- A text, and the dialogue goes on. -/
  | say (text : String)
  /-- The dialogue is over. -/
  | quit
deriving DecidableEq, Repr

namespace Session

variable (session : Session) (coloured : Bool)

/-- What the dialogue begins with. -/
def welcome : String :=
  Style.title.paint coloured "cmddict" ++ " " ++ session.dictionary.name ++ " ("
    ++ toString session.dictionary.size ++ " commands)\n"
    ++ "Tab completes commands. Type :help for help, :quit to exit.\n"

/-- The list of instructions. -/
def instructions : String :=
  Text.unlines [
    Style.good.paint coloured "Commands:",
    "  :help <alias>   full help of a command",
    "  :toc            table of contents",
    "  :quit           exit",
    "Any other line shows the completion for its last word."]

/-- The answer to an instruction. -/
def follow : Instruction → Reply
  | .nothing => .say ""
  | .quit => .quit
  | .contents => .say (session.contentsText false)
  | .help => .say (instructions coloured)
  | .describe name =>
    match session.describe coloured name with
    | .ok text => .say text
    | .error failure => .say (Style.alarm.paint coloured failure.message ++ "\n")
  | .unknown name =>
    .say (Style.alarm.paint coloured "unknown command" ++ " " ++ name ++ " (try :help)\n")
  | .complete script => .say (session.panelText script script.length)

/-- The answer to a line. -/
def reply (line : String) : Reply := session.follow coloured (Instruction.ofLine line)

/-- The answers to lines, one after the other, until a line asks for the end. -/
def replies : List String → String
  | [] => ""
  | line :: more =>
    match session.reply coloured line with
    | .say text => text ++ replies more
    | .quit => ""

/-- Everything that is said to the lines of a text. -/
def dialogue (input : String) : String :=
  session.welcome coloured
    ++ session.replies coloured ((Text.lines input.toList).map String.ofList)

@[simp] theorem replies_nil : session.replies coloured [] = "" := rfl

theorem replies_cons_say {line text : String} (more : List String)
    (h : session.reply coloured line = .say text) :
    session.replies coloured (line :: more) = text ++ session.replies coloured more := by
  simp [replies, h]

theorem replies_cons_quit {line : String} (more : List String)
    (h : session.reply coloured line = .quit) : session.replies coloured (line :: more) = "" := by
  simp [replies, h]

end Session

end Wordbook
