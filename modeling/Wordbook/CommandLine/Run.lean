import Wordbook.CommandLine.Invocation
import Wordbook.Session.Dialogue

/-!
# Running a command line

What a command line comes to in the world around it.

## Main Definitions

* `Host` — what a run asks of the world: files and an input
* `Outcome` — what a run leaves behind
* `run` — the run of a command line

## Design Notes

A run asks the world for whole files and for the whole input, and it does so only when it needs
them.  It stops at the first thing that goes wrong, before anything is said.
-/

namespace Wordbook.CommandLine

/-- The world around a run. -/
structure Host (m : Type → Type) where
  /-- The contents of the file at a path, if it can be read. -/
  read : String → m (Option String)
  /-- Writes the file at a path; the answer tells whether that went well. -/
  write : String → String → m Bool
  /-- All of the input. -/
  input : m String

/-- What a run leaves behind. -/
structure Outcome where
  /-- Zero if all is well. -/
  status : Nat := 0
  /-- What was said. -/
  output : String := ""
  /-- What went wrong. -/
  failure : Option Failure := none
deriving DecidableEq, Repr

namespace Outcome

/-- A run that said what it was asked for. -/
def said (text : String) : Outcome := { output := text }

/-- A run that failed. -/
def failed (failure : Failure) : Outcome := { status := 1, failure := some failure }

/-- A run that said what it was asked for, or failed. -/
def ofAnswer : Except Failure String → Outcome
  | .ok text => said text
  | .error failure => failed failure

end Outcome

/-- What the program says of itself. -/
def banner (coloured : Bool) : String :=
  Text.unlines [
    Style.title.paint coloured "cmddict: command dictionary and completion",
    "Try 'cmddict --help' for more information."]

/-- How a command line is put together. -/
def usage : String :=
  Text.unlines [
    "Usage: cmddict [OPTIONS] [COMMAND]",
    "Commands: " ++ ", ".intercalate (Subcommand.all.map Subcommand.name),
    "Options: " ++ ", ".intercalate (rootGrammar.parameters.map (fun p => "--" ++ p.name))]

/-- The outcome of a command line that is not carried out. -/
def Stop.outcome : Stop → Outcome
  | .misuse => { status := 2 }
  | .help => .said usage
  | .version => .said "cmddict 0.3.0\n"

section Running

variable {m : Type → Type} [Monad m] (host : Host m)

/-- What stands at a path, if there is a path and it can be read. -/
def Host.readAt : Option String → m (Option String)
  | none => pure none
  | some path => host.read path

/-- The settings that a selection leads to. -/
def settingsOf (selection : Selection) : m (Except Failure Settings) := do
  match selection.settingsFile with
  | none => return .ok {}
  | some path => return Settings.ofFile path (← host.read path)

/-- The session that a selection leads to. -/
def openSession (selection : Selection) : m (Except Failure Session) := do
  match ← settingsOf host selection with
  | .error failure => return .error failure
  | .ok settings =>
    let settings := settings.override selection.builtIn selection.dialectFile
    return Session.ofSettings settings (← host.readAt settings.dialectFile)

/-- The script that a completion is asked in. -/
def scriptAt (file : Option String) : m (Except Failure String) := do
  match file with
  | none => return .ok (← host.input)
  | some path =>
    match ← host.read path with
    | none => return .error (.scriptUnreadable path)
    | some text => return .ok text

/-- Does what is asked of a session. -/
def perform (coloured : Bool) (session : Session) : Action → m Outcome
  | .complete file cursor json => do
    return .ofAnswer ((← scriptAt host file).map (session.completionText json · cursor))
  | .contents hideMissing => return .said (session.contentsText hideMissing)
  | .describe name => return .ofAnswer (session.describe coloured name)
  | .commands => return .said session.commandsText
  | .types => return .said session.typesText
  | .check =>
    let status := if session.dictionary.lint.isEmpty then 0 else 1
    return { status, output := session.checkText coloured }
  | .document format none => return .said (session.dictionary.toDialect.render format)
  | .document format (some path) => do
    if ← host.write path (session.dictionary.toDialect.render format) then return {}
    else return .failed (.documentUnwritable path)
  | .dialogue => return .said (session.dialogue coloured (← host.input))

/-- Runs a command line.  `environment` is the path of the settings that the environment names. -/
def run (coloured : Bool) (environment : Option String) (args : List String) : m Outcome := do
  match Invocation.ofArgs environment args with
  | .error stop => return stop.outcome
  | .ok ⟨_, none⟩ => return .said (banner coloured)
  | .ok ⟨selection, some action⟩ =>
    match ← openSession host selection with
    | .error failure => return .failed failure
    | .ok session => perform host coloured session action

end Running

end Wordbook.CommandLine
