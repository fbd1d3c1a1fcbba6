import Wordbook.Document
import Wordbook.Failure
import Wordbook.Settings

/-!
# Sessions

The settings of a call together with the dictionary that they select.

## Main Definitions

* `Settings.ofFile` — the settings of the document at a path
* `Session` — a dictionary and the settings to ask it with
* `Session.ofSettings` — the session that settings select
-/

namespace Wordbook

/-- The settings of the document at a path; `contents` is what stands there, if it can be read. -/
def Settings.ofFile (path : String) (contents : Option String) : Except Failure Settings :=
  match contents with
  | none => .error (.settingsUnreadable path)
  | some text => (Settings.parse text).mapError (fun _ => .settingsRefused path)

/-- A dictionary and the settings to ask it with. -/
structure Session where
  /-- The dictionary that is asked. -/
  dictionary : Dictionary
  /-- How it is asked. -/
  settings : Settings := {}
deriving DecidableEq, Repr

namespace Session

/-- The session that settings select: with the dialect file if they name one, and else with their
built-in dialect.  `contents` is what stands in the dialect file, if it can be read. -/
def ofSettings (settings : Settings) (contents : Option String) : Except Failure Session :=
  match settings.dialectFile with
  | none => .ok ⟨settings.builtIn.dictionary, settings⟩
  | some path =>
    match Dialect.load path contents with
    | .ok dialect => .ok ⟨.ofDialect dialect, settings⟩
    | .error _ => .error (.dialectRefused path)

/-- What finds words and commands. -/
def completer (session : Session) : Completer := ⟨session.dictionary, session.settings.passes⟩

/-- What shows them. -/
def panel (session : Session) : Panel := { maxCandidates := session.settings.maxCandidates }

end Session

end Wordbook
