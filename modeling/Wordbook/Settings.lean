import Wordbook.BuiltIn
import Wordbook.Contents
import Wordbook.Panel
import Wordbook.Record
import Wordbook.Toml.Reader
import Wordbook.Word

/-!
# Settings

What a user may set once for all calls, and how a settings document says it.

## Main Definitions

* `Settings` — the settings
* `Settings.parse` — the settings of a TOML document
* `Settings.override` — settings that a single call changes
* `Settings.historyPath` — where the lines of the interactive loop are kept

## Design Notes

Every setting has a default, so the empty document is a valid one.  A dialect file takes the place
of a built-in dialect; a call that names a built-in dialect takes back the file of the settings.
-/

namespace Wordbook

/-- What a user may set once for all calls. -/
structure Settings where
  /-- The built-in dialect that is used without a dialect file. -/
  builtIn : BuiltIn := .easymesh
  /-- The path of the dialect document that takes its place. -/
  dialectFile : Option String := none
  /-- How many passes the search for a word may take. -/
  passes : Nat := Word.defaultPasses
  /-- How many candidates a panel lists. -/
  maxCandidates : Nat := ({} : Panel).maxCandidates
  /-- What stands for a letter without commands in a table of contents. -/
  marker : Char := Contents.defaultMarker
  /-- Where the lines of the interactive loop are kept. -/
  historyFile : Option String := none
deriving DecidableEq, Repr

namespace Settings

/-- A built-in dialect by its exact name. -/
def builtInOf (t : Tree) : Reading BuiltIn := do
  let name ← t.asChoice (BuiltIn.all.map BuiltIn.name)
  return (BuiltIn.ofName? name).getD .easymesh

/-- The fields of a settings document. -/
def record : Record Settings where
  title := "settings"
  fields := ["dialect", "dialect_file", "max_scan_passes", "max_candidates", "toc_missing_marker",
    "history_file"]
  required := []
  blank := {}
  take key t value :=
    match key with
    | "dialect" => do return { value with builtIn := ← builtInOf t }
    | "dialect_file" => do return { value with dialectFile := ← t.asOptional Tree.asPath }
    | "max_scan_passes" => do return { value with passes := ← t.asCount }
    | "max_candidates" => do return { value with maxCandidates := ← t.asCount }
    | "toc_missing_marker" => do return { value with marker := ← t.asCharacter }
    | _ => do return { value with historyFile := ← t.asOptional Tree.asPath }

/-- The settings of a TOML document. -/
def parse (text : String) : Reading Settings :=
  match Toml.read text with
  | none => .error .malformed
  | some tree => record.read false tree

/-- The settings of a call that may name a built-in dialect, a dialect document or both.  Of the two
the document wins. -/
def override (settings : Settings) (builtIn : Option BuiltIn) (dialectFile : Option String) :
    Settings :=
  { settings with
    builtIn := builtIn.getD settings.builtIn
    dialectFile := dialectFile <|> (if builtIn.isSome then none else settings.dialectFile) }

/-- The file of the lines of the interactive loop, by default one in the home directory. -/
def historyPath (settings : Settings) (home : String) : String :=
  settings.historyFile.getD (home ++ "/.cmddict_history")

@[simp] theorem override_none_none (settings : Settings) :
    settings.override none none = settings := rfl

@[simp] theorem dialectFile_override_some (settings : Settings) (builtIn : Option BuiltIn)
    (path : String) : (settings.override builtIn (some path)).dialectFile = some path := rfl

end Settings

end Wordbook
