import Wordbook.BuiltIn.EasyMesh
import Wordbook.BuiltIn.SceneSetup
import Wordbook.Dictionary

/-!
# Built-in dialects

The dialects that are there without a dialect document.

## Main Definitions

* `BuiltIn` — a built-in dialect
* `BuiltIn.dictionary` — its dictionary
* `BuiltIn.ofName?` — the built-in dialect of a name, in letters of either case
-/

namespace Wordbook

/-- A built-in dialect. -/
inductive BuiltIn where
  /-- Commands that build a mesh. -/
  | easymesh
  /-- Commands that describe a scene. -/
  | scenesetup
deriving DecidableEq, Repr

namespace BuiltIn

/-- All built-in dialects. -/
def all : List BuiltIn := [easymesh, scenesetup]

/-- The name of a built-in dialect. -/
def name : BuiltIn → String
  | easymesh => "easymesh"
  | scenesetup => "scenesetup"

/-- The entries of a built-in dialect. -/
def dialect : BuiltIn → Dialect
  | easymesh => EasyMesh.dialect
  | scenesetup => SceneSetup.dialect

/-- The dictionary of a built-in dialect. -/
def dictionary (builtIn : BuiltIn) : Dictionary := .ofDialect builtIn.dialect

/-- The built-in dialect with the given name; the case of ASCII letters does not count. -/
def ofName? (name : String) : Option BuiltIn :=
  all.find? (fun builtIn => builtIn.name == name.map Char.toLower)

/-- Why a name is refused. -/
def unknownMessage (name : String) : String :=
  "unknown dialect '" ++ name ++ "' (expected one of: "
    ++ ", ".intercalate (all.map BuiltIn.name) ++ ")"

@[simp] theorem name_dialect (builtIn : BuiltIn) : builtIn.dialect.name = builtIn.name := by
  cases builtIn <;> rfl

end BuiltIn

end Wordbook
