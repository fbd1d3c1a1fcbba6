import Wordbook.Document
import Wordbook.Proofs.Json.Value
import Wordbook.Proofs.Schema

/-!
# Dialects in JSON

A dialect that is written as a JSON document and read back is the same dialect.

## Main Statements

* `ValueType.tree_toJson`, `Argument.tree_toJson`, `Command.tree_toJson` — the objects of the parts
  have the trees of the parts
* `Dialect.parse_render_json` — what is written is read back
-/

namespace Wordbook

namespace Json.Value

theorem tree_array {α : Type} (values : List α) (toJson : α → Value) :
    (array (values.map toJson)).tree = Tree.listed (values.map (fun v => (toJson v).tree)) := by
  rw [tree, itemTrees_eq_map, List.map_map]
  rfl

theorem tree_strings (texts : List String) :
    (strings texts).tree = .list (texts.map .text) true := by
  rw [strings, tree_array]
  rfl

theorem fits_array {α : Type} {values : List α} {toJson : α → Value}
    (fits : ∀ v ∈ values, (toJson v).Fits) : (array (values.map toJson)).Fits := by
  rw [Fits, itemsFit_iff, List.forall_mem_map]
  exact fits

theorem fits_strings (texts : List String) : (strings texts).Fits :=
  fits_array (fun _ _ => trivial)

end Json.Value

/-! ### The parts of a dialect -/

theorem ValueType.tree_toJson (type : ValueType) : type.toJson.tree = type.tree := by
  simp only [toJson, Json.Value.tree, Json.Value.memberTrees, Json.Value.tree_strings]
  rfl

theorem ValueType.fits_toJson (type : ValueType) : type.toJson.Fits :=
  ⟨trivial, Json.Value.fits_strings type.notes, trivial⟩

theorem Argument.tree_toJson (arg : Argument) : arg.toJson.tree = arg.tree := by
  obtain ⟨type, name, default⟩ := arg
  cases default <;> rfl

theorem Argument.fits_toJson (arg : Argument) : arg.toJson.Fits := by
  obtain ⟨type, name, default⟩ := arg
  cases default with
  | none => exact ⟨trivial, trivial, trivial⟩
  | some text => exact ⟨trivial, trivial, trivial, trivial⟩

theorem Command.tree_toJson (command : Command) :
    command.toJson.tree = command.tree Tree.listed := by
  obtain ⟨aliases, description, args⟩ := command
  cases args with
  | nil =>
    simp only [toJson, List.isEmpty_nil, if_true, List.append_nil, Json.Value.tree,
      Json.Value.memberTrees, Json.Value.tree_strings]
    rfl
  | cons arg more =>
    simp only [toJson, List.isEmpty_cons, Bool.false_eq_true, if_false, List.cons_append,
      List.nil_append, Json.Value.tree, Json.Value.memberTrees, Json.Value.tree_strings]
    have items := Json.Value.tree_array (arg :: more) Argument.toJson
    simp only [Argument.tree_toJson, Json.Value.tree] at items
    rw [items]
    rfl

theorem Command.fits_toJson (command : Command) : command.toJson.Fits := by
  obtain ⟨aliases, description, args⟩ := command
  have texts := Json.Value.fits_strings aliases
  have items : (Json.Value.array (args.map Argument.toJson)).Fits :=
    Json.Value.fits_array (fun arg _ => arg.fits_toJson)
  cases args with
  | nil => exact ⟨texts, trivial, trivial⟩
  | cons arg more => exact ⟨texts, trivial, items, trivial⟩

/-! ### Dialects -/

namespace Dialect

/-- The tree of `Dialect.toJson`: the name, and lists of the types and commands. -/
theorem tree_toJson (dialect : Dialect) :
    dialect.toJson.tree = .table (Record.named [("name", .text dialect.name),
      ("types", Tree.listed (dialect.types.map ValueType.tree)),
      ("commands", Tree.listed (dialect.commands.map (Command.tree Tree.listed)))]) true := by
  have types := Json.Value.tree_array dialect.types ValueType.toJson
  have commands := Json.Value.tree_array dialect.commands Command.toJson
  simp only [ValueType.tree_toJson] at types
  simp only [Command.tree_toJson] at commands
  rw [toJson, Json.Value.tree]
  simp only [Json.Value.memberTrees, types, commands]
  rfl

theorem fits_toJson (dialect : Dialect) : dialect.toJson.Fits :=
  ⟨trivial, Json.Value.fits_array (fun type _ => type.fits_toJson),
    Json.Value.fits_array (fun command _ => command.fits_toJson), trivial⟩

/-- For every dialect, the document that `Dialect.render` writes is parsed as that dialect. -/
theorem parse_render_json (dialect : Dialect) :
    Dialect.parse .json (dialect.render .json) = .ok dialect := by
  have read := Json.read_write dialect.fits_toJson
  have made : Dialect.ofTree true dialect.toJson.tree = .ok dialect := by
    rw [tree_toJson]
    exact ofTree_rows true Tree.isRow_listed Tree.isRow_listed Tree.isRow_listed dialect
      (Or.inl rfl)
  rw [Dialect.parse, Dialect.render, Dialect.ofJson, read]
  simp only [made, ok_bind, if_true]

end Dialect

end Wordbook
