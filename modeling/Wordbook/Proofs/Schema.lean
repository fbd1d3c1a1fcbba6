import Wordbook.Schema

/-!
# Records read back

When a table is read as a record, and that the trees of types, arguments and commands are read as
what they were made of.

## Main Definitions

* `Tree.IsRow` — a way to put trees in a row that is read item by item
* `Record.takeAll` — a record with the values of members, one after the other
* `ValueType.tree`, `Argument.tree`, `Command.tree` — the trees of the parts of a dialect

## Main Statements

* `Record.read_table` — a table with known fields, each once and all required ones, is read as its
  values one after the other
* `ValueType.read_tree`, `Argument.read_tree`, `Command.read_tree` — the trees are read back
* `Dialect.ofTree_rows` — a table with a name and rows of types and commands is read as the dialect
  that has them

## Design Notes

The two notations make the same trees but for one thing: tables in a row are items of a list in one
and stand under headers in the other.  Where a tree holds such a row, the row is a parameter.
-/

namespace Wordbook

/-- A `Reading` that succeeds goes on with its value. -/
theorem ok_bind {α β : Type} (value : α) (next : α → Reading β) :
    ((Except.ok value : Reading α) >>= next) = next value := rfl

/-! ### Lists -/

/-- Items that are each read as a value are read by `mapM` as the values. -/
theorem mapM_map_eq_ok {α : Type} {tree : α → Tree} {item : Tree → Reading α} {values : List α}
    (read : ∀ value ∈ values, item (tree value) = .ok value) :
    (values.map tree).mapM item = .ok values := by
  induction values with
  | nil => rfl
  | cons value more ih =>
    have first := read value List.mem_cons_self
    have others := ih (fun v member => read v (List.mem_cons_of_mem _ member))
    rw [List.map_cons, List.mapM_cons, first, others]
    rfl

namespace Tree

/-- The function `row` puts trees in a row that `Tree.asList` reads item by item. -/
def IsRow (row : List Tree → Tree) : Prop :=
  ∀ {α : Type} (item : Tree → Reading α) (items : List Tree),
    (row items).asList item = items.mapM item

/-- Items in a list that was read to its end. -/
def listed (items : List Tree) : Tree := .list items true

theorem isRow_listed : IsRow listed := by
  intro α item items
  rw [listed, asList]
  cases items.mapM item <;> rfl

theorem isRow_rows : IsRow .rows := by
  intro α item items
  rw [asList]

/-- Texts in a list are read as these texts. -/
theorem asList_texts (texts : List String) :
    (Tree.list (texts.map .text) true).asList asText = .ok texts := by
  have read := isRow_listed asText (texts.map .text)
  rw [listed] at read
  rw [read]
  exact mapM_map_eq_ok (fun _ _ => rfl)

end Tree

/-! ### Tables -/

namespace Record

variable {α : Type} (record : Record α)

/-- The record `value` with the values of `members` taken in one after the other. -/
def takeAll (value : α) (members : List (String × Tree)) : Reading α :=
  members.foldlM (fun value member => record.take member.1 member.2 value) value

/-- The members of a table, each under its name. -/
def named (members : List (String × Tree)) : List (Option String × Tree) :=
  members.map (fun member => (some member.1, member.2))

@[simp] theorem takeAll_nil (value : α) : record.takeAll value [] = .ok value := rfl

theorem takeAll_cons (value : α) (key : String) (t : Tree) (more : List (String × Tree)) :
    record.takeAll value ((key, t) :: more)
      = (record.take key t value).bind (fun next => record.takeAll next more) := rfl

/-- Members with known names that were not met before are what `readMembers` takes in, one after the
other. -/
theorem readMembers_named {members : List (String × Tree)} {met : List String} {value result : α}
    (known : ∀ key ∈ members.map Prod.fst, key ∈ record.fields)
    (distinct : (members.map Prod.fst).Nodup)
    (fresh : ∀ key ∈ members.map Prod.fst, key ∉ met)
    (taken : record.takeAll value members = .ok result) :
    record.readMembers met value (named members)
      = .ok (result, (members.map Prod.fst).reverse ++ met) := by
  induction members generalizing met value with
  | nil =>
    cases taken
    rfl
  | cons member more ih =>
    obtain ⟨key, t⟩ := member
    rw [List.map_cons, List.forall_mem_cons] at known fresh
    rw [List.map_cons, List.nodup_cons] at distinct
    rw [takeAll_cons] at taken
    cases step : record.take key t value with
    | error problem =>
      rw [step] at taken
      cases taken
    | ok next =>
      rw [step] at taken
      have later : ∀ other ∈ more.map Prod.fst, other ∉ key :: met := by
        intro other member again
        rcases List.mem_cons.mp again with rfl | old
        · exact distinct.1 member
        · exact fresh.2 other member old
      have rest := ih known.2 distinct.2 later taken
      have isKnown : record.fields.contains key = true := List.contains_iff_mem.mpr known.1
      have isFresh : ¬ met.contains key = true := fun old => fresh.1 (List.contains_iff_mem.mp old)
      have split : named ((key, t) :: more) = (some key, t) :: named more := rfl
      rw [split, readMembers, if_pos isKnown, if_neg isFresh, step]
      show record.readMembers (key :: met) next (named more) = _
      rw [rest, List.map_cons, List.reverse_cons, List.append_assoc, List.singleton_append]

/-- Nothing is missing once all required fields were met. -/
theorem missing?_eq_none {met : List String} (all : ∀ field ∈ record.required, field ∈ met) :
    record.missing? met = none := by
  rw [missing?, List.find?_eq_none]
  intro field _ lacks
  rw [Bool.and_eq_true, List.contains_iff_mem, Bool.not_eq_true', ← Bool.not_eq_true,
    List.contains_iff_mem] at lacks
  exact lacks.2 (all field lacks.1)

/-- A table is read as a record if its names are known fields, each once, all required ones are
among them, and `takeAll` takes the values in. -/
theorem read_table (strict : Bool) (keys : List String) {members : List (String × Tree)}
    {value : α} (names : members.map Prod.fst = keys)
    (known : keys.all record.fields.contains = true) (distinct : keys.Nodup)
    (complete : record.required.all keys.contains = true)
    (taken : record.takeAll record.blank members = .ok value) :
    record.read strict (.table (named members) true) = .ok value := by
  subst names
  simp only [List.all_eq_true, List.contains_iff_mem] at known complete
  have met := record.readMembers_named known distinct (fun _ _ => List.not_mem_nil) taken
  have nothing : record.missing? ((members.map Prod.fst).reverse ++ []) = none := by
    apply record.missing?_eq_none
    intro field required
    rw [List.append_nil, List.mem_reverse]
    exact complete field required
  simp only [read, ofMembers, met, ok_bind, Bool.not_true, Bool.false_eq_true, if_false, nothing]

end Record

/-! ### The parts of a dialect -/

/-- The tree of a type. -/
def ValueType.tree (type : ValueType) : Tree :=
  .table (Record.named [("id", .text type.id), ("syntax", .list (type.notes.map .text) true)]) true

/-- The tree of an argument. -/
def Argument.tree (arg : Argument) : Tree :=
  .table (Record.named ([("type", .text arg.type), ("name", .text arg.name)]
    ++ arg.default.toList.map (fun text => ("default", .text text)))) true

/-- The member of a table for a `row` of tables; a row without tables has none. -/
def rowMember (row : List Tree → Tree) (key : String) (items : List Tree) : List (String × Tree) :=
  if items.isEmpty then [] else [(key, row items)]

/-- The tree of a command whose arguments stand in a `row`. -/
def Command.tree (row : List Tree → Tree) (command : Command) : Tree :=
  .table (Record.named ([("aliases", .list (command.aliases.map .text) true),
    ("description", .text command.description)]
      ++ rowMember row "args" (command.args.map Argument.tree))) true

/-- The tree of a type is read by `ValueType.record` as that type. -/
theorem ValueType.read_tree (strict : Bool) (type : ValueType) :
    ValueType.record.read strict type.tree = .ok type := by
  refine ValueType.record.read_table strict ["id", "syntax"] rfl rfl (by decide) rfl ?_
  simp only [Record.takeAll_cons, Record.takeAll_nil, ValueType.record, Tree.asList_texts,
    Tree.asText]
  rfl

/-- The tree of an argument is read by `Argument.record` as that argument. -/
theorem Argument.read_tree (strict : Bool) (arg : Argument) :
    Argument.record.read strict arg.tree = .ok arg := by
  obtain ⟨type, name, default⟩ := arg
  cases default with
  | none =>
    exact Argument.record.read_table strict ["type", "name"] rfl rfl (by decide) rfl rfl
  | some text =>
    exact Argument.record.read_table strict ["type", "name", "default"] rfl rfl (by decide) rfl rfl

/-- The tree of a command is read by `Command.record` as that command, whichever `row` its arguments
stand in. -/
theorem Command.read_tree (strict : Bool) {row : List Tree → Tree} (isRow : Tree.IsRow row)
    (command : Command) :
    (Command.record strict).read strict (command.tree row) = .ok command := by
  obtain ⟨aliases, description, args⟩ := command
  cases args with
  | nil =>
    refine (Command.record strict).read_table strict ["aliases", "description"] rfl rfl
      (by decide) rfl ?_
    simp only [rowMember, List.map_nil, List.isEmpty_nil, if_true, List.append_nil,
      Record.takeAll_cons, Record.takeAll_nil, Command.record, Tree.asList_texts, Tree.asText]
    rfl
  | cons arg more =>
    have read : (row ((arg :: more).map Argument.tree)).asList (Argument.record.read strict)
        = .ok (arg :: more) := by
      rw [isRow]
      exact mapM_map_eq_ok (fun value _ => Argument.read_tree strict value)
    refine (Command.record strict).read_table strict ["aliases", "description", "args"]
      rfl rfl (by decide) rfl ?_
    simp only [rowMember, List.isEmpty_map, List.isEmpty_cons, Bool.false_eq_true, if_false,
      List.cons_append, List.nil_append, Record.takeAll_cons, Record.takeAll_nil, Command.record,
      Tree.asList_texts, Tree.asText, read]
    rfl

namespace Dialect

/-- A row of types is taken in by `Dialect.record` as these types. -/
theorem take_types (strict : Bool) {row : List Tree → Tree} (isRow : Tree.IsRow row)
    (types : List ValueType) (value : Dialect) :
    (Dialect.record strict).take "types" (row (types.map ValueType.tree)) value
      = .ok { value with types := types } := by
  have read : (row (types.map ValueType.tree)).asList (ValueType.record.read strict)
      = .ok types := by
    rw [isRow]
    exact mapM_map_eq_ok (fun type _ => ValueType.read_tree strict type)
  simp only [Dialect.record, read]
  rfl

/-- A row of commands is taken in by `Dialect.record` as these commands. -/
theorem take_commands (strict : Bool) {row args : List Tree → Tree} (isRow : Tree.IsRow row)
    (argsAreRow : Tree.IsRow args) (commands : List Command) (value : Dialect) :
    (Dialect.record strict).take "commands" (row (commands.map (Command.tree args))) value
      = .ok { value with commands := commands } := by
  have read : (row (commands.map (Command.tree args))).asList
      ((Command.record strict).read strict) = .ok commands := by
    rw [isRow]
    exact mapM_map_eq_ok (fun command _ => Command.read_tree strict argsAreRow command)
  simp only [Dialect.record, read]
  rfl

/-- A table with a name, then a row of types and one of commands in either order, is read by
`Dialect.ofTree` as the dialect that has them. -/
theorem ofTree_rows (strict : Bool) {typeRow commandRow args : List Tree → Tree}
    (typesAreRow : Tree.IsRow typeRow) (commandsAreRow : Tree.IsRow commandRow)
    (argsAreRow : Tree.IsRow args) (dialect : Dialect) {rows : List (String × Tree)}
    (inRows : rows = [("types", typeRow (dialect.types.map ValueType.tree)),
        ("commands", commandRow (dialect.commands.map (Command.tree args)))]
      ∨ rows = [("commands", commandRow (dialect.commands.map (Command.tree args))),
        ("types", typeRow (dialect.types.map ValueType.tree))]) :
    Dialect.ofTree strict (.table (Record.named (("name", .text dialect.name) :: rows)) true)
      = .ok dialect := by
  have name : (Dialect.record strict).take "name" (.text dialect.name)
      (Dialect.record strict).blank = .ok ⟨dialect.name, [], []⟩ := rfl
  have types := take_types strict typesAreRow dialect.types
  have commands := take_commands strict commandsAreRow argsAreRow dialect.commands
  rcases inRows with rfl | rfl
  · refine (Dialect.record strict).read_table strict ["name", "types", "commands"] rfl rfl
      (by decide) rfl ?_
    simp only [Record.takeAll_cons, Record.takeAll_nil, name, types, commands, Except.bind]
  · refine (Dialect.record strict).read_table strict ["name", "commands", "types"] rfl rfl
      (by decide) rfl ?_
    simp only [Record.takeAll_cons, Record.takeAll_nil, name, types, commands, Except.bind]

end Dialect

end Wordbook
