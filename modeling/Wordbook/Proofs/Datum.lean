import Mathlib.Data.List.Forall2
import Wordbook.Proofs.Record

/-!
# Data and the dialects they are

What a document says is a datum, whichever notation it is written in.  This module states the schema
of dialect documents on data, without any reading, and shows that trees are read by it.

## Main Definitions

* `Datum` — what a document says
* `Datum.Once`, `Datum.AtMostOnce` — a table has a name once, or not more than once
* `Datum.IsType`, `Datum.IsArgument`, `Datum.IsCommand`, `Datum.IsDialect` — the schema
* `Datum.KeepsRecordsInTables` — no list stands where a record is expected
* `Tree.Holds` — a tree is what a datum is read as
* `Scalar` — a text or a natural number
* `Tree.Keeps` — a tree is what a datum is read as, and if that is a scalar, it is the same one

## Main Statements

* `Tree.Holds.isSound` — such a tree is sound
* `Record.HasSlots.read_eq_ok_iff` — when a datum is read as a record
* `Tree.Holds.ofTree_eq_ok_iff` — a datum is read as the dialect that it is, and as none otherwise

## Design Notes

The members of a table are a list, so a name may stand in it several times.  The schema asks only
for the values that a name has, and so neither the order of the members nor what stands under other
names says anything.

No field of a dialect has numbers in it.  So a tree holds a number if it has any number in its
place, even one that is out of range; and a table, if it has the members in any order.  Where the
number itself counts, a tree has to keep it.
-/

namespace Wordbook

/-- What a document says, whatever its notation. -/
inductive Datum where
  /-- The absence of a value. -/
  | null
  /-- A truth value. -/
  | bool (b : Bool)
  /-- A number. -/
  | number (value : Rat)
  /-- A text. -/
  | text (s : String)
  /-- Values in a row. -/
  | list (items : List Datum)
  /-- Named values in a row. -/
  | table (members : List (String × Datum))
deriving Inhabited

namespace Datum

variable {β : Type}

/-! ### The schema -/

/-- The values that a table has under the name `key`. -/
def values (key : String) (members : List (String × Datum)) : List Datum :=
  (members.filter (fun member => member.1 = key)).map Prod.snd

/-- A table has the name `key` once, with a value that `Is b`. -/
def Once (Is : Datum → β → Prop) (key : String) (members : List (String × Datum)) (b : β) : Prop :=
  ∃ v, values key members = [v] ∧ Is v b

/-- A table has the name `key` at most once, with a value that `Is b`; without it, `b` is
`absent`. -/
def AtMostOnce (Is : Datum → β → Prop) (absent : β) (key : String)
    (members : List (String × Datum)) (b : β) : Prop :=
  (values key members = [] ∧ b = absent) ∨ Once Is key members b

/-- The datum `v` is the text `s`. -/
def IsText (v : Datum) (s : String) : Prop := v = .text s

/-- The datum `v` is a list, with items that are the entries of `bs` in their order. -/
def IsListOf (Is : Datum → β → Prop) (v : Datum) (bs : List β) : Prop :=
  ∃ items, v = .list items ∧ List.Forall₂ Is items bs

/-- The datum `v` is the absence of a value, or a value that `Is` one. -/
def IsOptional (Is : Datum → β → Prop) (v : Datum) (b? : Option β) : Prop :=
  (v = .null ∧ b? = none) ∨ ∃ b, Is v b ∧ b? = some b

/-- The datum `v` is a type: a table with an identifier, and maybe with notes. -/
def IsType (v : Datum) (type : ValueType) : Prop :=
  ∃ members, v = .table members ∧ Once IsText "id" members type.id
    ∧ AtMostOnce (IsListOf IsText) [] "syntax" members type.notes

/-- The datum `v` is an argument: a table with a type, and maybe with a name and a default. -/
def IsArgument (v : Datum) (arg : Argument) : Prop :=
  ∃ members, v = .table members ∧ Once IsText "type" members arg.type
    ∧ AtMostOnce IsText "" "name" members arg.name
    ∧ AtMostOnce (IsOptional IsText) none "default" members arg.default

/-- The datum `v` is a command: a table with aliases, and maybe with a description and arguments. -/
def IsCommand (v : Datum) (command : Command) : Prop :=
  ∃ members, v = .table members ∧ Once (IsListOf IsText) "aliases" members command.aliases
    ∧ AtMostOnce IsText "" "description" members command.description
    ∧ AtMostOnce (IsListOf IsArgument) [] "args" members command.args

/-- The datum `v` is a dialect: a table with a name, and maybe with types and commands. -/
def IsDialect (v : Datum) (dialect : Dialect) : Prop :=
  ∃ members, v = .table members ∧ Once IsText "name" members dialect.name
    ∧ AtMostOnce (IsListOf IsType) [] "types" members dialect.types
    ∧ AtMostOnce (IsListOf IsCommand) [] "commands" members dialect.commands

/-! ### Lists in the place of records -/

/-- The datum `v` is a list. -/
def IsList (v : Datum) : Prop := ∃ items, v = .list items

/-- The table `v` has `part` as an item of a list under the name `key`. -/
def HasItem (v : Datum) (key : String) (part : Datum) : Prop :=
  ∃ members items, v = .table members ∧ (key, .list items) ∈ members ∧ part ∈ items

/-- In `v` no list stands where a dialect, a type, a command or an argument is expected.  Such a
list would be read by position. -/
structure KeepsRecordsInTables (v : Datum) : Prop where
  /-- The datum itself is no list. -/
  root : ¬ v.IsList
  /-- No type is. -/
  types : ∀ type, v.HasItem "types" type → ¬ type.IsList
  /-- No command is. -/
  commands : ∀ command, v.HasItem "commands" command → ¬ command.IsList
  /-- No argument of a command is. -/
  args : ∀ command, v.HasItem "commands" command → ∀ arg, command.HasItem "args" arg →
    ¬ arg.IsList

theorem values_cons_self (key : String) (v : Datum) (more : List (String × Datum)) :
    values key ((key, v) :: more) = v :: values key more := by
  have kept : decide ((key, v).1 = key) = true := decide_eq_true rfl
  rw [values, List.filter_cons, if_pos kept, List.map_cons, values]

theorem values_cons_of_ne {key other : String} (v : Datum) (more : List (String × Datum))
    (differs : other ≠ key) : values key ((other, v) :: more) = values key more := by
  have dropped : ¬ decide ((other, v).1 = key) = true := by
    rw [decide_eq_true_eq]
    exact differs
  rw [values, List.filter_cons, if_neg dropped, values]

/-- A table without the name `key` has no `values` there. -/
theorem values_eq_nil {key : String} {members : List (String × Datum)}
    (unknown : key ∉ members.map Prod.fst) : values key members = [] := by
  rw [values, List.map_eq_nil_iff, List.filter_eq_nil_iff]
  intro member inside named
  exact unknown (of_decide_eq_true named ▸ List.mem_map_of_mem inside)

/-- A table that has a name once has one of `values` there. -/
theorem values_eq_singleton {members : List (String × Datum)}
    (distinct : (members.map Prod.fst).Nodup) {member : String × Datum}
    (inside : member ∈ members) : values member.1 members = [member.2] := by
  induction members with
  | nil => cases inside
  | cons first more ih =>
    rw [List.map_cons, List.nodup_cons] at distinct
    rcases List.mem_cons.mp inside with rfl | later
    · rw [values_cons_self, values_eq_nil distinct.1]
    · have differs : first.1 ≠ member.1 := fun same =>
        distinct.1 (same ▸ List.mem_map_of_mem later)
      rw [values_cons_of_ne _ _ differs]
      exact ih distinct.2 later

theorem mem_of_values_eq {key : String} {members : List (String × Datum)} {v : Datum}
    (single : values key members = [v]) : (key, v) ∈ members := by
  have there : v ∈ values key members := by
    rw [single]
    exact List.mem_singleton_self v
  obtain ⟨⟨name, _⟩, member, rfl⟩ := List.mem_map.mp there
  obtain ⟨member, same⟩ := List.mem_filter.mp member
  have named : name = key := of_decide_eq_true same
  rwa [named] at member

end Datum

namespace Tree

mutual

/-- A tree holds the datum that it is read from.  A number may have any of the trees of numbers, as
no dialect has a number in it. -/
inductive Holds : Tree → Datum → Prop
  | null : Holds .null .null
  | bool (b : Bool) : Holds (.bool b) (.bool b)
  | integer (n : Int) (x : Rat) : Holds (.integer n) (.number x)
  | float (shown : String) (x : Rat) : Holds (.float shown) (.number x)
  | unreadable (x : Rat) : Holds .unreadable (.number x)
  | text (s : String) : Holds (.text s) (.text s)
  | list {trees : List Tree} {items : List Datum} (held : List.Forall₂ Holds trees items) :
    Holds (.list trees true) (.list items)
  | rows {trees : List Tree} {items : List Datum} (held : List.Forall₂ Holds trees items) :
    Holds (.rows trees) (.list items)
  | table {trees : List (Option String × Tree)} {inOrder members : List (String × Datum)}
    (held : HoldMembers trees inOrder) (perm : inOrder.Perm members) :
    Holds (.table trees true) (.table members)

/-- The members of a table are what named data are read as, in their order. -/
inductive HoldMembers : List (Option String × Tree) → List (String × Datum) → Prop
  | nil : HoldMembers [] []
  | cons {t : Tree} {v : Datum} {trees : List (Option String × Tree)}
    {members : List (String × Datum)} (key : String) (first : Holds t v)
    (others : HoldMembers trees members) :
    HoldMembers ((some key, t) :: trees) ((key, v) :: members)

end

end Tree

/-! ### Scalars -/

/-- A text or a natural number. -/
inductive Scalar where
  /-- A text. -/
  | text (s : String)
  /-- A natural number. -/
  | count (n : Nat)
deriving DecidableEq, Repr

/-- The datum of a scalar. -/
def Scalar.datum : Scalar → Datum
  | .text s => .text s
  | .count n => .number n

/-- The tree of a scalar. -/
def Scalar.tree : Scalar → Tree
  | .text s => .text s
  | .count n => .integer n

theorem Scalar.datum_injective : Function.Injective Scalar.datum := by
  rintro (s | n) (s' | n') same
  · rw [Datum.text.inj same]
  · cases same
  · cases same
  · rw [Rat.natCast_inj.mp (Datum.number.inj same)]

namespace Tree

/-- The tree `t` holds the datum `v`, and it is the tree of a scalar if `v` is that scalar. -/
structure Keeps (t : Tree) (v : Datum) : Prop where
  /-- It holds the datum. -/
  holds : Holds t v
  /-- Scalars stay as they are. -/
  same : ∀ scalar : Scalar, v = scalar.datum → t = scalar.tree

theorem keeps_text (s : String) : (Tree.text s).Keeps (.text s) where
  holds := .text s
  same := by
    rintro (s' | n) same
    · rw [Datum.text.inj same]
      rfl
    · cases same

theorem keeps_integer (n : Int) : (Tree.integer n).Keeps (.number n) where
  holds := .integer n n
  same := by
    rintro (s | m) same
    · cases same
    · have whole : n = (m : Int) := by
        have value := Datum.number.inj same
        exact_mod_cast value
      rw [whole]
      rfl

/-- A tree that `Holds` a datum other than a scalar `Keeps` it. -/
theorem Holds.keeps {t : Tree} {v : Datum} (held : Holds t v)
    (noScalar : ∀ scalar : Scalar, v ≠ scalar.datum) : t.Keeps v :=
  ⟨held, fun scalar same => absurd same (noScalar scalar)⟩

namespace Holds

mutual

/-- A tree that `Holds` a datum is sound: nothing in it was given up. -/
theorem isSound {t : Tree} {v : Datum} (held : Holds t v) : t.isSound = true := by
  match t with
  | .list trees _ =>
    cases held with
    | list held => rw [Tree.isSound, areSound held, Bool.and_self]
  | .rows trees =>
    cases held with
    | rows held => rw [Tree.isSound, areSound held]
  | .table trees _ =>
    cases held with
    | table held _ => rw [Tree.isSound, membersAreSound held, Bool.and_self]
  | .null => rfl
  | .bool _ => rfl
  | .integer _ => rfl
  | .float _ => rfl
  | .text _ => rfl
  | .moment => rfl
  | .unreadable => rfl
  | .broken => cases held

theorem areSound {trees : List Tree} {items : List Datum} (held : List.Forall₂ Holds trees items) :
    Tree.areSound trees = true := by
  match trees with
  | [] => rfl
  | t :: more =>
    cases held with
    | cons first others => rw [Tree.areSound, isSound first, areSound others, Bool.and_self]

theorem membersAreSound {trees : List (Option String × Tree)} {members : List (String × Datum)}
    (held : HoldMembers trees members) : Tree.membersAreSound trees = true := by
  match trees with
  | [] => rfl
  | (_, t) :: more =>
    cases held with
    | cons key first others =>
      rw [Tree.membersAreSound, isSound first, membersAreSound others, Bool.and_self]

end

/-! ### What is read of a tree that holds a datum -/

variable {β : Type} {t : Tree} {v : Datum}

theorem asText_eq_ok_iff (held : Holds t v) {s : String} : t.asText = .ok s ↔ v.IsText s := by
  cases held <;> simp [asText, unexpected, kind, Datum.IsText]

/-- A datum is read by `asOptional` as a value that may be absent, if other data are read as
values. -/
theorem asOptional_eq_ok_iff (held : Holds t v) {value : Tree → Reading β} {Is : Datum → β → Prop}
    (fits : ∀ b, value t = .ok b ↔ Is v b) (never : ∀ b, ¬ Is .null b) {b? : Option β} :
    t.asOptional value = .ok b? ↔ v.IsOptional Is b? := by
  have present : t.asOptional value = some <$> value t → v ≠ .null →
      (t.asOptional value = .ok b? ↔ v.IsOptional Is b?) := by
    intro read notNull
    rw [read, map_eq_pure_bind, bind_eq_ok_iff, Datum.IsOptional]
    simp only [fits, notNull, false_and, false_or]
    exact exists_congr (fun b => and_congr_right (fun _ =>
      ⟨fun same => (Except.ok.inj same).symm, fun same => congrArg Except.ok same.symm⟩))
  cases held with
  | null =>
    simp only [asOptional, Except.ok.injEq, Datum.IsOptional, true_and, never, false_and,
      exists_false, or_false, eq_comm]
  | _ => exact present rfl nofun

/-- The items of a list are read by `mapM` exactly if each of them is. -/
theorem mapM_eq_ok_iff {trees : List Tree} {items : List Datum}
    (held : List.Forall₂ Holds trees items) {item : Tree → Reading β} {Is : Datum → β → Prop}
    (fits : ∀ part ∈ items, ∀ t, Holds t part → ∀ b, item t = .ok b ↔ Is part b) {bs : List β} :
    trees.mapM item = .ok bs ↔ List.Forall₂ Is items bs := by
  induction held generalizing bs with
  | nil =>
    rw [List.mapM_nil, List.forall₂_nil_left_iff]
    exact ⟨fun same => (Except.ok.inj same).symm, fun same => congrArg Except.ok same.symm⟩
  | @cons t v trees items first others ih =>
    rw [List.forall_mem_cons] at fits
    simp only [List.mapM_cons, bind_eq_ok_iff, fits.1 t first, ih fits.2,
      List.forall₂_cons_left_iff]
    constructor
    · rintro ⟨b, is, bs', are, same⟩
      exact ⟨b, bs', is, are, (Except.ok.inj same).symm⟩
    · rintro ⟨b, bs', is, are, rfl⟩
      exact ⟨b, is, bs', are, rfl⟩

/-- A datum is read by `asList` exactly if it is a list whose items are read. -/
theorem asList_eq_ok_iff (held : Holds t v) {item : Tree → Reading β} {Is : Datum → β → Prop}
    (fits : ∀ items, v = .list items → ∀ part ∈ items, ∀ t, Holds t part →
      ∀ b, item t = .ok b ↔ Is part b) {bs : List β} :
    t.asList item = .ok bs ↔ v.IsListOf Is bs := by
  cases held with
  | @list trees items held =>
    have read : (Tree.list trees true).asList item = trees.mapM item := isRow_listed item trees
    simp only [read, mapM_eq_ok_iff held (fits items rfl), Datum.IsListOf, Datum.list.injEq,
      exists_eq_left']
  | @rows trees items held =>
    simp only [asList, mapM_eq_ok_iff held (fits items rfl), Datum.IsListOf, Datum.list.injEq,
      exists_eq_left']
  | _ =>
    refine iff_of_false (fun read => ?_) ?_
    · cases read
    · rintro ⟨_, same, -⟩
      cases same

theorem texts_eq_ok_iff (held : Holds t v) {texts : List String} :
    t.asList asText = .ok texts ↔ v.IsListOf Datum.IsText texts :=
  asList_eq_ok_iff held (fun _ _ _ _ _ held _ => asText_eq_ok_iff held)

end Holds

namespace HoldMembers

variable {β : Type} {trees : List (Option String × Tree)} {inOrder members : List (String × Datum)}

theorem exists_name (held : HoldMembers trees members) :
    ∀ tree ∈ trees, ∃ key, tree.1 = some key ∧ tree.2.isSound = true := by
  intro tree member
  induction trees generalizing members with
  | nil => cases member
  | cons first more ih =>
    cases held with
    | cons key held others =>
      rcases List.mem_cons.mp member with rfl | member
      · exact ⟨key, rfl, held.isSound⟩
      · exact ih others member

/-- The trees under the name `key` hold the `values` under that name. -/
theorem under (held : HoldMembers trees members) (key : String) :
    List.Forall₂ Holds (Tree.under key trees) (Datum.values key members) := by
  induction trees generalizing members with
  | nil =>
    cases held
    exact .nil
  | cons first more ih =>
    cases held with
    | @cons t v _ rest name held others =>
      have later := ih others
      by_cases same : name = key
      · subst same
        rw [Tree.under_cons_self, Datum.values_cons_self]
        exact .cons held later
      · rw [Tree.under_cons_of_ne t more same, Datum.values_cons_of_ne v rest same]
        exact later

theorem perm_values (perm : inOrder.Perm members) (key : String) :
    (Datum.values key inOrder).Perm (Datum.values key members) :=
  (perm.filter _).map Prod.snd

/-- No tree stands under `key` exactly if the table has no value there. -/
theorem under_eq_nil_iff (held : HoldMembers trees inOrder) (perm : inOrder.Perm members)
    (key : String) : Tree.under key trees = [] ↔ Datum.values key members = [] := by
  have sameLength : (Tree.under key trees).length = (Datum.values key members).length :=
    (held.under key).length_eq.trans (perm_values perm key).length_eq
  rw [← List.length_eq_zero_iff, sameLength, List.length_eq_zero_iff]

/-- One tree stands under `key` and fits exactly if the table has the name `Once` with a value that
fits. -/
theorem under_eq_singleton_iff (held : HoldMembers trees inOrder) (perm : inOrder.Perm members)
    (key : String) {read : Tree → Reading β} {Is : Datum → β → Prop} {b : β}
    (fits : ∀ v, (key, v) ∈ members → ∀ t, Holds t v → (read t = .ok b ↔ Is v b)) :
    (∃ t, Tree.under key trees = [t] ∧ read t = .ok b) ↔ Datum.Once Is key members b := by
  have stands := held.under key
  constructor
  · rintro ⟨t, single, made⟩
    rw [single] at stands
    obtain ⟨v, _, first, others, values⟩ := List.forall₂_cons_left_iff.mp stands
    obtain rfl := List.forall₂_nil_left_iff.mp others
    have only : Datum.values key members = [v] :=
      List.perm_singleton.mp (values ▸ (perm_values perm key).symm)
    exact ⟨v, only, (fits v (Datum.mem_of_values_eq only) t first).mp made⟩
  · rintro ⟨v, only, is⟩
    have values : Datum.values key inOrder = [v] :=
      List.perm_singleton.mp (only ▸ perm_values perm key)
    rw [values] at stands
    obtain ⟨t, _, first, others, single⟩ := List.forall₂_cons_right_iff.mp stands
    obtain rfl := List.forall₂_nil_right_iff.mp others
    exact ⟨t, single, (fits v (Datum.mem_of_values_eq only) t first).mpr is⟩

/-- A field that is required stands in a table `Once` and fits. -/
theorem once_iff (held : HoldMembers trees inOrder) (perm : inOrder.Perm members) {key : String}
    {required : List String} (needed : required.contains key = true) {read : Tree → Reading β}
    {Is : Datum → β → Prop} {absent b : β}
    (fits : ∀ v, (key, v) ∈ members → ∀ t, Holds t v → (read t = .ok b ↔ Is v b)) :
    ((key ∉ required ∧ Tree.under key trees = [] ∧ b = absent)
      ∨ ∃ t, Tree.under key trees = [t] ∧ read t = .ok b) ↔ Datum.Once Is key members b := by
  rw [or_iff_right (fun optional => optional.1 (List.contains_iff_mem.mp needed)),
    under_eq_singleton_iff held perm key fits]

/-- A field that is not required stands in a table once and fits, or is not there: this is
`AtMostOnce`. -/
theorem atMostOnce_iff (held : HoldMembers trees inOrder) (perm : inOrder.Perm members)
    {key : String} {required : List String} (optional : required.contains key = false)
    {read : Tree → Reading β} {Is : Datum → β → Prop} {absent b : β}
    (fits : ∀ v, (key, v) ∈ members → ∀ t, Holds t v → (read t = .ok b ↔ Is v b)) :
    ((key ∉ required ∧ Tree.under key trees = [] ∧ b = absent)
      ∨ ∃ t, Tree.under key trees = [t] ∧ read t = .ok b)
      ↔ Datum.AtMostOnce Is absent key members b := by
  have notRequired : key ∉ required := by
    rw [← List.contains_iff_mem, optional]
    exact Bool.false_ne_true
  rw [under_eq_singleton_iff held perm key fits, under_eq_nil_iff held perm key,
    and_iff_right notRequired, Datum.AtMostOnce]

end HoldMembers

namespace Holds

variable {t : Tree} {v : Datum}

/-- A datum other than a list is read as a record exactly if it is a table whose members are. -/
theorem read_eq_ok_iff {α : Type} {record : Record α} {strict : Bool} (held : Holds t v)
    (noList : ¬ v.IsList) {value : α} {Fits : List (String × Datum) → Prop}
    (fits : ∀ trees inOrder members, v = .table members → HoldMembers trees inOrder →
      inOrder.Perm members → record.Readable trees →
      (record.read strict (.table trees true) = .ok value ↔ Fits members)) :
    record.read strict t = .ok value ↔ ∃ members, v = .table members ∧ Fits members := by
  cases held with
  | list _ => exact absurd ⟨_, rfl⟩ noList
  | rows _ => exact absurd ⟨_, rfl⟩ noList
  | @table trees inOrder members held perm =>
    have readable : record.Readable trees := by
      intro tree member
      obtain ⟨key, named, sound⟩ := held.exists_name tree member
      exact ⟨key, named, fun _ => sound⟩
    simp only [fits trees inOrder members rfl held perm readable, Datum.table.injEq,
      exists_eq_left']
  | _ => exact iff_of_false nofun nofun

/-! ### The parts of a dialect -/

theorem valueType_eq_ok_iff (held : Holds t v) (noList : ¬ v.IsList) {strict : Bool}
    {type : ValueType} : ValueType.record.read strict t = .ok type ↔ v.IsType type := by
  refine held.read_eq_ok_iff noList (fun trees inOrder members _ held perm readable => ?_)
  rw [ValueType.hasSlots.read_table_iff strict readable]
  simp only [ValueType.slots, List.forall_mem_cons, List.not_mem_nil, false_imp_iff, implies_true,
    and_true]
  exact and_congr
    (held.once_iff perm rfl (fun _ _ _ held => held.asText_eq_ok_iff))
    (held.atMostOnce_iff perm rfl (fun _ _ _ held => held.texts_eq_ok_iff))

theorem argument_eq_ok_iff (held : Holds t v) (noList : ¬ v.IsList) {strict : Bool}
    {arg : Argument} : Argument.record.read strict t = .ok arg ↔ v.IsArgument arg := by
  refine held.read_eq_ok_iff noList (fun trees inOrder members _ held perm readable => ?_)
  rw [Argument.hasSlots.read_table_iff strict readable]
  simp only [Argument.slots, List.forall_mem_cons, List.not_mem_nil, false_imp_iff, implies_true,
    and_true]
  exact and_congr
    (held.once_iff perm rfl (fun _ _ _ held => held.asText_eq_ok_iff))
    (and_congr
      (held.atMostOnce_iff perm rfl (fun _ _ _ held => held.asText_eq_ok_iff))
      (held.atMostOnce_iff perm rfl (fun _ _ _ held =>
        held.asOptional_eq_ok_iff (fun _ => held.asText_eq_ok_iff)
          (fun _ isText => by cases isText))))

theorem command_eq_ok_iff (held : Holds t v) (noList : ¬ v.IsList)
    (noArgIsList : ∀ arg, v.HasItem "args" arg → ¬ arg.IsList) {strict : Bool} {command : Command} :
    (Command.record strict).read strict t = .ok command ↔ v.IsCommand command := by
  refine held.read_eq_ok_iff noList (fun trees inOrder members isTable held perm readable => ?_)
  rw [(Command.hasSlots strict).read_table_iff strict readable]
  simp only [Command.slots, List.forall_mem_cons, List.not_mem_nil, false_imp_iff, implies_true,
    and_true]
  exact and_congr
    (held.once_iff perm rfl (fun _ _ _ held => held.texts_eq_ok_iff))
    (and_congr
      (held.atMostOnce_iff perm rfl (fun _ _ _ held => held.asText_eq_ok_iff))
      (held.atMostOnce_iff perm rfl (fun _ member _ held =>
        held.asList_eq_ok_iff (fun items same part inside _ held _ =>
          have item := ⟨members, items, isTable, same ▸ member, inside⟩
          held.argument_eq_ok_iff (noArgIsList part item)))))

/-- A tree that `Holds` the datum `v` is read by `Dialect.ofTree` as a dialect exactly if `v` is
that dialect. -/
theorem ofTree_eq_ok_iff (held : Holds t v) (kept : v.KeepsRecordsInTables) {strict : Bool}
    {dialect : Dialect} : Dialect.ofTree strict t = .ok dialect ↔ v.IsDialect dialect := by
  refine held.read_eq_ok_iff kept.root (fun trees inOrder members isTable held perm readable => ?_)
  rw [(Dialect.hasSlots strict).read_table_iff strict readable]
  simp only [Dialect.slots, List.forall_mem_cons, List.not_mem_nil, false_imp_iff, implies_true,
    and_true]
  exact and_congr
    (held.once_iff perm rfl (fun _ _ _ held => held.asText_eq_ok_iff))
    (and_congr
      (held.atMostOnce_iff perm rfl (fun _ member _ held =>
        held.asList_eq_ok_iff (fun items same part inside _ held _ =>
          have item := ⟨members, items, isTable, same ▸ member, inside⟩
          held.valueType_eq_ok_iff (kept.types part item))))
      (held.atMostOnce_iff perm rfl (fun _ member _ held =>
        held.asList_eq_ok_iff (fun items same part inside _ held _ =>
          have item := ⟨members, items, isTable, same ▸ member, inside⟩
          held.command_eq_ok_iff (kept.commands part item) (kept.args part item)))))

end Holds

end Tree

end Wordbook
