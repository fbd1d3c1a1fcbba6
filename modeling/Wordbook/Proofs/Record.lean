import Mathlib.Data.List.Nodup
import Wordbook.Proofs.Schema

/-!
# When a table is a record

A record takes its fields in one after the other, in whatever order the table has them.  This module
says when that succeeds and what comes of it, field by field and without any order.

## Main Definitions

* `Slot` — a field of a record: how it is read, and where its value is kept
* `Record.HasSlots` — the fields of a record are these slots
* `Slot.Reads` — what the members of a table leave in a field
* `ValueType.slots`, `Argument.slots`, `Command.slots`, `Dialect.slots` — the fields of the records

## Main Statements

* `Record.HasSlots.readMembers_eq_ok_iff` — members are read exactly if each field can be
* `Record.HasSlots.read_table_iff` — a table is read as a record exactly if each field stands in it
  once and fits, or is not required and not there

## Design Notes

A slot is a lens on the record.  Its laws say that the fields do not disturb each other, and that is
all the order of the members could depend on.  The induction over the members needs the record as
the members before have left it, so `Slot.Reads` starts from any record and any fields met before.
-/

namespace Wordbook

/-- A `Reading` of two steps succeeds exactly if the first does and the next one does with its
value. -/
theorem bind_eq_ok_iff {α β : Type} {first : Reading α} {next : α → Reading β} {result : β} :
    first >>= next = .ok result ↔ ∃ value, first = .ok value ∧ next value = .ok result := by
  cases first with
  | error problem => exact iff_of_false nofun nofun
  | ok value =>
    rw [ok_bind]
    constructor
    · exact fun read => ⟨value, rfl, read⟩
    · rintro ⟨_, same, read⟩
      cases same
      exact read

/-- A field of a record of type `α`: how it is read, and where its value is kept. -/
structure Slot (α : Type) where
  /-- The name of the field. -/
  key : String
  /-- The type of its values. -/
  Content : Type
  /-- Reads a value. -/
  read : Tree → Reading Content
  /-- The value that a record has. -/
  get : α → Content
  /-- The record with another value. -/
  set : Content → α → α

/-- The values of the members of a table that have the name `key`. -/
def Tree.under (key : String) (members : List (Option String × Tree)) : List Tree :=
  (members.filter (fun member => member.1 = some key)).map Prod.snd

@[simp] theorem Tree.under_nil (key : String) : Tree.under key [] = [] := rfl

theorem Tree.under_cons_self (key : String) (t : Tree) (more : List (Option String × Tree)) :
    Tree.under key ((some key, t) :: more) = t :: Tree.under key more := by
  have kept : decide ((some key, t).1 = some key) = true := decide_eq_true rfl
  rw [under, List.filter_cons, if_pos kept, List.map_cons, under]

theorem Tree.under_cons_of_ne {key other : String} (t : Tree)
    (more : List (Option String × Tree)) (differs : other ≠ key) :
    Tree.under key ((some other, t) :: more) = Tree.under key more := by
  have dropped : ¬ decide ((some other, t).1 = some key) = true := by
    rw [decide_eq_true_eq, Option.some.injEq]
    exact differs
  rw [under, List.filter_cons, if_neg dropped, under]

namespace Slot

variable {α : Type} (slot : Slot α)

/-- As far as this field goes, `members` turn `value` into `result`: there is one value for it, it
fits, and the field is not in `met`; or there is none, and the field stays as it is. -/
def Reads (met : List String) (value : α) (members : List (Option String × Tree)) (result : α) :
    Prop :=
  (Tree.under slot.key members = [] ∧ slot.get result = slot.get value)
    ∨ (slot.key ∉ met ∧ ∃ t, Tree.under slot.key members = [t]
      ∧ slot.read t = .ok (slot.get result))

end Slot

namespace Record

variable {α : Type} {record : Record α} {slots : List (Slot α)}

/-- The fields of `record` are these `slots`, each independent of the others. -/
structure HasSlots (record : Record α) (slots : List (Slot α)) : Prop where
  /-- The slots have the names of the fields. -/
  fields : record.fields = slots.map Slot.key
  /-- No two slots have one name. -/
  distinct : (slots.map Slot.key).Nodup
  /-- A value is read and kept by the slot of its name. -/
  take : ∀ slot ∈ slots, ∀ t value,
    record.take slot.key t value = (fun content => slot.set content value) <$> slot.read t
  /-- A slot has the value that was put there. -/
  get_set : ∀ slot ∈ slots, ∀ content value, slot.get (slot.set content value) = content
  /-- The other slots keep theirs. -/
  get_set_of_ne : ∀ slot ∈ slots, ∀ other ∈ slots, slot.key ≠ other.key →
    ∀ content value, other.get (slot.set content value) = other.get value
  /-- There is no more to a record than its slots. -/
  ext : ∀ value result, (∀ slot ∈ slots, slot.get value = slot.get result) → value = result

/-- The names of the members are texts, and what no field takes in is sound. -/
def Readable (record : Record α) (members : List (Option String × Tree)) : Prop :=
  ∀ member ∈ members, ∃ key, member.1 = some key
    ∧ (key ∉ record.fields → member.2.isSound = true)

namespace HasSlots

variable (has : record.HasSlots slots)

include has

theorem mem_fields {slot : Slot α} (member : slot ∈ slots) : slot.key ∈ record.fields := by
  rw [has.fields]
  exact List.mem_map_of_mem member

/-- Every field of the record has its slot. -/
theorem exists_slot {key : String} (known : key ∈ record.fields) :
    ∃ slot ∈ slots, slot.key = key := by
  rw [has.fields] at known
  exact List.mem_map.mp known

theorem eq_of_key_eq {slot other : Slot α} (member : slot ∈ slots) (member' : other ∈ slots)
    (same : slot.key = other.key) : slot = other :=
  List.inj_on_of_nodup_map has.distinct member member' same

omit has in
/-- A member that `slot` does not take in leaves it to the members behind it. -/
theorem reads_skip {slot : Slot α} {key : String} (t : Tree) (differs : key ≠ slot.key)
    (met : List String) (value result : α) (more : List (Option String × Tree)) :
    slot.Reads met value ((some key, t) :: more) result ↔ slot.Reads met value more result := by
  rw [Slot.Reads, Slot.Reads, Tree.under_cons_of_ne t more differs]

/-- A member that fits is the only one for its `slot`, and leaves the `other` fields to the members
behind it. -/
theorem reads_take {slot : Slot α} (member : slot ∈ slots) {met : List String}
    (fresh : slot.key ∉ met) {t : Tree} {content : slot.Content} (fits : slot.read t = .ok content)
    (value result : α) (more : List (Option String × Tree)) {other : Slot α}
    (member' : other ∈ slots) :
    other.Reads met value ((some slot.key, t) :: more) result
      ↔ other.Reads (slot.key :: met) (slot.set content value) more result := by
  by_cases same : slot.key = other.key
  · obtain rfl := has.eq_of_key_eq member member' same
    simp only [Slot.Reads, Tree.under_cons_self, List.cons_ne_nil, false_and, false_or,
      List.mem_cons_self, not_true_eq_false, or_false, has.get_set slot member]
    constructor
    · rintro ⟨-, _, single, read⟩
      obtain ⟨rfl, nothing⟩ := List.cons.inj single
      rw [fits] at read
      exact ⟨nothing, (Except.ok.inj read).symm⟩
    · rintro ⟨nothing, rfl⟩
      exact ⟨fresh, t, by rw [nothing], fits⟩
  · have stays := has.get_set_of_ne slot member other member' same content value
    have metBefore : other.key ∉ slot.key :: met ↔ other.key ∉ met := by
      rw [List.mem_cons, not_or]
      exact and_iff_right (Ne.symm same)
    rw [reads_skip t same, Slot.Reads, Slot.Reads, stays, metBefore]

/-- The members are read by `readMembers` exactly if each slot `Reads` them, and then each field is
as they leave it. -/
theorem readMembers_eq_ok_iff {members : List (Option String × Tree)} {met : List String}
    {value result : α} (readable : record.Readable members) :
    (∃ met', record.readMembers met value members = .ok (result, met'))
      ↔ ∀ slot ∈ slots, slot.Reads met value members result := by
  induction members generalizing met value with
  | nil =>
    simp only [readMembers_nil, Except.ok.injEq, Prod.mk.injEq, exists_and_left, exists_eq',
      and_true]
    constructor
    · rintro rfl slot -
      exact Or.inl ⟨rfl, rfl⟩
    · intro reads
      apply has.ext
      intro slot member
      rcases reads slot member with ⟨-, same⟩ | ⟨-, t, single, -⟩
      · exact same.symm
      · cases single
  | cons member more ih =>
    rw [Readable, List.forall_mem_cons] at readable
    obtain ⟨⟨key, named, skipped⟩, others⟩ := readable
    obtain ⟨_, t⟩ := member
    obtain rfl : _ = some key := named
    rw [readMembers]
    by_cases known : key ∈ record.fields
    · obtain ⟨slot, inside, rfl⟩ := has.exists_slot known
      rw [if_pos (List.contains_iff_mem.mpr known)]
      by_cases again : slot.key ∈ met
      · rw [if_pos (List.contains_iff_mem.mpr again)]
        refine iff_of_false ?_ (fun reads => ?_)
        · rintro ⟨_, read⟩
          cases read
        rcases reads slot inside with ⟨nothing, -⟩ | ⟨fresh, -⟩
        · rw [Tree.under_cons_self] at nothing
          cases nothing
        · exact absurd again fresh
      · rw [if_neg (fun old => again (List.contains_iff_mem.mp old)), has.take slot inside]
        cases fits : slot.read t with
        | error problem =>
          refine iff_of_false ?_ (fun reads => ?_)
          · rintro ⟨_, read⟩
            cases read
          rcases reads slot inside with ⟨nothing, -⟩ | ⟨-, _, single, read⟩
          · rw [Tree.under_cons_self] at nothing
            cases nothing
          · rw [Tree.under_cons_self] at single
            obtain ⟨rfl, -⟩ := List.cons.inj single
            rw [fits] at read
            cases read
        | ok content =>
          show (∃ met', record.readMembers (slot.key :: met) (slot.set content value) more
            = .ok (result, met')) ↔ _
          rw [ih others]
          exact forall₂_congr (fun other inside' =>
            (has.reads_take inside again fits value result more inside').symm)
    · rw [if_neg (fun old => known (List.contains_iff_mem.mp old)), if_pos (skipped known),
        ih others]
      refine forall₂_congr (fun slot inside => (reads_skip t ?_ met value result more).symm)
      rintro rfl
      exact known (has.mem_fields inside)

omit has in
/-- The fields in `met'` are those in `met` and those that stand among the members. -/
theorem mem_met_iff {members : List (Option String × Tree)} {met met' : List String}
    {value result : α} (read : record.readMembers met value members = .ok (result, met'))
    {key : String} (known : key ∈ record.fields) :
    key ∈ met' ↔ key ∈ met ∨ Tree.under key members ≠ [] := by
  induction members generalizing met value with
  | nil =>
    cases read
    simp
  | cons member more ih =>
    obtain ⟨name, t⟩ := member
    cases name with
    | none => cases read
    | some other =>
      rw [readMembers] at read
      by_cases same : other = key
      · subst same
        rw [if_pos (List.contains_iff_mem.mpr known)] at read
        split at read
        · cases read
        · obtain ⟨next, -, read⟩ := bind_eq_ok_iff.mp read
          have later := ih read
          simp only [List.mem_cons_self, true_or, iff_true] at later
          simp only [later, Tree.under_cons_self, ne_eq, List.cons_ne_nil, not_false_eq_true,
            or_true]
      · rw [Tree.under_cons_of_ne t more same]
        split at read
        · split at read
          · cases read
          · obtain ⟨next, -, read⟩ := bind_eq_ok_iff.mp read
            rw [ih read, List.mem_cons]
            exact or_congr_left (or_iff_right (Ne.symm same))
        · split at read
          · exact ih read
          · cases read

omit has in
/-- No field is missing exactly if all required ones are in `met`. -/
theorem missing?_eq_none_iff {met : List String} :
    record.missing? met = none ↔ ∀ key ∈ record.fields, key ∈ record.required → key ∈ met := by
  simp only [missing?, List.find?_eq_none, Bool.and_eq_true, List.contains_iff_mem,
    Bool.not_eq_true', ← Bool.not_eq_true, not_and, not_not]

/-- A table is read as a record exactly if each slot stands in it once and fits, or is not required
and not there. -/
theorem read_table_iff (strict : Bool) {members : List (Option String × Tree)} {value : α}
    (readable : record.Readable members) :
    record.read strict (.table members true) = .ok value ↔ ∀ slot ∈ slots,
      (slot.key ∉ record.required ∧ Tree.under slot.key members = []
        ∧ slot.get value = slot.get record.blank)
      ∨ ∃ t, Tree.under slot.key members = [t] ∧ slot.read t = .ok (slot.get value) := by
  have opened : record.read strict (.table members true) = .ok value ↔
      ∃ met, record.readMembers [] record.blank members = .ok (value, met)
        ∧ record.missing? met = none := by
    rw [read, ofMembers, bind_eq_ok_iff]
    simp only [Bool.not_true, Bool.false_eq_true, if_false, Prod.exists]
    constructor
    · rintro ⟨result, met, read, made⟩
      cases missing : record.missing? met with
      | some field =>
        rw [missing] at made
        cases made
      | none =>
        rw [missing] at made
        cases made
        exact ⟨met, read, missing⟩
    · rintro ⟨met, read, missing⟩
      refine ⟨value, met, read, ?_⟩
      rw [missing]
  rw [opened]
  constructor
  · rintro ⟨met, read, complete⟩ slot inside
    have known := has.mem_fields inside
    rcases (has.readMembers_eq_ok_iff readable).mp ⟨met, read⟩ slot inside with
      ⟨nothing, stays⟩ | ⟨-, fits⟩
    · refine Or.inl ⟨fun required => ?_, nothing, stays⟩
      have there := missing?_eq_none_iff.mp complete slot.key known required
      rw [mem_met_iff read known] at there
      rcases there with old | there
      · cases old
      · exact there nothing
    · exact Or.inr fits
  · intro fits
    have reads : ∀ slot ∈ slots, slot.Reads [] record.blank members value := by
      intro slot inside
      rcases fits slot inside with ⟨-, nothing, stays⟩ | found
      · exact Or.inl ⟨nothing, stays⟩
      · exact Or.inr ⟨List.not_mem_nil, found⟩
    obtain ⟨met, read⟩ := (has.readMembers_eq_ok_iff readable).mpr reads
    refine ⟨met, read, missing?_eq_none_iff.mpr fun key known required => ?_⟩
    obtain ⟨slot, inside, rfl⟩ := has.exists_slot known
    rw [mem_met_iff read known]
    rcases fits slot inside with ⟨optional, -⟩ | ⟨t, single, -⟩
    · exact absurd required optional
    · exact Or.inr (by rw [single]; exact List.cons_ne_nil t [])

end HasSlots

end Record

/-! ### The parts of a dialect -/

/-- The fields of a type, as slots. -/
def ValueType.slots : List (Slot ValueType) :=
  [⟨"id", String, Tree.asText, ValueType.id, fun id type => { type with id := id }⟩,
    ⟨"syntax", List String, Tree.asList Tree.asText, ValueType.notes,
      fun notes type => { type with notes := notes }⟩]

theorem ValueType.hasSlots : ValueType.record.HasSlots ValueType.slots where
  fields := rfl
  distinct := by decide
  take := by
    simp only [slots, List.forall_mem_cons, List.not_mem_nil, false_imp_iff, implies_true, and_true]
    exact ⟨fun _ _ => bind_pure_comp .., fun _ _ => bind_pure_comp ..⟩
  get_set := by simp [slots]
  get_set_of_ne := by simp [slots]
  ext := by
    rintro ⟨id, notes⟩ ⟨id', notes'⟩ same
    simpa [slots] using same

/-- The fields of an argument, as slots. -/
def Argument.slots : List (Slot Argument) :=
  [⟨"type", String, Tree.asText, Argument.type, fun type arg => { arg with type := type }⟩,
    ⟨"name", String, Tree.asText, Argument.name, fun name arg => { arg with name := name }⟩,
    ⟨"default", Option String, Tree.asOptional Tree.asText, Argument.default,
      fun default arg => { arg with default := default }⟩]

theorem Argument.hasSlots : Argument.record.HasSlots Argument.slots where
  fields := rfl
  distinct := by decide
  take := by
    simp only [slots, List.forall_mem_cons, List.not_mem_nil, false_imp_iff, implies_true, and_true]
    exact ⟨fun _ _ => bind_pure_comp .., fun _ _ => bind_pure_comp .., fun _ _ => bind_pure_comp ..⟩
  get_set := by simp [slots]
  get_set_of_ne := by simp [slots]
  ext := by
    rintro ⟨type, name, default⟩ ⟨type', name', default'⟩ same
    simpa [slots] using same

/-- The fields of a command, as slots. -/
def Command.slots (strict : Bool) : List (Slot Command) :=
  [⟨"aliases", List String, Tree.asList Tree.asText, Command.aliases,
      fun aliases command => { command with aliases := aliases }⟩,
    ⟨"description", String, Tree.asText, Command.description,
      fun description command => { command with description := description }⟩,
    ⟨"args", List Argument, Tree.asList (Argument.record.read strict), Command.args,
      fun args command => { command with args := args }⟩]

theorem Command.hasSlots (strict : Bool) :
    (Command.record strict).HasSlots (Command.slots strict) where
  fields := rfl
  distinct := (by decide : ["aliases", "description", "args"].Nodup)
  take := by
    simp only [slots, List.forall_mem_cons, List.not_mem_nil, false_imp_iff, implies_true, and_true]
    exact ⟨fun _ _ => bind_pure_comp .., fun _ _ => bind_pure_comp .., fun _ _ => bind_pure_comp ..⟩
  get_set := by simp [slots]
  get_set_of_ne := by simp [slots]
  ext := by
    rintro ⟨aliases, description, args⟩ ⟨aliases', description', args'⟩ same
    simpa [slots] using same

/-- The fields of a dialect, as slots. -/
def Dialect.slots (strict : Bool) : List (Slot Dialect) :=
  [⟨"name", String, Tree.asText, Dialect.name, fun name dialect => { dialect with name := name }⟩,
    ⟨"types", List ValueType, Tree.asList (ValueType.record.read strict), Dialect.types,
      fun types dialect => { dialect with types := types }⟩,
    ⟨"commands", List Command, Tree.asList ((Command.record strict).read strict), Dialect.commands,
      fun commands dialect => { dialect with commands := commands }⟩]

theorem Dialect.hasSlots (strict : Bool) :
    (Dialect.record strict).HasSlots (Dialect.slots strict) where
  fields := rfl
  distinct := (by decide : ["name", "types", "commands"].Nodup)
  take := by
    simp only [slots, List.forall_mem_cons, List.not_mem_nil, false_imp_iff, implies_true, and_true]
    exact ⟨fun _ _ => bind_pure_comp .., fun _ _ => bind_pure_comp .., fun _ _ => bind_pure_comp ..⟩
  get_set := by simp [slots]
  get_set_of_ne := by simp [slots]
  ext := by
    rintro ⟨name, types, commands⟩ ⟨name', types', commands'⟩ same
    simpa [slots] using same

end Wordbook
