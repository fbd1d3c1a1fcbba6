import Wordbook.Proofs.Toml.Reader

/-!
# Rows of tables put together

The tables that sections with headers add to a document: values under new keys, tables at the end
of a row, and tables at the end of a row inside the last table of another row.

## Main Definitions

* `valueMembers` — the members that entries become
* `rowMembers` — the member that tables in a row become
* `elementSections` — a section for each table of a row

## Main Statements

* `addEntries_plain` — entries with new keys come behind the members that are there
* `foldlM_elementSections` — the sections of a row add its tables
* `foldlM_elementSections_within` — sections with a longer path change the last table of a row
-/

namespace Wordbook.Toml

/-! ### Keys -/

/-- A key that is not in `front` is looked up in `back`. -/
theorem lookup_append_of_eq_none {front : Members} {key : String}
    (fresh : front.lookup key = none) (back : Members) :
    (front ++ back).lookup key = back.lookup key := by
  rw [List.lookup_append, fresh, Option.none_or]

/-- An item that is `put` takes the place of the first one under its key. -/
theorem put_append_of_eq_none {front : Members} {key : String} (fresh : front.lookup key = none)
    (old item : Item) (back : Members) :
    put (front ++ (key, old) :: back) key item = front ++ (key, item) :: back := by
  induction front with
  | nil => rw [List.nil_append, put, if_pos rfl, List.nil_append]
  | cons member more ih =>
    obtain ⟨other, met⟩ := member
    rw [List.lookup_eq_none_iff, List.forall_mem_cons] at fresh
    have differs : ¬ other = key := by
      intro equal
      exact bne_iff_ne.mp fresh.1 equal.symm
    have later := ih (List.lookup_eq_none_iff.mpr fresh.2)
    rw [List.cons_append, put, if_neg differs, later, List.cons_append]

/-! ### Values -/

/-- The members that entries become. -/
def valueMembers (entries : List (String × Content)) : Members :=
  entries.map (fun entry => (entry.1, .value entry.2.tree))

/-- An entry with a new key comes behind the members that are there. -/
theorem addEntry_of_eq_none {members : Members} {key : String}
    (fresh : members.lookup key = none) (value : Tree) :
    addEntry members [] key value = some (members ++ [(key, .value value)]) := by
  rw [addEntry, within, fresh]
  rfl

/-- Entries with new keys, each once, come behind the members that are there. -/
theorem addEntries_plain {members : Members} {entries : List (String × Tree)}
    (distinct : (entries.map Prod.fst).Nodup)
    (fresh : ∀ key ∈ entries.map Prod.fst, members.lookup key = none) :
    addEntries members (entries.map (fun entry => ⟨[], entry.1, entry.2⟩))
      = some (members ++ entries.map (fun entry => (entry.1, .value entry.2))) := by
  induction entries generalizing members with
  | nil => exact congrArg some (List.append_nil members).symm
  | cons entry more ih =>
    rw [List.map_cons, List.nodup_cons] at distinct
    rw [List.map_cons, List.forall_mem_cons] at fresh
    have first := addEntry_of_eq_none fresh.1 entry.2
    have later : ∀ key ∈ more.map Prod.fst,
        (members ++ [(entry.1, Item.value entry.2)]).lookup key = none := by
      intro key member
      have differs : key ≠ entry.1 := by
        rintro rfl
        exact distinct.1 member
      rw [lookup_append_of_eq_none (fresh.2 key member), List.lookup_cons,
        beq_eq_false_iff_ne.mpr differs]
      rfl
    have rest := ih distinct.2 later
    have split : addEntries members ((entry :: more).map (fun entry => ⟨[], entry.1, entry.2⟩))
        = (addEntry members [] entry.1 entry.2).bind
          (fun next => addEntries next (more.map (fun entry => ⟨[], entry.1, entry.2⟩))) := rfl
    rw [split, first, Option.bind_some, rest, List.append_assoc, List.singleton_append]
    rfl

/-- The entries that `Entry.ofContent` makes are such entries. -/
theorem addEntries_ofContent {members : Members} {entries : List (String × Content)}
    (distinct : (entries.map Prod.fst).Nodup)
    (fresh : ∀ key ∈ entries.map Prod.fst, members.lookup key = none) :
    addEntries members (entries.map Entry.ofContent) = some (members ++ valueMembers entries) := by
  have keys : (entries.map (fun entry => (entry.1, entry.2.tree))).map Prod.fst
      = entries.map Prod.fst := by
    rw [List.map_map]
    rfl
  have added := @addEntries_plain members (entries.map (fun entry => (entry.1, entry.2.tree)))
    (keys ▸ distinct) (keys ▸ fresh)
  rw [List.map_map, List.map_map] at added
  exact added

/-! ### Rows of tables -/

/-- The member that tables in a row become; a row without tables has none. -/
def rowMembers (key : String) (elements : List Members) : Members :=
  if elements.isEmpty then [] else [(key, .tables elements)]

theorem rowMembers_concat (key : String) (elements : List Members) (last : Members) :
    rowMembers key (elements ++ [last]) = [(key, .tables (elements ++ [last]))] := by
  have some : (elements ++ [last]).isEmpty = false := by cases elements <;> rfl
  rw [rowMembers, some, if_neg Bool.false_ne_true]

/-- A header adds its table at the end of the row. -/
theorem openElement_rowMembers {front filled : Members} {key : String} {entries : List Entry}
    (fresh : front.lookup key = none) (made : addEntries [] entries = some filled)
    (elements : List Members) :
    openElement (front ++ rowMembers key elements) [] key entries
      = some (front ++ rowMembers key (elements ++ [filled])) := by
  rw [openElement, within, lookup_append_of_eq_none fresh, made, rowMembers_concat]
  cases elements with
  | nil =>
    have none : rowMembers key [] = [] := rfl
    rw [none, List.lookup_nil, List.append_nil]
    rfl
  | cons first more =>
    have row : rowMembers key (first :: more) = [(key, .tables (first :: more))] := rfl
    rw [row, List.lookup_cons_self]
    exact congrArg some (put_append_of_eq_none fresh _ _ [])

/-- A header with a longer path changes the last table of a row. -/
theorem openElement_within {front : Members} {key : String} (fresh : front.lookup key = none)
    (elements : List Members) (last : Members) (path : List String) (other : String)
    (entries : List Entry) :
    openElement (front ++ rowMembers key (elements ++ [last])) (key :: path) other entries
      = (openElement last path other entries).map
        (fun inner => front ++ rowMembers key (elements ++ [inner])) := by
  simp only [rowMembers_concat]
  unfold openElement
  rw [within, lookup_append_of_eq_none fresh, List.lookup_cons_self]
  simp only [List.getLast?_concat, List.dropLast_concat, put_append_of_eq_none fresh,
    Option.bind_eq_bind, Option.bind_some]
  rw [Option.map_eq_bind]
  rfl

/-! ### Sections -/

/-- A section for each table of a row. -/
def elementSections (path : List String) (key : String) (rows : List (List (String × Content))) :
    List Section :=
  rows.map (fun entries => ⟨.element path key, entries.map Entry.ofContent⟩)

/-- The `elementSections` of a row add its tables to the row. -/
theorem foldlM_elementSections {front : Members} {key : String} (fresh : front.lookup key = none)
    {rows : List (List (String × Content))} (distinct : ∀ row ∈ rows, (row.map Prod.fst).Nodup)
    (elements : List Members) :
    (elementSections [] key rows).foldlM addSection (front ++ rowMembers key elements)
      = some (front ++ rowMembers key (elements ++ rows.map valueMembers)) := by
  induction rows generalizing elements with
  | nil => rw [List.map_nil, List.append_nil]; rfl
  | cons row more ih =>
    rw [List.forall_mem_cons] at distinct
    have made : addEntries [] (row.map Entry.ofContent) = some ([] ++ valueMembers row) :=
      addEntries_ofContent distinct.1 (fun _ _ => rfl)
    have opened := openElement_rowMembers fresh made elements
    have rest := ih distinct.2 (elements ++ [valueMembers row])
    have split : (elementSections [] key (row :: more)).foldlM addSection
          (front ++ rowMembers key elements)
        = (openElement (front ++ rowMembers key elements) [] key (row.map Entry.ofContent)).bind
          (fun next => (elementSections [] key more).foldlM addSection next) := rfl
    rw [split, opened, Option.bind_some, List.nil_append, rest, List.append_assoc,
      List.singleton_append, List.map_cons]

/-- Sections with a longer path do to the last table of a row what those with the shorter path do to
a table by itself. -/
theorem foldlM_elementSections_within {front : Members} {key : String}
    (fresh : front.lookup key = none) (elements : List Members) (last : Members)
    (path : List String) (other : String) (rows : List (List (String × Content))) :
    (elementSections (key :: path) other rows).foldlM addSection
        (front ++ rowMembers key (elements ++ [last]))
      = ((elementSections path other rows).foldlM addSection last).map
        (fun inner => front ++ rowMembers key (elements ++ [inner])) := by
  induction rows generalizing last with
  | nil => rfl
  | cons row more ih =>
    have long : (elementSections (key :: path) other (row :: more)).foldlM addSection
          (front ++ rowMembers key (elements ++ [last]))
        = (openElement (front ++ rowMembers key (elements ++ [last])) (key :: path) other
            (row.map Entry.ofContent)).bind
          (fun next => (elementSections (key :: path) other more).foldlM addSection next) := rfl
    have short : (elementSections path other (row :: more)).foldlM addSection last
        = (openElement last path other (row.map Entry.ofContent)).bind
          (fun next => (elementSections path other more).foldlM addSection next) := rfl
    rw [long, short, openElement_within fresh]
    cases openElement last path other (row.map Entry.ofContent) with
    | none => rfl
    | some inner => exact ih inner

/-! ### Trees -/

theorem memberTrees_append (front back : Members) :
    memberTrees (front ++ back) = memberTrees front ++ memberTrees back := by
  induction front with
  | nil => rfl
  | cons member more ih =>
    rw [List.cons_append, memberTrees, ih, memberTrees, List.cons_append]

theorem memberTrees_valueMembers (entries : List (String × Content)) :
    memberTrees (valueMembers entries)
      = entries.map (fun entry => (some entry.1, entry.2.tree)) := by
  induction entries with
  | nil => rfl
  | cons entry more ih =>
    rw [List.map_cons, ← ih]
    rfl

theorem elementTrees_eq_map (elements : List Members) :
    elementTrees elements = elements.map (fun members => .table (memberTrees members) true) := by
  induction elements with
  | nil => rfl
  | cons members more ih => rw [elementTrees, ih, List.map_cons]

end Wordbook.Toml
