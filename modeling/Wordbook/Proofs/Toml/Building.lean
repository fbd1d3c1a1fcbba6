import Wordbook.Proofs.Toml.Placing

/-!
# The tables that pieces make are built

Pieces that make a table are changes of an empty table which all succeed, one after the other, and
what comes of it holds the table that they make.

## Main Definitions

* `Change.StandsFor` — a change stands for a piece
* `HoldsTable` — a table under construction holds the members of a table

## Main Statements

* `Makes.exists_run` — pieces that make a table are built up to it

## Design Notes

The proof follows the rules for pieces: what is under one key is built by the changes that go there,
whatever the others do (`run_of_turnsAll`), and these are the changes of a table of their own.
-/

namespace Wordbook.Toml

/-! ### Pieces as the reader has them -/

/-- The `entry` that is read stands for what is `said`: a dotted key and its value. -/
def Entry.StandsFor (entry : Entry) (said : List String × Datum) : Prop :=
  entry.path ++ [entry.key] = said.1 ∧ entry.value.Keeps said.2

/-- What a `Load` puts at its place is what a `Body` puts there. -/
inductive Load.StandsFor : Load → Body → Prop
  | value {t : Tree} {v : Datum} (holds : Tree.Holds t v) : StandsFor (.value t) (.value v)
  | table {entries : List Entry} {said : List (List String × Datum)}
    (same : List.Forall₂ Entry.StandsFor entries said) :
    StandsFor (.table entries) (.table said)
  | element {entries : List Entry} {said : List (List String × Datum)}
    (same : List.Forall₂ Entry.StandsFor entries said) :
    StandsFor (.element entries) (.element said)

/-- The `change` stands for the `piece`. -/
structure Change.StandsFor (change : Change) (piece : Piece) : Prop where
  /-- They have one place. -/
  place : change.path ++ [change.key] = piece.keys
  /-- They put the same there. -/
  load : change.load.StandsFor piece.body

/-- The `change` of a table stands for a `piece` that is seen from a `key` of the table. -/
def Change.StandsUnder (key : String) (change : Change) (piece : Piece) : Prop :=
  change.StandsFor ⟨key :: piece.keys, piece.body⟩

/-- Entries open tables by dotted keys, headers do not: this is `Load.missing`. -/
theorem Load.StandsFor.missing_eq {load : Load} {piece : Piece}
    (stands : load.StandsFor piece.body) :
    (piece.IsEntry → load.missing = .dotted) ∧ (¬ piece.IsEntry → load.missing = .implicit) := by
  rw [Piece.IsEntry]
  generalize piece.body = body at stands
  cases stands with
  | value _ => exact ⟨fun _ => rfl, fun header => absurd ⟨_, rfl⟩ header⟩
  | table _ => exact ⟨nofun, fun _ => rfl⟩
  | element _ => exact ⟨nofun, fun _ => rfl⟩

theorem missing_eq_implicit {changes : List Change} {pieces : List Piece}
    (stands : List.Forall₂ Change.StandsFor changes pieces)
    (areHeaders : ∀ piece ∈ pieces, ¬ piece.IsEntry) :
    ∀ change ∈ changes, change.load.missing = .implicit := by
  induction stands with
  | nil => exact fun _ inside => absurd inside List.not_mem_nil
  | cons first _ ih =>
    rw [List.forall_mem_cons] at areHeaders ⊢
    exact ⟨first.load.missing_eq.2 areHeaders.1, ih areHeaders.2⟩

/-- The changes of a `key` stand for the pieces under it, by `Piece.under`. -/
theorem forall₂_under {changes : List Change} {pieces : List Piece}
    (stands : List.Forall₂ Change.StandsFor changes pieces) (key : String) :
    List.Forall₂ (Change.StandsUnder key)
      (changes.filter (fun change => change.first = key)) (Piece.under key pieces) := by
  induction stands with
  | nil => exact .nil
  | @cons change piece changes pieces first others ih =>
    obtain ⟨path, name, load⟩ := change
    obtain ⟨keys, body⟩ := piece
    obtain ⟨place, same⟩ := first
    -- Both lists begin with the same key, and what is behind it is the place under that key.
    obtain ⟨front, rest, rfl, starts⟩ : ∃ front rest, keys = front :: rest
        ∧ (⟨path, name, load⟩ : Change).first = front := by
      cases path with
      | nil => exact ⟨name, [], place.symm, rfl⟩
      | cons front path => exact ⟨front, path ++ [name], place.symm, rfl⟩
    by_cases here : front = key
    · subst here
      rw [List.filter_cons, if_pos (decide_eq_true starts), Piece.under_cons_self]
      exact .cons ⟨place, same⟩ ih
    · have other : ¬ decide ((⟨path, name, load⟩ : Change).first = key) = true := by
        rw [decide_eq_true_eq, starts]
        exact here
      rw [List.filter_cons, if_neg other, Piece.under_cons_of_ne rest body pieces here]
      exact ih

/-- Changes for pieces that go deeper than `key` are changes of the table under it, by
`Change.nest`. -/
theorem exists_nest {key : String} {changes : List Change} {pieces : List Piece}
    (stands : List.Forall₂ (Change.StandsUnder key) changes pieces)
    (deeper : ∀ piece ∈ pieces, piece.keys ≠ []) :
    ∃ inside, changes = inside.map (Change.nest key)
      ∧ List.Forall₂ Change.StandsFor inside pieces := by
  induction stands with
  | nil => exact ⟨[], rfl, .nil⟩
  | @cons change piece changes pieces first others ih =>
    rw [List.forall_mem_cons] at deeper
    obtain ⟨inside, rfl, same⟩ := ih deeper.2
    obtain ⟨path, name, load⟩ := change
    obtain ⟨place, put⟩ := first
    cases path with
    | nil => exact absurd (List.cons.inj place).2.symm deeper.1
    | cons front path =>
      obtain ⟨rfl, rest⟩ := List.cons.inj place
      exact ⟨⟨path, name, load⟩ :: inside, rfl, .cons ⟨rest, put⟩ same⟩

/-- A change for a piece at `key` itself has no way to go. -/
theorem eq_of_standsUnder_nil {key : String} {change : Change} {body : Body}
    (stands : change.StandsUnder key ⟨[], body⟩) :
    ∃ load, change = ⟨[], key, load⟩ ∧ load.StandsFor body := by
  obtain ⟨path, name, load⟩ := change
  obtain ⟨place, put⟩ := stands
  cases path with
  | nil =>
    obtain ⟨rfl, -⟩ := List.cons.inj place
    exact ⟨load, rfl, put⟩
  | cons front path => exact absurd (List.cons.inj place).2 (by simp)

theorem forall₂_ofEntry {entries : List Entry} {said : List (List String × Datum)}
    (stands : List.Forall₂ Entry.StandsFor entries said) :
    List.Forall₂ Change.StandsFor (entries.map Change.ofEntry) (said.map Piece.ofEntry) := by
  rw [List.forall₂_map_left_iff, List.forall₂_map_right_iff]
  exact stands.imp (fun _ _ same => ⟨same.1, .value same.2.holds⟩)

namespace Makes

variable {pieces : List Piece} {members : List (String × Datum)}

theorem distinct (made : Makes pieces members) : (members.map Prod.fst).Nodup := by
  obtain ⟨-, distinct, -⟩ := made
  exact distinct

theorem item (made : Makes pieces members) :
    ∀ member ∈ members, MakesItem (Piece.under member.1 pieces) member.2 := by
  obtain ⟨-, -, items⟩ := made
  exact items

/-- A piece of a table that is made has a place. -/
theorem keys_ne_nil (made : Makes pieces members) : ∀ piece ∈ pieces, piece.keys ≠ [] := by
  obtain ⟨placed, -, -⟩ := made
  intro piece inside none
  obtain ⟨_, -, head⟩ := placed piece inside
  rw [none] at head
  cases head

/-- No piece goes to a `key` that the table does not have. -/
theorem under_eq_nil (made : Makes pieces members) {key : String}
    (unknown : key ∉ members.map Prod.fst) : Piece.under key pieces = [] := by
  obtain ⟨placed, -, -⟩ := made
  rw [Piece.under, List.filterMap_eq_nil_iff]
  intro piece inside
  obtain ⟨other, known, head⟩ := placed piece inside
  obtain ⟨keys, body⟩ := piece
  obtain ⟨rest, rfl⟩ := List.head?_eq_some_iff.mp head
  exact if_neg (fun same : other = key => unknown (same ▸ known))

end Makes

/-! ### Tables that hold what is made -/

/-- The table `built` so far holds the `members` of a table, in some order. -/
def HoldsTable (built : Members) (members : List (String × Datum)) : Prop :=
  ∃ inOrder : List (String × Datum), Tree.HoldMembers (memberTrees built) inOrder
    ∧ inOrder.Perm members

/-- A table holds `members` if each of its items holds the value of its key. -/
theorem holdsTable_of_lookup {built : Members} {members : List (String × Datum)}
    (distinct : (built.map Prod.fst).Nodup) (distinct' : (members.map Prod.fst).Nodup)
    (holds : ∀ member ∈ members, ∃ item, built.lookup member.1 = some item
      ∧ Tree.Holds item.tree member.2)
    (only : ∀ key, key ∉ members.map Prod.fst → built.lookup key = none) :
    HoldsTable built members := by
  -- The data of the members, in the order of the table under construction.
  have inOrder : ∀ items : Members, (∀ item ∈ items, ∃ v, (item.1, v) ∈ members
      ∧ Tree.Holds item.2.tree v) → ∃ data : List (String × Datum),
      Tree.HoldMembers (memberTrees items) data ∧ data.map Prod.fst = items.map Prod.fst
        ∧ ∀ member ∈ data, member ∈ members := by
    intro items
    induction items with
    | nil => exact fun _ => ⟨[], .nil, rfl, fun _ inside => absurd inside List.not_mem_nil⟩
    | cons item more ih =>
      intro found
      rw [List.forall_mem_cons] at found
      obtain ⟨⟨v, inside, here⟩, others⟩ := found
      obtain ⟨data, held, keys, among⟩ := ih others
      refine ⟨(item.1, v) :: data, .cons item.1 here held, ?_,
        List.forall_mem_cons.mpr ⟨inside, among⟩⟩
      rw [List.map_cons, List.map_cons, keys]
  have found : ∀ item ∈ built, ∃ v, (item.1, v) ∈ members ∧ Tree.Holds item.2.tree v := by
    rintro ⟨key, item⟩ inside
    have there : built.lookup key = some item := (lookup_eq_some_iff_mem distinct).mpr inside
    by_cases known : key ∈ members.map Prod.fst
    · obtain ⟨⟨_, v⟩, member, rfl⟩ := List.mem_map.mp known
      obtain ⟨_, same, held⟩ := holds _ member
      rw [there] at same
      cases same
      exact ⟨v, member, held⟩
    · rw [only key known] at there
      cases there
  obtain ⟨data, held, keys, among⟩ := inOrder built found
  refine ⟨data, held, ?_⟩
  have distinctData : (data.map Prod.fst).Nodup := keys ▸ distinct
  rw [List.perm_ext_iff_of_nodup distinctData.of_map distinct'.of_map]
  refine fun member => ⟨among member, fun inside => ?_⟩
  -- A name has one value on either side, so the one that is there is the one that is meant.
  obtain ⟨item, there, -⟩ := holds member inside
  have known : member.1 ∈ data.map Prod.fst := by
    rw [keys]
    exact List.mem_map_of_mem ((lookup_eq_some_iff_mem distinct).mp there)
  obtain ⟨met, here, same⟩ := List.mem_map.mp known
  rwa [← List.inj_on_of_nodup_map distinct' (among met here) inside same]

/-! ### Building -/

theorem holds_table {built : Members} {members : List (String × Datum)}
    (held : HoldsTable built members) :
    Tree.Holds (.table (memberTrees built) true) (.table members) := by
  obtain ⟨inOrder, holds, perm⟩ := held
  exact .table holds perm

theorem exists_append_of_forall₂ {α β : Type} {R : α → β → Prop} {all : List α}
    {front back : List β} (related : List.Forall₂ R all (front ++ back)) :
    ∃ first last, all = first ++ last ∧ List.Forall₂ R first front ∧ List.Forall₂ R last back :=
  ⟨_, _, (List.take_append_drop front.length all).symm, List.forall₂_take_append _ _ _ related,
    List.forall₂_drop_append _ _ _ related⟩

/-- Tables in a row as an item; without any there is none. -/
def rowItem (rows : List Members) : Option Item := if rows = [] then none else some (.tables rows)

theorem rowItem_concat (rows : List Members) (last : Members) :
    rowItem (rows ++ [last]) = some (.tables (rows ++ [last])) := if_neg (by simp)

/-- A header of a row puts its table behind the others. -/
theorem turns_rowItem (key : String) (rows : List Members) {entries : List Entry}
    {filled : Members} (made : addEntries [] entries = some filled) :
    Change.Turns ⟨[], key, .element entries⟩ (rowItem rows) (.tables (rows ++ [filled])) := by
  by_cases none : rows = []
  · subst none
    exact .element key made
  · rw [rowItem, if_neg none]
    exact .next key rows made

/-- The header of a table fills what headers that go deeper have left, if there are any. -/
theorem turnsAll_fill (key : String) {inside : List Change} {entries : List Entry}
    {old filled : Members} (headers : ∀ change ∈ inside, change.load.missing = .implicit)
    (before : run [] inside = some old) (made : addEntries old entries = some filled) :
    TurnsAll none (inside.map (Change.nest key) ++ [⟨[], key, .table entries⟩])
      (some (.table .explicit filled)) := by
  cases inside with
  | nil =>
    cases before
    exact .cons (.table key made) (.nil _)
  | cons change more =>
    rw [List.forall_mem_cons] at headers
    have opened := turnsAll_nest_new key (fun later member dotted => absurd
      ((headers.2 later member).symm.trans dotted) nofun) before
    rw [headers.1] at opened
    exact opened.append (.cons (.fill key made) (.nil _))

theorem sizeOf_snd_lt {members : List (String × Datum)} {member : String × Datum}
    (inside : member ∈ members) : sizeOf member.2 < sizeOf members := by
  have whole := List.sizeOf_lt_of_mem inside
  have part : sizeOf member.2 < sizeOf member := by
    cases member
    simp only [Prod.mk.sizeOf_spec]
    omega
  omega

mutual

/-- The changes that stand for pieces that make `members` are `run` from the empty table to one that
holds `members`. -/
theorem Makes.exists_run {pieces : List Piece} {members : List (String × Datum)}
    (made : Makes pieces members) {changes : List Change}
    (stands : List.Forall₂ Change.StandsFor changes pieces) :
    ∃ built, run [] changes = some built ∧ HoldsTable built members := by
  have turns : ∀ key, ∃ item?, TurnsAll none
      (changes.filter (fun change => change.first = key)) item?
        ∧ (∀ v, (key, v) ∈ members → ∃ item, item? = some item ∧ Tree.Holds item.tree v)
        ∧ (key ∉ members.map Prod.fst → item? = none) := by
    intro key
    have under := forall₂_under stands key
    by_cases known : key ∈ members.map Prod.fst
    · obtain ⟨met, member, rfl⟩ := List.mem_map.mp known
      obtain ⟨item, turned, held⟩ := (made.item met member).turns under
      refine ⟨some item, turned, fun w member' => ⟨item, rfl, ?_⟩,
        fun unknown => absurd known unknown⟩
      have same := List.inj_on_of_nodup_map made.distinct member member' rfl
      rwa [same] at held
    · rw [made.under_eq_nil known, List.forall₂_nil_right_iff] at under
      rw [under]
      exact ⟨_, .nil _, fun v member => absurd (List.mem_map_of_mem member) known, fun _ => rfl⟩
  choose items turned found missing using turns
  obtain ⟨built, ran, looked, keys⟩ := @run_of_turnsAll [] _ _ turned List.nodup_nil
  refine ⟨built, ran, holdsTable_of_lookup keys made.distinct (fun member inside => ?_)
    (fun key unknown => (looked key).trans (missing key unknown))⟩
  obtain ⟨item, there, held⟩ := found member.1 member.2 inside
  exact ⟨item, (looked member.1).trans there, held⟩
termination_by sizeOf members
decreasing_by exact sizeOf_snd_lt member

/-- The changes that stand for pieces that make `v` turn no item into one that holds `v`. -/
theorem MakesItem.turns {pieces : List Piece} {v : Datum} (made : MakesItem pieces v)
    {key : String} {changes : List Change}
    (stands : List.Forall₂ (Change.StandsUnder key) changes pieces) :
    ∃ item, TurnsAll none changes (some item) ∧ Tree.Holds item.tree v := by
  cases made with
  | value =>
    obtain ⟨change, _, first, others, rfl⟩ := List.forall₂_cons_right_iff.mp stands
    obtain rfl := List.forall₂_nil_right_iff.mp others
    obtain ⟨load, rfl, put⟩ := eq_of_standsUnder_nil first
    cases put with
    | @value t _ holds => exact ⟨.value t, .cons (.value key t) (.nil _), holds⟩
  | @unheaded entries headers members nonempty areEntries areHeaders made =>
    obtain ⟨inside, rfl, same⟩ := exists_nest stands made.keys_ne_nil
    obtain ⟨built, ran, held⟩ := made.exists_run same
    cases inside with
    | nil => exact absurd (List.forall₂_nil_left_iff.mp same) nonempty
    | cons change more =>
      -- Where the first change is a header, all are.
      have reach : ∀ later ∈ more, later.load.missing = .dotted →
          change.load.missing = .dotted := by
        cases entries with
        | nil =>
          have implicit := missing_eq_implicit same areHeaders
          intro later member dotted
          rw [implicit later (List.mem_cons_of_mem _ member)] at dotted
          cases dotted
        | cons entry others =>
          obtain ⟨first, -⟩ := List.forall₂_cons.mp same
          exact fun _ _ _ => first.load.missing_eq.1 (areEntries entry List.mem_cons_self)
      exact ⟨.table change.load.missing built, turnsAll_nest_new key reach ran, holds_table held⟩
  | @headed front back entries members areHeaders made =>
    have deeper := made.keys_ne_nil
    simp only [List.forall_mem_append] at deeper areHeaders
    obtain ⟨_, _, rfl, before, rest⟩ := exists_append_of_forall₂ stands
    obtain ⟨change, _, own, behind, rfl⟩ := List.forall₂_cons_right_iff.mp rest
    obtain ⟨first, rfl, sameFirst⟩ := exists_nest before deeper.1.1
    obtain ⟨last, rfl, sameLast⟩ := exists_nest behind deeper.2
    obtain ⟨load, rfl, put⟩ := eq_of_standsUnder_nil own
    cases put with
    | @table entries' _ same =>
      have inOrder := List.rel_append (List.rel_append sameFirst (forall₂_ofEntry same)) sameLast
      obtain ⟨built, ran, held⟩ := made.exists_run inOrder
      rw [run_append, run_append] at ran
      obtain ⟨filled, ran, atLast⟩ := Option.bind_eq_some_iff.mp ran
      obtain ⟨old, atFirst, made'⟩ := Option.bind_eq_some_iff.mp ran
      rw [run_ofEntry] at made'
      have filledIn := turnsAll_fill key (missing_eq_implicit sameFirst areHeaders.1) atFirst made'
      have goesOn : TurnsAll (some (.table .explicit filled)) (last.map (Change.nest key))
          (some (.table .explicit built)) := by
        refine turnsAll_nest key (fun later member dotted => ?_) atLast
        rw [missing_eq_implicit sameLast areHeaders.2 later member] at dotted
        cases dotted
      have all := filledIn.append goesOn
      rw [List.append_assoc, List.singleton_append] at all
      exact ⟨.table .explicit built, all, holds_table held⟩
  | @rows _ elements nonempty made =>
    obtain ⟨rows, turned, held⟩ := made.turns stands []
    have notEmpty : rows ≠ [] := by
      rintro rfl
      exact nonempty (List.forall₂_nil_left_iff.mp held)
    have begins : rowItem [] = none := if_pos rfl
    have ends : rowItem rows = some (.tables rows) := if_neg notEmpty
    rw [List.nil_append, begins, ends] at turned
    exact ⟨.tables rows, turned, .rows held⟩
termination_by sizeOf v

/-- The changes that stand for pieces that make `elements` put tables for them behind the `rows`
there are. -/
theorem MakesRows.turns {pieces : List Piece} {elements : List Datum}
    (made : MakesRows pieces elements) {key : String} {changes : List Change}
    (stands : List.Forall₂ (Change.StandsUnder key) changes pieces) (rows : List Members) :
    ∃ more, TurnsAll (rowItem rows) changes (rowItem (rows ++ more))
      ∧ List.Forall₂ Tree.Holds (elementTrees more) elements := by
  cases made with
  | nil =>
    obtain rfl := List.forall₂_nil_right_iff.mp stands
    exact ⟨[], by rw [List.append_nil]; exact .nil _, .nil⟩
  | @cons entries inside others members elements areHeaders made behind =>
    have deeper := made.keys_ne_nil
    rw [List.forall_mem_append] at deeper
    obtain ⟨_, _, rfl, here, later⟩ := exists_append_of_forall₂ stands
    obtain ⟨change, _, own, nested, rfl⟩ := List.forall₂_cons_right_iff.mp here
    obtain ⟨changes, rfl, same⟩ := exists_nest nested deeper.2
    obtain ⟨load, rfl, put⟩ := eq_of_standsUnder_nil own
    cases put with
    | @element entries' _ sameEntries =>
      have inOrder := List.rel_append (forall₂_ofEntry sameEntries) same
      obtain ⟨built, ran, held⟩ := made.exists_run inOrder
      rw [run_append, run_ofEntry] at ran
      obtain ⟨filled, made', ran⟩ := Option.bind_eq_some_iff.mp ran
      have goesOn := turnsAll_nest_last key rows (missing_eq_implicit same areHeaders) ran
      obtain ⟨more, turned, holds⟩ := behind.turns later (rows ++ [built])
      rw [rowItem_concat, List.append_assoc, List.singleton_append] at turned
      exact ⟨built :: more, .cons (turns_rowItem key rows made') (goesOn.append turned),
        .cons (holds_table held) holds⟩
termination_by sizeOf elements

end

end Wordbook.Toml
