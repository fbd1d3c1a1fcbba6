import Wordbook.Proofs.Datum

/-!
# The tables that a TOML document lays out

A TOML document fills its tables piece by piece: by entries with dotted keys, and by headers with
entries below them.  This module says which table the pieces make, without building it.

## Main Definitions

* `Piece` — an entry or a header, with its place in a table
* `Piece.under` — the pieces under a key of a table, with their places there
* `Makes` — the pieces of a table make it
* `MakesItem` — the pieces under a key make its value

## Main Statements

* `makes_ofMember` — entries with keys of one part make the table of them

## Design Notes

The table is described key by key.  The pieces under a key are either one entry, which gives a
value; or entries that go deeper and then headers that do, which open a table without any header of
its own; or headers that go deeper, before and behind the one header of a table; or headers of
tables in a row, each with headers that go deeper behind it.

A table has all its entries under one header, or all in dotted keys at one place.  So entries never
come behind headers that go to the same table, and there is no case for a dotted key that leads into
a table with a header.
-/

namespace Wordbook.Toml

/-- What a piece puts at its place. -/
inductive Body where
  /-- A value. -/
  | value (v : Datum)
  /-- A table with entries, each under a dotted key. -/
  | table (entries : List (List String × Datum))
  /-- The next of a row of tables. -/
  | element (entries : List (List String × Datum))

/-- An entry or a header, with its place in a table. -/
structure Piece where
  /-- The way from the table to the place. -/
  keys : List String
  /-- What is there. -/
  body : Body

/-- A dotted key and its value as a piece. -/
def Piece.ofEntry (entry : List String × Datum) : Piece := ⟨entry.1, .value entry.2⟩

/-- The piece is an entry, not a header. -/
def Piece.IsEntry (piece : Piece) : Prop := ∃ v, piece.body = .value v

/-- The place of `piece` as it is seen from a `key` of the table, if the piece is there. -/
def Piece.under? (key : String) (piece : Piece) : Option Piece :=
  match piece.keys with
  | [] => none
  | first :: keys => if first = key then some ⟨keys, piece.body⟩ else none

/-- The pieces under a `key` of a table, with their places there. -/
def Piece.under (key : String) (pieces : List Piece) : List Piece :=
  pieces.filterMap (Piece.under? key)

theorem Piece.under_cons_self (key : String) (keys : List String) (body : Body)
    (more : List Piece) :
    under key (⟨key :: keys, body⟩ :: more) = ⟨keys, body⟩ :: under key more := by
  have here : (⟨key :: keys, body⟩ : Piece).under? key = some ⟨keys, body⟩ := if_pos rfl
  rw [under, List.filterMap_cons, here]
  rfl

theorem Piece.under_cons_of_ne {key first : String} (keys : List String) (body : Body)
    (more : List Piece) (differs : first ≠ key) :
    under key (⟨first :: keys, body⟩ :: more) = under key more := by
  have elsewhere : (⟨first :: keys, body⟩ : Piece).under? key = none := if_neg differs
  rw [under, List.filterMap_cons, elsewhere]
  rfl

mutual

/-- The `pieces` of a table make its members: each is under one of the keys, and those under a key
make its value. -/
inductive Makes : List Piece → List (String × Datum) → Prop
  | mk {pieces : List Piece} {members : List (String × Datum)}
    (placed : ∀ piece ∈ pieces, ∃ key ∈ members.map Prod.fst, piece.keys.head? = some key)
    (distinct : (members.map Prod.fst).Nodup)
    (items : ∀ member ∈ members, MakesItem (Piece.under member.1 pieces) member.2) :
    Makes pieces members

/-- The pieces under a key make its value. -/
inductive MakesItem : List Piece → Datum → Prop
  /-- An entry has a value. -/
  | value (v : Datum) : MakesItem [⟨[], .value v⟩] v
  /-- Entries, and headers behind them, make a table that has no header. -/
  | unheaded {entries headers : List Piece} {members : List (String × Datum)}
    (some : entries ++ headers ≠ []) (areEntries : ∀ piece ∈ entries, piece.IsEntry)
    (areHeaders : ∀ piece ∈ headers, ¬ piece.IsEntry) (made : Makes (entries ++ headers) members) :
    MakesItem (entries ++ headers) (.table members)
  /-- A header among others makes a table with the entries below it. -/
  | headed {front back : List Piece} {entries : List (List String × Datum)}
    {members : List (String × Datum)} (areHeaders : ∀ piece ∈ front ++ back, ¬ piece.IsEntry)
    (made : Makes (front ++ entries.map Piece.ofEntry ++ back) members) :
    MakesItem (front ++ ⟨[], .table entries⟩ :: back) (.table members)
  /-- Headers of tables in a row make these. -/
  | rows {pieces : List Piece} {elements : List Datum} (some : elements ≠ [])
    (made : MakesRows pieces elements) : MakesItem pieces (.list elements)

/-- Headers of tables in a row, each with headers behind it that go deeper, make the tables. -/
inductive MakesRows : List Piece → List Datum → Prop
  | nil : MakesRows [] []
  | cons {entries : List (List String × Datum)} {inside others : List Piece}
    {members : List (String × Datum)} {elements : List Datum}
    (areHeaders : ∀ piece ∈ inside, ¬ piece.IsEntry)
    (made : Makes (entries.map Piece.ofEntry ++ inside) members)
    (behind : MakesRows others elements) :
    MakesRows (⟨[], .element entries⟩ :: inside ++ others) (.table members :: elements)

end

/-- The piece of an entry with a key of one part. -/
def Piece.ofMember (member : String × Datum) : Piece := ⟨[member.1], .value member.2⟩

/-- The pieces under a `key` that come of entries with keys of one part are the `values` there. -/
theorem Piece.under_ofMember (key : String) (members : List (String × Datum)) :
    under key (members.map ofMember)
      = (Datum.values key members).map (fun v => ⟨[], .value v⟩) := by
  induction members with
  | nil => rfl
  | cons member more ih =>
    obtain ⟨name, v⟩ := member
    rw [List.map_cons, ofMember]
    by_cases same : name = key
    · subst same
      rw [under_cons_self, ih, Datum.values_cons_self, List.map_cons]
    · rw [under_cons_of_ne _ _ _ same, ih, Datum.values_cons_of_ne _ _ same]

/-- Entries with keys of one part make the table of them. -/
theorem makes_ofMember {members : List (String × Datum)} (distinct : (members.map Prod.fst).Nodup) :
    Makes (members.map Piece.ofMember) members := by
  refine .mk (fun piece inside => ?_) distinct (fun member inside => ?_)
  · obtain ⟨member, there, rfl⟩ := List.mem_map.mp inside
    exact ⟨member.1, List.mem_map_of_mem there, rfl⟩
  · rw [Piece.under_ofMember, Datum.values_eq_singleton distinct inside]
    exact .value member.2

end Wordbook.Toml
