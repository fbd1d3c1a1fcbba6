import Mathlib.Data.Set.List
import Wordbook.Proofs.Json.Number
import Wordbook.Proofs.Toml.Reading
import Wordbook.Proofs.Toml.Tables

/-!
# Documents of scalars

A document may denote a table that has only texts and natural numbers in it.  Then it has an entry
for each of them and no header, and what is read of it is the table itself, with the members in the
order of the entries.

## Main Definitions

* `flat` — the members of a table of scalars, as data
* `flatTree` — the table as it is read

## Main Statements

* `Makes.exists_flat` — only their own entries make a table of scalars
* `DocumentText.of_flat` — a document of such entries keeps to any limit
* `read_of_denotes_flat` — a document that denotes a table of scalars is read as that table
* `exists_denotes_flat` — every table of scalars has a document

## Design Notes

Here it is not enough that the tree holds the datum, since a tree that holds a number may have any
other in its place.  What is read of a value keeps scalars as they are (`Tree.Keeps`), and without
headers and dotted keys nothing else happens to them.
-/

namespace Wordbook.Toml

open Wordbook.Text

/-- The members of a table of scalars, as data. -/
def flat (members : List (String × Scalar)) : List (String × Datum) :=
  members.map (fun member => (member.1, member.2.datum))

/-- The entry of a scalar. -/
def flatEntry (member : String × Scalar) : List String × Datum := ([member.1], member.2.datum)

/-- The tree of a table of scalars. -/
def flatTree (members : List (String × Scalar)) : Tree :=
  .table (members.map (fun member => (some member.1, member.2.tree))) true

variable {members inOrder : List (String × Scalar)}

theorem map_fst_flat (members : List (String × Scalar)) :
    (flat members).map Prod.fst = members.map Prod.fst := by
  rw [flat, List.map_map]
  rfl

theorem flat_member_injective :
    Function.Injective (fun member : String × Scalar => (member.1, member.2.datum)) := by
  rintro ⟨key, scalar⟩ ⟨key', scalar'⟩ same
  obtain ⟨keys, data⟩ := Prod.mk.inj same
  exact Prod.ext keys (Scalar.datum_injective data)

/-! ### Pieces -/

open Classical in
/-- Tables that have the same `values` under every key have the same members in some order. -/
theorem perm_of_values_eq {members others : List (String × Datum)}
    (same : ∀ key, Datum.values key members = Datum.values key others) : members.Perm others := by
  have counted : ∀ (all : List (String × Datum)) key v,
      all.count (key, v) = (Datum.values key all).count v := by
    intro all key v
    induction all with
    | nil => rfl
    | cons member more ih =>
      obtain ⟨name, w⟩ := member
      by_cases named : name = key
      · subst named
        rw [Datum.values_cons_self, List.count_cons, List.count_cons, ih]
        simp
      · rw [Datum.values_cons_of_ne w more named, List.count_cons, ih]
        simp [named]
  rw [List.perm_iff_count]
  rintro ⟨key, v⟩
  rw [counted, counted, same key]

/-- What makes a scalar is one entry with it as its value. -/
theorem MakesItem.eq_of_scalar {pieces : List Piece} {v : Datum} (made : MakesItem pieces v)
    {scalar : Scalar} (same : v = scalar.datum) : pieces = [⟨[], .value v⟩] := by
  cases made with
  | value v => rfl
  | unheaded _ _ _ _ => cases scalar <;> cases same
  | headed _ _ => cases scalar <;> cases same
  | rows _ _ => cases scalar <;> cases same

/-- The piece of a scalar with a key of one part. -/
def Piece.ofScalar (member : String × Scalar) : Piece := ⟨[member.1], .value member.2.datum⟩

/-- Each piece that makes a table of scalars is the entry of one of them. -/
theorem Makes.exists_ofScalar {pieces : List Piece} (made : Makes pieces (flat members)) :
    ∀ piece ∈ pieces, piece ∈ Set.range Piece.ofScalar := by
  obtain ⟨placed, -, items⟩ := made
  rintro ⟨keys, body⟩ inside
  obtain ⟨key, known, head⟩ := placed _ inside
  obtain ⟨_, there, rfl⟩ := List.mem_map.mp known
  obtain ⟨member, -, rfl⟩ := List.mem_map.mp there
  obtain ⟨rest, rfl⟩ := List.head?_eq_some_iff.mp head
  have single := (items _ there).eq_of_scalar rfl
  have seen : (⟨rest, body⟩ : Piece) ∈ Piece.under member.1 pieces :=
    List.mem_filterMap.mpr ⟨_, inside, if_pos rfl⟩
  rw [single, List.mem_singleton] at seen
  obtain ⟨rfl, rfl⟩ := Piece.mk.inj seen
  exact ⟨member, rfl⟩

/-- The pieces that make a table of scalars are its own entries, in any order. -/
theorem Makes.exists_flat {pieces : List Piece} (made : Makes pieces (flat members)) :
    ∃ inOrder : List (String × Scalar), inOrder.Perm members
      ∧ pieces = (flat inOrder).map Piece.ofMember := by
  have listed : pieces ∈ Set.range (List.map Piece.ofScalar) := by
    rw [Set.range_list_map]
    exact made.exists_ofScalar
  obtain ⟨inOrder, whole⟩ := listed
  have split : pieces = (flat inOrder).map Piece.ofMember := by
    rw [← whole, flat, List.map_map]
    rfl
  refine ⟨inOrder, ?_, split⟩
  rw [← List.map_perm_map_iff flat_member_injective]
  refine perm_of_values_eq (fun key => ?_)
  have under := Piece.under_ofMember key (flat inOrder)
  rw [← split] at under
  -- Under a key of the table there is the one entry that makes its value, and no entry elsewhere.
  have made' : Piece.under key pieces
      = (Datum.values key (flat members)).map (fun v => ⟨[], .value v⟩) := by
    by_cases known : key ∈ (flat members).map Prod.fst
    · obtain ⟨member, there, rfl⟩ := List.mem_map.mp known
      obtain ⟨_, -, rfl⟩ := List.mem_map.mp there
      rw [(made.item _ there).eq_of_scalar rfl, Datum.values_eq_singleton made.distinct there,
        List.map_singleton]
    · rw [made.under_eq_nil known, Datum.values_eq_nil known, List.map_nil]
  refine List.map_injective_iff.mpr (fun v w same => ?_) (under.symm.trans made')
  exact Body.value.inj (Piece.mk.inj same).2

/-! ### Lines -/

/-- The text of a scalar keeps to any limit, at any depth. -/
theorem ValueText.of_scalar {limit depth : Nat} {v : Datum} {cs : List Char}
    (spelled : ValueText limit depth v cs) {scalar : Scalar} (same : v = scalar.datum)
    (limit' depth' : Nat) : ValueText limit' depth' v cs := by
  cases spelled with
  | text spelled => exact .text spelled
  | integer spelled fits => exact .integer spelled fits
  | yes => exact .yes
  | no => exact .no
  | list _ => cases scalar <;> cases same
  | emptyTable _ => cases scalar <;> cases same
  | table _ _ => cases scalar <;> cases same

/-- The headers that `gather` leaves in their places are no entries. -/
theorem not_isEntry_of_gather {lines : List Line} :
    ∀ piece ∈ (gather lines).2, ¬ piece.IsEntry := by
  induction lines with
  | nil => exact fun _ inside => absurd inside List.not_mem_nil
  | cons line more ih =>
    cases line with
    | blank => exact ih
    | entry _ => exact ih
    | table _ => exact List.forall_mem_cons.mpr ⟨by rintro ⟨_, ⟨⟩⟩, ih⟩
    | element _ => exact List.forall_mem_cons.mpr ⟨by rintro ⟨_, ⟨⟩⟩, ih⟩

/-- The line says nothing, or it has the entry of a scalar. -/
inductive Line.IsFlat : Line → Prop
  | blank : IsFlat .blank
  | entry (member : String × Scalar) : IsFlat (.entry (flatEntry member))

/-- Where `gather` finds the pieces of a table of scalars, there are no headers, and the entries are
those of the scalars. -/
theorem gather_of_flat {lines : List Line}
    (split : (gather lines).1.map Piece.ofEntry ++ (gather lines).2
      = (flat inOrder).map Piece.ofMember) :
    (gather lines).1 = inOrder.map flatEntry ∧ (gather lines).2 = [] := by
  have noHeader : (gather lines).2 = [] := by
    refine List.eq_nil_iff_forall_not_mem.mpr (fun piece inside => ?_)
    have among : piece ∈ (flat inOrder).map Piece.ofMember := by
      rw [← split]
      exact List.mem_append_right _ inside
    obtain ⟨member, -, rfl⟩ := List.mem_map.mp among
    exact not_isEntry_of_gather _ inside ⟨_, rfl⟩
  refine ⟨?_, noHeader⟩
  have entries :
      (gather lines).1.map Piece.ofEntry = (inOrder.map flatEntry).map Piece.ofEntry := by
    rw [← List.append_nil (List.map _ (gather lines).1), ← noHeader, split, flat, List.map_map,
      List.map_map]
    rfl
  refine List.map_injective_iff.mpr (fun one other same => ?_) entries
  obtain ⟨keys, body⟩ := Piece.mk.inj same
  exact Prod.ext keys (Body.value.inj body)

/-- The lines of a document without headers are blank or have one of its entries. -/
theorem isFlat_of_gather {lines : List Line} (entries : (gather lines).1 = inOrder.map flatEntry)
    (noHeader : (gather lines).2 = []) : ∀ line ∈ lines, line.IsFlat := by
  induction lines generalizing inOrder with
  | nil => exact fun _ inside => absurd inside List.not_mem_nil
  | cons line more ih =>
    cases line with
    | blank => exact List.forall_mem_cons.mpr ⟨.blank, ih entries noHeader⟩
    | entry entry =>
      cases inOrder with
      | nil => cases entries
      | cons member others =>
        obtain ⟨rfl, later⟩ := List.cons.inj entries
        exact List.forall_mem_cons.mpr ⟨.entry member, ih later noHeader⟩
    | table _ => cases noHeader
    | element _ => cases noHeader

theorem EntryText.of_flat {limit depth : Nat} {member : String × Scalar} {cs : List Char}
    (spelled : EntryText limit depth (flatEntry member) cs) :
    EntryText 1 1 (flatEntry member) cs := by
  cases spelled with
  | mk named _ opens closes spelled =>
    exact .mk named (Nat.le_refl 1) opens closes (spelled.of_scalar rfl 1 1)

theorem LineText.of_flat {limit : Nat} {line : Line} {cs : List Char}
    (spelled : LineText limit line cs) (isFlat : line.IsFlat) : LineText 1 line cs := by
  cases isFlat with
  | blank =>
    cases spelled with
    | blank opens noted => exact .blank opens noted
  | entry member =>
    cases spelled with
    | entry opens spelled closes noted => exact .entry opens spelled.of_flat closes noted

/-- A document whose lines are all `IsFlat` keeps to any limit. -/
theorem DocumentText.of_flat {limit : Nat} {lines : List Line} {cs : List Char}
    (spelled : DocumentText limit lines cs) (areFlat : ∀ line ∈ lines, line.IsFlat) :
    DocumentText 1 lines cs := by
  induction spelled with
  | last spelled => exact .last (spelled.of_flat (areFlat _ List.mem_cons_self))
  | more spelled ends _ ih =>
    rw [List.forall_mem_cons] at areFlat
    exact .more (spelled.of_flat areFlat.1) ends (ih areFlat.2)

/-! ### Reading -/

/-- The entries that stand for those of scalars are these. -/
theorem eq_of_standsFor_flatEntry {entries : List Entry}
    (stands : List.Forall₂ Entry.StandsFor entries (inOrder.map flatEntry)) :
    entries = inOrder.map (fun member => ⟨[], member.1, member.2.tree⟩) := by
  induction inOrder generalizing entries with
  | nil => exact List.forall₂_nil_right_iff.mp stands
  | cons member more ih =>
    obtain ⟨⟨path, key, value⟩, others, ⟨place, keeps⟩, later, rfl⟩ :=
      List.forall₂_cons_right_iff.mp stands
    obtain ⟨rfl, rfl⟩ : path = [] ∧ key = member.1 := by
      cases path with
      | nil => exact ⟨rfl, (List.cons.inj place).1⟩
      | cons first path => exact absurd (List.cons.inj place).2 (by simp)
    obtain rfl : value = member.2.tree := keeps.same member.2 rfl
    rw [List.map_cons, ← ih later]

theorem memberTrees_values (members : List (String × Scalar)) :
    memberTrees (members.map (fun member => (member.1, .value member.2.tree)))
      = members.map (fun member => (some member.1, member.2.tree)) := by
  induction members with
  | nil => rfl
  | cons member more ih => rw [List.map_cons, memberTrees, ih, Item.tree, List.map_cons]

/-- A document that denotes a table of scalars is read as `flatTree`, with its members in the order
of the document. -/
theorem read_of_denotes_flat {limit : Nat} {text : String}
    (denotes : Denotes limit text (.table (flat members))) :
    ∃ inOrder : List (String × Scalar), inOrder.Perm members
      ∧ Toml.read text = some (flatTree inOrder) := by
  obtain ⟨lines, _, spelled, made, same⟩ := denotes
  obtain rfl := Datum.table.inj same
  obtain ⟨inOrder, perm, split⟩ := made.exists_flat
  obtain ⟨gathered, noHeader⟩ := gather_of_flat split
  have short := spelled.of_flat (isFlat_of_gather gathered noHeader)
  obtain ⟨founds, stands, found⟩ := statements_of_documentText (by decide) short
  obtain ⟨entries, parts, shape, held, others⟩ := sections_of_standsFor stands .root
  rw [gathered] at held
  rw [noHeader, List.forall₂_nil_right_iff] at others
  obtain rfl := eq_of_standsFor_flatEntry held
  have distinct : (inOrder.map Prod.fst).Nodup := by
    have all := made.distinct
    rw [map_fst_flat] at all
    exact (perm.map Prod.fst).nodup_iff.mpr all
  refine ⟨inOrder, perm, ?_⟩
  have added := @addEntries_plain [] (inOrder.map (fun member => (member.1, member.2.tree)))
    (by rwa [List.map_map]) (fun _ _ => rfl)
  rw [List.map_map, List.map_map, List.nil_append] at added
  have ran : run [] ((⟨.root, inOrder.map (fun member => ⟨[], member.1, member.2.tree⟩)⟩
      :: parts).flatMap Section.changes)
      = some (inOrder.map (fun member => (member.1, .value member.2.tree))) := by
    rw [List.flatMap_cons, others, List.append_nil]
    exact (run_ofEntry _ _).trans added
  rw [Toml.read, skipMark_of_statements found, found]
  simp only [shape, assemble, foldlM_addSection, ran, Option.map_some, flatTree]
  rw [memberTrees_values]

/-! ### Writing -/

/-- Every character has a text in quotes, by its code point. -/
theorem exists_quotedText (c : Char) : ∃ cs, QuotedText c cs := by
  have valid : c.toNat.isValidChar := c.valid
  have small : c.toNat < 16 ^ 8 := by
    rcases valid with low | ⟨-, high⟩ <;> omega
  obtain ⟨digits, length, names⟩ := exists_hexText 8 c.toNat small
  exact ⟨_, .escape (.eight length names)⟩

/-- Every text has a string on one line. -/
theorem exists_lineStringText (s : String) : ∃ cs, LineStringText s cs := by
  have spelled : ∀ text : List Char, ∃ body, Spelled QuotedText text body := by
    intro text
    induction text with
    | nil => exact ⟨[], .nil⟩
    | cons c more ih =>
      obtain ⟨cs, first⟩ := exists_quotedText c
      obtain ⟨body, others⟩ := ih
      exact ⟨cs ++ body, .cons first others⟩
  obtain ⟨body, spelled⟩ := spelled s.toList
  exact ⟨_, .basic spelled⟩

theorem groupedText_plain {IsDigit : Char → Prop} {digits : List Char} (some : digits ≠ [])
    (are : ∀ c ∈ digits, IsDigit c) : GroupedText IsDigit digits digits := by
  induction digits with
  | nil => exact absurd rfl some
  | cons c more ih =>
    rw [List.forall_mem_cons] at are
    by_cases last : more = []
    · subst last
      exact .one are.1
    · exact .more are.1 (ih last are.2)

/-- A natural number is spelled by its decimal digits. -/
theorem integerText_natural (n : Nat) : IntegerText n (Nat.toDigits 10 n) := by
  have grouped : GroupedText (fun c => c.isDigit = true) (Nat.toDigits 10 n) (Nat.toDigits 10 n) :=
    groupedText_plain Nat.toDigits_ne_nil
      (fun _ member => Nat.isDigit_of_mem_toDigits (by decide) (by decide) member)
  have nought : (Nat.toDigits 10 n).head? = some '0' → Nat.toDigits 10 n = ['0'] := by
    intro head
    obtain rfl : n = 0 := Nat.eq_zero_of_not_pos (fun pos => Json.head?_toDigits_ne pos head)
    rfl
  have decimal := IntegerText.decimal .absent grouped nought
  rwa [Nat.ofDigitChars_ten_toDigits, if_neg Bool.false_ne_true, Int.one_mul] at decimal

/-- A scalar has a text as a value, unless it is a number out of range. -/
theorem exists_valueText (scalar : Scalar) (fits : ∀ n, scalar = .count n → n < 2 ^ 63) :
    ∃ cs, ValueText 1 1 scalar.datum cs := by
  cases scalar with
  | text s =>
    obtain ⟨cs, spelled⟩ := exists_lineStringText s
    exact ⟨cs, .text (.line spelled)⟩
  | count n =>
    have small := fits n rfl
    exact ⟨_, .integer (integerText_natural n) (by rw [Fits]; omega)⟩

/-- A line for each scalar, and nothing behind them. -/
def flatLines (members : List (String × Scalar)) : List Line :=
  members.map (fun member => .entry (flatEntry member)) ++ [.blank]

theorem gather_flatLines (members : List (String × Scalar)) :
    gather (flatLines members) = (members.map flatEntry, []) := by
  induction members with
  | nil => rfl
  | cons member more ih =>
    rw [flatLines, List.map_cons, List.cons_append, gather, ← flatLines, ih, List.map_cons]

theorem exists_documentText
    (fits : ∀ member ∈ members, ∀ n, member.2 = .count n → n < 2 ^ 63) :
    ∃ cs, DocumentText 1 (flatLines members) cs := by
  induction members with
  | nil => exact ⟨[], .last (.blank (List.forall_mem_nil _) .absent)⟩
  | cons member more ih =>
    rw [List.forall_mem_cons] at fits
    obtain ⟨ds, others⟩ := ih fits.2
    obtain ⟨name, named⟩ := exists_lineStringText member.1
    obtain ⟨cs, spelled⟩ := exists_valueText member.2 fits.1
    have none : AreBlanks [] := List.forall_mem_nil _
    have entry : EntryText 1 1 (flatEntry member) _ :=
      .mk (.one (.quoted named)) (Nat.le_refl 1) none none spelled
    exact ⟨_, .more (.entry none entry none .absent) (Or.inl rfl) others⟩

/-- Every table of scalars has a document, unless a number is out of range. -/
theorem exists_denotes_flat (distinct : (members.map Prod.fst).Nodup)
    (fits : ∀ member ∈ members, ∀ n, member.2 = .count n → n < 2 ^ 63) :
    ∃ text, Denotes 1 text (.table (flat members)) := by
  obtain ⟨cs, document⟩ := exists_documentText fits
  have made := @makes_ofMember (flat members) (by rwa [map_fst_flat])
  refine ⟨String.ofList cs, flatLines members, flat members, ?_, ?_, rfl⟩
  · rwa [String.toList_ofList]
  · rw [gather_flatLines, List.append_nil, List.map_map]
    rwa [flat, List.map_map] at made

end Wordbook.Toml
