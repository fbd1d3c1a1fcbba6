import Wordbook.Proofs.Word.Find

/-!
# How many passes a search takes

The number of passes is bounded, so that a search in a long row of colours ends soon.  This module
says what `find` returns for each bound: the word it finds without one if the bound exceeds the
number of `landings`, and the empty word at one of them otherwise.

## Main Definitions

* `colourStops` — the colours on which passes end, one after the other
* `settleCounted` — the search with the number of its passes
* `landings` — the offsets of those colours for a search from a cursor
* `PassesOver` — the landings of a search and what each bound makes of them

## Main Statements

* `settle_eq` — where a search ends, for every bound
* `settleCounted_eq` — a search takes a pass for each landing and one more, up to its bound
* `exists_passesOver` — the landings of a search, and what it finds for each bound

## Design Notes

`colourStops` goes on as `settle` does but has no bound.  It ends because a pass that ends on a
colour has left the place where it began: the sign of a colour is no anchor.
-/

namespace Wordbook.Word

variable {back stop : List Char} {text : List Char} {p : Nat}

/-! ### Stops on colours -/

/-- A `pass` that ends on a colour has gone back by a character at least. -/
theorem length_pass_lt (colour : onColour (pass back) = true) :
    (pass back).length < back.length := by
  refine Nat.lt_of_le_of_ne (pass_suffix back).length_le fun same => ?_
  have stays := (pass_suffix back).eq_of_length same
  obtain ⟨further, shape⟩ := onColour_iff.mp colour
  rw [stays] at shape
  -- The first walk does not stay on the sign of a colour.
  have walked : pass ('#' :: ' ' :: further) = pass (' ' :: further) := by
    rw [pass, toAnchor, if_neg (by decide)]
    rfl
  have shorter := (pass_suffix (' ' :: further)).length_le
  rw [← walked, ← shape, stays, shape] at shorter
  exact Nat.not_succ_le_self _ shorter

/-- The colours on which the passes from `back` end, one after the other, up to the first pass that
ends elsewhere. -/
def colourStops (back : List Char) : List (List Char) :=
  if _ : onColour (pass back) = true then pass back :: colourStops (pass back) else []
termination_by back.length
decreasing_by exact length_pass_lt (by assumption)

theorem colourStops_of_onColour (colour : onColour (pass back) = true) :
    colourStops back = pass back :: colourStops (pass back) := by
  rw [colourStops, dif_pos colour]

theorem colourStops_of_not_onColour (noColour : ¬ onColour (pass back) = true) :
    colourStops back = [] := by
  rw [colourStops, dif_neg noColour]

/-- With `passes` in the range of `back :: colourStops back` the search `settle` is `spent` at the
entry there.  With more it is `settled` by the pass from the last of `colourStops back`. -/
theorem settle_eq (passes : Nat) (back : List Char) :
    settle passes back =
      match (back :: colourStops back)[passes]? with
      | some stop => .spent stop
      | none => .settled (pass ((colourStops back).getLastD back)) := by
  induction passes generalizing back with
  | zero => rfl
  | succ passes ih =>
    rw [settle_succ, List.getElem?_cons_succ]
    by_cases colour : onColour (pass back) = true
    · rw [if_pos colour, ih, colourStops_of_onColour colour, List.getLastD_cons]
    · rw [if_neg colour, colourStops_of_not_onColour colour]
      rfl

theorem beginsRun_of_isLast {s : Nat} (last : IsLast (Reaches text p) s) : BeginsRun text s := by
  rcases last with ⟨reached, -⟩ | ⟨-, rfl⟩
  · exact reached.2.1
  · exact Or.inl rfl

/-- From `p` the search `settle` is `spent` at some offset up to `p`, or it has taken a pass and is
`settled` where a run begins. -/
theorem settle_upTo_cases (inside : p < text.length) (passes : Nat) :
    (∃ s ≤ p, settle passes (upTo text p) = .spent (upTo text s))
      ∨ 0 < passes ∧ ∃ s ≤ p, settle passes (upTo text p) = .settled (upTo text s)
        ∧ BeginsRun text s := by
  induction passes generalizing p with
  | zero => exact Or.inl ⟨p, Nat.le_refl p, rfl⟩
  | succ passes ih =>
    obtain ⟨s, near, ends, last⟩ := pass_upTo inside
    rw [settle_succ, ends]
    by_cases colour : onColour (upTo text s) = true
    · rw [if_pos colour]
      rcases ih (Nat.lt_of_le_of_lt near inside) with
        ⟨s', nearer, spent⟩ | ⟨-, s', nearer, settled⟩
      · exact Or.inl ⟨s', Nat.le_trans nearer near, spent⟩
      · exact Or.inr ⟨Nat.succ_pos _, s', Nat.le_trans nearer near, settled⟩
    · rw [if_neg colour]
      exact Or.inr ⟨Nat.succ_pos _, s, near, rfl, beginsRun_of_isLast last⟩

theorem mem_colourStops (member : stop ∈ colourStops back) :
    onColour stop = true ∧ stop <:+ back ∧ stop.length < back.length := by
  fun_induction colourStops back with
  | case1 back colour ih =>
    have shorter := length_pass_lt colour
    rcases List.mem_cons.mp member with rfl | later
    · exact ⟨colour, pass_suffix back, shorter⟩
    · obtain ⟨colour', further, shorter'⟩ := ih later
      exact ⟨colour', further.trans (pass_suffix back), Nat.lt_trans shorter' shorter⟩
  | case2 => cases member

/-- Each of `colourStops back` is further back than the one before. -/
theorem pairwise_colourStops (back : List Char) :
    (colourStops back).Pairwise (fun stop later => later.length < stop.length) := by
  fun_induction colourStops back with
  | case1 back _ ih =>
    exact List.pairwise_cons.mpr
      ⟨fun later member => (mem_colourStops member).2.2, ih⟩
  | case2 => exact List.Pairwise.nil

/-! ### Counting passes -/

/-- The search `settle` together with the number of passes that it takes. -/
def settleCounted : Nat → List Char → Landing × Nat
  | 0, back => (.spent back, 0)
  | passes + 1, back =>
    if onColour (pass back) then
      ((settleCounted passes (pass back)).1, (settleCounted passes (pass back)).2 + 1)
    else (.settled (pass back), 1)

/-- A search takes a pass for each of `colourStops back` and one more, or `passes` if that is
less. -/
theorem settleCounted_eq (passes : Nat) (back : List Char) :
    settleCounted passes back
      = (settle passes back, min passes ((colourStops back).length + 1)) := by
  induction passes generalizing back with
  | zero => rw [settleCounted, settle_zero, Nat.zero_min]
  | succ passes ih =>
    rw [settleCounted, settle_succ, Nat.add_min_add_right]
    by_cases colour : onColour (pass back) = true
    · rw [if_pos colour, if_pos colour, ih, colourStops_of_onColour colour,
        List.length_cons]
    · rw [if_neg colour, if_neg colour, colourStops_of_not_onColour colour, List.length_nil,
        Nat.min_zero]

/-! ### Landings in a text -/

theorem behind_eq_upTo (text : List Char) (cursor : Nat) :
    behind text cursor = upTo text (entry text cursor) := rfl

theorem entry_nil (cursor : Nat) : entry [] cursor = 0 := Nat.min_zero cursor

theorem offset_behind (text : List Char) (cursor : Nat) :
    offset (behind text cursor) = entry text cursor := by
  rcases List.eq_nil_or_concat text with rfl | ⟨front, c, rfl⟩
  · exact (entry_nil cursor).symm
  · rw [behind_eq_upTo, offset_upTo (entry_lt (by simp) cursor)]

/-- What is left of `upTo text p` further back is `upTo text` of another offset. -/
theorem eq_upTo_of_suffix (present : back ≠ []) (further : back <:+ upTo text p) :
    back = upTo text (offset back) := by
  have front : back.reverse <+: text :=
    (List.reverse_prefix.mpr further).trans (by
      rw [upTo, List.reverse_reverse]
      exact List.take_prefix _ _)
  have positive := List.length_pos_iff.mpr present
  rw [upTo, offset, Nat.sub_add_cancel positive, ← List.reverse_eq_iff, ← List.length_reverse]
  exact List.prefix_iff_eq_take.mp front

theorem isColour_of_onColour (colour : onColour back = true) (further : back <:+ upTo text p) :
    IsColour text (offset back) := by
  have present : back ≠ [] := by
    rintro rfl
    cases colour
  have inside : offset back < text.length := by
    have positive := List.length_pos_iff.mpr present
    have short := further.length_le
    rw [upTo, List.length_reverse, List.length_take] at short
    rw [offset]
    omega
  rw [eq_upTo_of_suffix present further] at colour
  exact (onColour_upTo inside).mp colour

/-- The offsets of the colours on which the passes of a search from `cursor` end. -/
def landings (text : List Char) (cursor : Nat) : List Nat :=
  (colourStops (behind text cursor)).map offset

theorem length_landings (text : List Char) (cursor : Nat) :
    (landings text cursor).length = (colourStops (behind text cursor)).length :=
  List.length_map offset

theorem isColour_of_mem_landings {cursor q : Nat} (member : q ∈ landings text cursor) :
    IsColour text q := by
  obtain ⟨stop, stopped, rfl⟩ := List.mem_map.mp member
  obtain ⟨colour, further, -⟩ := mem_colourStops stopped
  exact isColour_of_onColour colour further

theorem le_entry_of_mem_landings {cursor q : Nat} (member : q ∈ landings text cursor) :
    q ≤ entry text cursor := by
  obtain ⟨stop, stopped, rfl⟩ := List.mem_map.mp member
  rw [← offset_behind]
  exact Nat.sub_le_sub_right (mem_colourStops stopped).2.1.length_le 1

/-- The `landings` descend. -/
theorem pairwise_landings (text : List Char) (cursor : Nat) :
    (landings text cursor).Pairwise (· > ·) := by
  refine List.pairwise_map.mpr ((pairwise_colourStops _).imp_of_mem ?_)
  intro stop later _ member shorter
  obtain ⟨_, rfl⟩ := onColour_iff.mp (mem_colourStops member).1
  exact Nat.sub_lt_sub_right (Nat.succ_pos _) shorter

/-- There are no more `landings` than signs of colours behind spaces up to the `entry` of the
cursor. -/
theorem length_landings_le (text : List Char) (cursor : Nat) :
    (landings text cursor).length ≤ ((Finset.Icc 1 (entry text cursor)).filter
      (fun i => text[i - 1]? = some ' ' ∧ text[i]? = some '#')).card := by
  have nodup : (landings text cursor).Nodup := (pairwise_landings text cursor).imp Nat.ne_of_gt
  rw [← List.toFinset_card_of_nodup nodup]
  refine Finset.card_le_card fun q member => ?_
  have member := List.mem_toFinset.mp member
  obtain ⟨positive, space, sign⟩ := isColour_of_mem_landings member
  exact Finset.mem_filter.mpr
    ⟨Finset.mem_Icc.mpr ⟨positive, le_entry_of_mem_landings member⟩, space, sign⟩

/-! ### What a bound makes of a search -/

section Find

variable {text : String} {cursor passes : Nat}

theorem entry_cons_landings (text : List Char) (cursor : Nat) :
    entry text cursor :: landings text cursor
      = (behind text cursor :: colourStops (behind text cursor)).map offset := by
  rw [List.map_cons, offset_behind, landings]

/-- With `passes` in the range of `entry :: landings` the search finds the empty word at the entry
there. -/
theorem find_of_le_length
    (few : passes < (entry text.toList cursor :: landings text.toList cursor).length) :
    find passes text cursor
      = ⟨"", (entry text.toList cursor :: landings text.toList cursor)[passes]⟩ := by
  have inside : passes < (behind text.toList cursor
      :: colourStops (behind text.toList cursor)).length := by
    rwa [entry_cons_landings, List.length_map] at few
  have place : (entry text.toList cursor :: landings text.toList cursor)[passes]
      = offset (behind text.toList cursor :: colourStops (behind text.toList cursor))[passes] := by
    simp only [entry_cons_landings, List.getElem_map]
  rw [place, find, settle_eq, List.getElem?_eq_getElem inside]

/-- With more passes than `landings` the result of `find` does not depend on their number. -/
theorem find_of_length_lt (enough : (landings text.toList cursor).length < passes) :
    find passes text cursor = find ((landings text.toList cursor).length + 1) text cursor := by
  have settled : ∀ {bound : Nat}, (landings text.toList cursor).length < bound →
      settle bound (behind text.toList cursor) = .settled
        (pass ((colourStops (behind text.toList cursor)).getLastD
          (behind text.toList cursor))) := by
    intro bound enough
    rw [length_landings] at enough
    rw [settle_eq, List.getElem?_eq_none (by rwa [List.length_cons])]
  rw [find, find, settled enough, settled (Nat.lt_succ_self _)]

/-- The search from `cursor` passes over the colours at `places`.  What `find` returns for each
number of passes follows from these places alone. -/
structure PassesOver (text : String) (cursor : Nat) (places : List Nat) : Prop where
  /-- The places go back. -/
  descending : places.Pairwise (· > ·)
  /-- Each of them is a sign of a colour behind a space. -/
  colours : ∀ q ∈ places, IsColour text.toList q
  /-- There are no more of them than such signs up to the `entry` of the cursor. -/
  length_le : places.length ≤ ((Finset.Icc 1 (entry text.toList cursor)).filter
    (fun i => text.toList[i - 1]? = some ' ' ∧ text.toList[i]? = some '#')).card
  /-- With more passes than places, `find` does not depend on their number. -/
  found : ∀ passes other, places.length < passes → places.length < other →
    find passes text cursor = find other text cursor
  /-- With no more passes than places, `find` returns the empty word where the last pass ended, and
  with none at the `entry` of the cursor. -/
  spent : ∀ (passes : Nat) (few : passes < (entry text.toList cursor :: places).length),
    find passes text cursor = ⟨"", (entry text.toList cursor :: places)[passes]⟩
  /-- A word that is not empty is found with every larger number of passes. -/
  kept : ∀ passes other, passes ≤ other → (find passes text cursor).text ≠ "" →
    find other text cursor = find passes text cursor
  /-- The number of passes that `settleCounted` counts is one more than there are places, unless
  `passes` is less. -/
  taken : ∀ passes, settleCounted passes (behind text.toList cursor)
    = (settle passes (behind text.toList cursor), min passes (places.length + 1))

/-- Every search from a `cursor` satisfies `PassesOver` with some `places`.  So `find` returns the
same word for all `passes` above `places.length`, and for every other number the empty word at the
entry `passes` of `entry text cursor :: places`. -/
theorem exists_passesOver (text : String) (cursor : Nat) :
    ∃ places, PassesOver text cursor places := by
  have found : ∀ passes other, (landings text.toList cursor).length < passes →
      (landings text.toList cursor).length < other →
      find passes text cursor = find other text cursor := by
    intro passes other enough enough'
    rw [find_of_length_lt enough, find_of_length_lt enough']
  refine ⟨landings text.toList cursor, {
    descending := pairwise_landings text.toList cursor
    colours := fun q member => isColour_of_mem_landings member
    length_le := length_landings_le text.toList cursor
    found := found
    spent := fun passes few => find_of_le_length few
    kept := ?_
    taken := ?_ }⟩
  · intro passes other larger named
    have enough : (landings text.toList cursor).length < passes := by
      by_contra few
      rw [find_of_le_length (by rw [List.length_cons]; omega)] at named
      exact named rfl
    exact found other passes (Nat.lt_of_lt_of_le enough larger) enough
  · intro passes
    rw [settleCounted_eq, length_landings]

end Find

/-- Three colours in a row are the `landings` of the search behind them.  With three passes `find`
returns the empty word at the last of them, with four the word in front. -/
example : landings "ab #fff #fff #fff".toList 16 = [13, 8, 3]
    ∧ find 3 "ab #fff #fff #fff" 16 = ⟨"", 3⟩ ∧ find 4 "ab #fff #fff #fff" 16 = ⟨"ab", 0⟩ := by
  refine ⟨?_, by decide, by decide⟩
  cbv

end Wordbook.Word
