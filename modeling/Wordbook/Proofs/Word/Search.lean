import Mathlib.Data.Nat.Find
import Mathlib.Order.Bounds.Defs
import Mathlib.Order.Interval.Finset.Nat
import Wordbook.Word

/-!
# Where the search for a word ends

The search goes back step by step.  This module says by offsets where it ends: at the last place
before the cursor where a word can start.

## Main Definitions

* `IsAt` — a character of a kind stands at an offset
* `Reaches` — a run from which only word characters lead to an anchor before the cursor
* `IsColour` — a colour that stands apart from its command
* `IsStart` — the start of such a run, unless it is a colour
* `IsLast` — the greatest number with a property, or zero
* `coloursBehind` — the colours that passes may end on before they come to a start

## Main Statements

* `pass_upTo` — one pass ends at the last run that it can reach
* `settle_upTo` — the search ends at the last start, given more passes than there are colours to
  pass over

## Design Notes

A pass that ends on a colour is followed by one that starts there, and the runs that this one can
reach are those before the colour (`reaches_of_isColour`).  So all passes together look for one and
the same start, and each takes one colour off those that may still be met.
-/

namespace Wordbook.Word

/-! ### Characters at offsets -/

/-- A character of the given `kind` stands at offset `i`. -/
def IsAt (kind : Char → Bool) (text : List Char) (i : Nat) : Prop := (text[i]?).any kind = true

instance (kind : Char → Bool) (text : List Char) (i : Nat) : Decidable (IsAt kind text i) :=
  inferInstanceAs (Decidable (_ = true))

/-- The `text` up to and including offset `p`, nearest character first, as a search goes over it. -/
def upTo (text : List Char) (p : Nat) : List Char := (text.take (p + 1)).reverse

variable {kind : Char → Bool} {text : List Char} {p s : Nat}

theorem isAt_iff (inside : p < text.length) : IsAt kind text p ↔ kind text[p] = true := by
  rw [IsAt, List.getElem?_eq_getElem inside, Option.any_some]

theorem lt_length_of_isAt (found : IsAt kind text p) : p < text.length := by
  by_contra outside
  rw [IsAt, List.getElem?_eq_none (Nat.le_of_not_lt outside)] at found
  exact Bool.false_ne_true found

theorem isAt_mono {other : Char → Bool} (covers : ∀ c, kind c = true → other c = true)
    (found : IsAt kind text p) : IsAt other text p := by
  have inside := lt_length_of_isAt found
  rw [isAt_iff inside] at found ⊢
  exact covers _ found

theorem offset_upTo (inside : p < text.length) : offset (upTo text p) = p := by
  rw [offset, upTo, List.length_reverse, List.length_take]
  omega

theorem upTo_succ (inside : p + 1 < text.length) :
    upTo text (p + 1) = text[p + 1] :: upTo text p := by
  rw [upTo, List.take_add_one, List.getElem?_eq_getElem inside, Option.toList_some,
    List.reverse_append]
  rfl

/-- The list `upTo text p` begins with the character at `p`. -/
theorem upTo_eq_cons (inside : p < text.length) : ∃ back, upTo text p = text[p] :: back := by
  cases p with
  | zero =>
    obtain ⟨c, more, rfl⟩ := List.exists_cons_of_length_pos inside
    exact ⟨[], rfl⟩
  | succ p => exact ⟨upTo text p, upTo_succ inside⟩

theorem upTo_zero (inside : 0 < text.length) : upTo text 0 = [text[0]] := by
  obtain ⟨c, more, rfl⟩ := List.exists_cons_of_length_pos inside
  rfl

/-! ### The two walks -/

theorem toAnchor_suffix (back : List Char) : toAnchor back <:+ back := by
  fun_induction toAnchor back with
  | case1 => exact List.suffix_rfl
  | case2 c d back _ ih => exact ih.trans (List.suffix_cons c _)
  | case3 => exact List.suffix_rfl

theorem toRunStart_suffix (back : List Char) : toRunStart back <:+ back := by
  fun_induction toRunStart back with
  | case1 c d back _ ih => exact ih.trans (List.suffix_cons c _)
  | case2 => exact List.suffix_rfl
  | case3 => exact List.suffix_rfl

/-- A `pass` only drops characters. -/
theorem pass_suffix (back : List Char) : pass back <:+ back :=
  (toRunStart_suffix _).trans (toAnchor_suffix back)

/-- From `p + 1` the walk `toAnchor` stays if an anchor stands there, and otherwise goes on from
`p`. -/
theorem toAnchor_upTo_succ (inside : p + 1 < text.length) :
    toAnchor (upTo text (p + 1))
      = if IsAt isAnchor text (p + 1) then upTo text (p + 1) else toAnchor (upTo text p) := by
  obtain ⟨back, shape⟩ := upTo_eq_cons (Nat.lt_of_succ_lt inside)
  simp only [isAt_iff inside]
  rw [upTo_succ inside, shape, toAnchor]

/-- From `p + 1` the walk `toRunStart` goes on to `p` if a character of a run stands there, and
otherwise stays. -/
theorem toRunStart_upTo_succ (inside : p + 1 < text.length) :
    toRunStart (upTo text (p + 1))
      = if IsAt isRun text p then toRunStart (upTo text p) else upTo text (p + 1) := by
  have before := Nat.lt_of_succ_lt inside
  obtain ⟨back, shape⟩ := upTo_eq_cons before
  simp only [isAt_iff before]
  rw [upTo_succ inside, shape, toRunStart]

/-- The walk `toAnchor` from `p` ends at the last anchor up to `p`, or at the front. -/
theorem toAnchor_upTo (inside : p < text.length) :
    ∃ a ≤ p, toAnchor (upTo text p) = upTo text a ∧ (a = 0 ∨ IsAt isAnchor text a)
      ∧ ∀ i, a < i → i ≤ p → ¬ IsAt isAnchor text i := by
  induction p with
  | zero =>
    refine ⟨0, Nat.le_refl 0, ?_, Or.inl rfl, fun i above below => by omega⟩
    rw [upTo_zero inside, toAnchor_singleton]
  | succ p ih =>
    rw [toAnchor_upTo_succ inside]
    by_cases anchor : IsAt isAnchor text (p + 1)
    · rw [if_pos anchor]
      exact ⟨p + 1, Nat.le_refl _, rfl, Or.inr anchor, fun i above below => by omega⟩
    · obtain ⟨a, behind, ends, front, none⟩ := ih (Nat.lt_of_succ_lt inside)
      rw [if_neg anchor]
      refine ⟨a, Nat.le_succ_of_le behind, ends, front, ?_⟩
      intro i above below
      rcases Nat.le_succ_iff.mp below with before | rfl
      · exact none i above before
      · exact anchor

/-- A run may begin at offset `s`: no character of a run stands right before it. -/
def BeginsRun (text : List Char) (s : Nat) : Prop := s = 0 ∨ ¬ IsAt isRun text (s - 1)

instance (text : List Char) (s : Nat) : Decidable (BeginsRun text s) :=
  inferInstanceAs (Decidable (_ ∨ _))

/-- The walk `toRunStart` from `p` goes back over characters of a run to where they begin. -/
theorem toRunStart_upTo (inside : p < text.length) :
    ∃ s ≤ p, toRunStart (upTo text p) = upTo text s ∧ BeginsRun text s
      ∧ ∀ i < p, s ≤ i → IsAt isRun text i := by
  induction p with
  | zero =>
    refine ⟨0, Nat.le_refl 0, ?_, Or.inl rfl, fun i below _ => by omega⟩
    rw [upTo_zero inside, toRunStart_singleton]
  | succ p ih =>
    rw [toRunStart_upTo_succ inside]
    by_cases run : IsAt isRun text p
    · obtain ⟨s, behind, ends, begins, all⟩ := ih (Nat.lt_of_succ_lt inside)
      rw [if_pos run]
      refine ⟨s, Nat.le_succ_of_le behind, ends, begins, ?_⟩
      intro i below above
      rcases Nat.lt_succ_iff_lt_or_eq.mp below with before | rfl
      · exact all i before above
      · exact run
    · rw [if_neg run]
      exact ⟨p + 1, Nat.le_refl _, rfl, Or.inr run, fun i below above => by omega⟩

/-! ### One pass -/

/-- A run begins at `s`, and nothing but characters of the run stands between `s` and an anchor that
is no further than `p`. -/
def Reaches (text : List Char) (p s : Nat) : Prop :=
  s ≤ p ∧ BeginsRun text s
    ∧ ∃ a ≤ p, s ≤ a ∧ IsAt isAnchor text a ∧ ∀ i < a, s ≤ i → IsAt isRun text i

instance (text : List Char) (p s : Nat) : Decidable (Reaches text p s) :=
  inferInstanceAs (Decidable (_ ∧ _ ∧ ∃ a ≤ p, _))

/-- A colour that stands apart from its command begins at `s`: its sign follows a space. -/
def IsColour (text : List Char) (s : Nat) : Prop :=
  0 < s ∧ text[s - 1]? = some ' ' ∧ text[s]? = some '#'

instance (text : List Char) (s : Nat) : Decidable (IsColour text s) :=
  inferInstanceAs (Decidable (_ ∧ _ ∧ _))

/-- A word starts at `s` for a search that begins at `p`: the run there `Reaches` an anchor, and it
is no colour that stands apart. -/
def IsStart (text : List Char) (p s : Nat) : Prop := Reaches text p s ∧ ¬ IsColour text s

instance (text : List Char) (p s : Nat) : Decidable (IsStart text p s) :=
  inferInstanceAs (Decidable (_ ∧ ¬ _))

/-- The number `last` is the greatest with a `property`, or zero if there is none. -/
def IsLast (property : Nat → Prop) (last : Nat) : Prop :=
  IsGreatest {i | property i} last ∨ ((∀ i, ¬ property i) ∧ last = 0)

theorem IsLast.unique {property : Nat → Prop} {last other : Nat} (found : IsLast property last)
    (again : IsLast property other) : last = other := by
  rcases found with greatest | ⟨none, rfl⟩ <;> rcases again with greatest' | ⟨none', rfl⟩
  · exact greatest.unique greatest'
  · exact absurd greatest.1 (none' last)
  · exact absurd greatest'.1 (none other)
  · rfl

theorem IsLast.congr {property other : Nat → Prop} {last : Nat} (same : ∀ i, property i ↔ other i)
    (found : IsLast property last) : IsLast other last := by
  rwa [funext (fun i => propext (same i))] at found

/-- A `property` that is bounded has a last number, by `Nat.findGreatest`. -/
theorem isLast_findGreatest {property : Nat → Prop} [DecidablePred property] {bound : Nat}
    (bounded : ∀ i, property i → i ≤ bound) :
    IsLast property (Nat.findGreatest property bound) := by
  by_cases some : ∃ i, property i
  · obtain ⟨i, holds⟩ := some
    refine Or.inl ⟨Nat.findGreatest_spec (bounded i holds) holds, ?_⟩
    intro j holds'
    exact Nat.le_findGreatest (bounded j holds') holds'
  · rw [not_exists] at some
    refine Or.inr ⟨some, Nat.findGreatest_eq_zero_iff.mpr ?_⟩
    intro j _ _
    exact some j

/-- A `pass` from `p` ends at the last `s` with `Reaches text p s`, or at the front.  Both walks are
in this: what stands between `s` and the anchor is what the second one goes back over. -/
theorem pass_upTo (inside : p < text.length) :
    ∃ s ≤ p, pass (upTo text p) = upTo text s ∧ IsLast (Reaches text p) s := by
  obtain ⟨a, near, walked, front, none⟩ := toAnchor_upTo inside
  obtain ⟨s, behind, ends, begins, all⟩ := toRunStart_upTo (Nat.lt_of_le_of_lt near inside)
  refine ⟨s, Nat.le_trans behind near, by rw [pass, walked, ends], ?_⟩
  by_cases anchor : IsAt isAnchor text a
  · refine Or.inl ⟨⟨Nat.le_trans behind near, begins, a, near, behind, anchor, all⟩, ?_⟩
    rintro i ⟨-, begins', b, below, above, anchor', -⟩
    -- A run that begins after `s` would begin inside the run that leads from `s` to `a`.
    have nearer : b ≤ a := by
      by_contra beyond
      exact none b (Nat.lt_of_not_le beyond) below anchor'
    by_contra later
    rcases begins' with rfl | apart
    · exact later (Nat.zero_le s)
    · exact apart (all (i - 1) (by omega) (by omega))
  · have start : a = 0 := front.resolve_right anchor
    subst start
    refine Or.inr ⟨?_, Nat.le_zero.mp behind⟩
    rintro i ⟨-, -, b, below, -, anchor', -⟩
    rcases Nat.eq_zero_or_pos b with rfl | positive
    · exact anchor anchor'
    · exact none b positive below anchor'

theorem onColour_iff {back : List Char} :
    onColour back = true ↔ ∃ further, back = '#' :: ' ' :: further := by
  unfold onColour
  split
  next further => exact iff_of_true rfl ⟨further, rfl⟩
  next other => exact iff_of_false Bool.false_ne_true fun ⟨further, shape⟩ => other further shape

/-- For `upTo text p` the test `onColour` says that a colour that stands apart begins at `p`. -/
theorem onColour_upTo (inside : p < text.length) :
    onColour (upTo text p) = true ↔ IsColour text p := by
  rw [onColour_iff]
  cases p with
  | zero =>
    rw [upTo_zero inside]
    refine iff_of_false ?_ fun colour => Nat.lt_irrefl 0 colour.1
    rintro ⟨further, equal⟩
    exact List.cons_ne_nil _ _ (List.cons.inj equal).2.symm
  | succ p =>
    have before := Nat.lt_of_succ_lt inside
    obtain ⟨back, shape⟩ := upTo_eq_cons before
    rw [upTo_succ inside, shape, IsColour, Nat.add_sub_cancel, List.getElem?_eq_getElem before,
      List.getElem?_eq_getElem inside, Option.some_inj, Option.some_inj]
    constructor
    · rintro ⟨further, equal⟩
      obtain ⟨sign, rest⟩ := List.cons.inj equal
      exact ⟨Nat.succ_pos p, (List.cons.inj rest).1, sign⟩
    · rintro ⟨-, space, sign⟩
      exact ⟨back, by rw [space, sign]⟩

/-! ### All passes -/

/-- A search that begins on a colour at `s` reaches the runs before `s` that it would reach from
`p`, and no others. -/
theorem reaches_of_isColour (colour : IsColour text s) (near : s ≤ p) (i : Nat) :
    Reaches text s i ↔ Reaches text p i ∧ i < s := by
  obtain ⟨positive, space, sign⟩ := colour
  constructor
  · rintro ⟨below, begins, a, inside, above, anchor, all⟩
    refine ⟨⟨Nat.le_trans below near, begins, a, Nat.le_trans inside near, above, anchor, all⟩, ?_⟩
    apply Nat.lt_of_le_of_ne below
    rintro rfl
    have same : a = i := Nat.le_antisymm inside above
    rw [same, IsAt, sign] at anchor
    exact absurd anchor (by decide)
  · rintro ⟨⟨-, begins, a, inside, above, anchor, all⟩, before⟩
    -- The space before the colour keeps its anchor from runs that begin before that space.
    have nearer : a ≤ s := by
      by_contra beyond
      have run := all (s - 1) (by omega) (by omega)
      rw [IsAt, space] at run
      exact absurd run (by decide)
    exact ⟨Nat.le_of_lt before, begins, a, nearer, above, anchor, all⟩

/-- The colours between `start` and `p` on which a pass may end. -/
def coloursBehind (text : List Char) (start p : Nat) : Finset Nat :=
  (Finset.Ioc start p).filter (fun i => Reaches text p i ∧ IsColour text i)

/-- Each of `coloursBehind` has the sign of a colour behind a space, so their number is bounded by
the text alone. -/
theorem coloursBehind_subset (text : List Char) (start p : Nat) :
    coloursBehind text start p
      ⊆ (Finset.Icc 1 p).filter (fun i => text[i - 1]? = some ' ' ∧ text[i]? = some '#') := by
  intro i member
  obtain ⟨inside, -, positive, space, sign⟩ := Finset.mem_filter.mp member
  obtain ⟨-, below⟩ := Finset.mem_Ioc.mp inside
  exact Finset.mem_filter.mpr ⟨Finset.mem_Icc.mpr ⟨positive, below⟩, space, sign⟩

/-- A pass that ends on a colour at `s` leaves fewer of `coloursBehind` for later passes.  This is
what makes their number a measure. -/
theorem coloursBehind_ssubset {start : Nat} (colour : IsColour text s)
    (reached : Reaches text p s) (behind : start < s) :
    coloursBehind text start s ⊂ coloursBehind text start p := by
  rw [Finset.ssubset_iff_of_subset]
  · refine ⟨s, ?_, ?_⟩
    · exact Finset.mem_filter.mpr ⟨Finset.mem_Ioc.mpr ⟨behind, reached.1⟩, reached, colour⟩
    · intro member
      obtain ⟨-, again, -⟩ := Finset.mem_filter.mp member
      exact Nat.lt_irrefl s ((reaches_of_isColour colour reached.1 s).mp again).2
  · intro i member
    obtain ⟨inside, reached', colour'⟩ := Finset.mem_filter.mp member
    obtain ⟨above, below⟩ := Finset.mem_Ioc.mp inside
    refine Finset.mem_filter.mpr ⟨?_, ?_, colour'⟩
    · exact Finset.mem_Ioc.mpr ⟨above, Nat.le_trans below reached.1⟩
    · exact ((reaches_of_isColour colour reached.1 i).mp reached').1

/-- The search `settle` from `p` ends at the last start, given more `passes` than there are
`coloursBehind` between that start and `p`.  The induction is on `passes`, and
`coloursBehind_ssubset` pays for each of them. -/
theorem settle_upTo {passes start : Nat} (inside : p < text.length)
    (last : IsLast (IsStart text p) start)
    (enough : (coloursBehind text start p).card < passes) :
    settle passes (upTo text p) = .settled (upTo text start) := by
  induction passes generalizing p with
  | zero => exact absurd enough (Nat.not_lt_zero _)
  | succ passes ih =>
    obtain ⟨s, near, ends, furthest⟩ := pass_upTo inside
    have within : s < text.length := Nat.lt_of_le_of_lt near inside
    rw [settle_succ, ends]
    by_cases colour : IsColour text s
    · rw [if_pos ((onColour_upTo within).mpr colour)]
      obtain ⟨reached, greatest⟩ : IsGreatest {i | Reaches text p i} s := by
        refine furthest.resolve_right ?_
        rintro ⟨-, rfl⟩
        exact Nat.lt_irrefl 0 colour.1
      have same : ∀ i, IsStart text p i ↔ IsStart text s i := by
        intro i
        rw [IsStart, IsStart, reaches_of_isColour colour near]
        constructor
        · rintro ⟨reached', noColour⟩
          refine ⟨⟨reached', Nat.lt_of_le_of_ne (greatest reached') ?_⟩, noColour⟩
          rintro rfl
          exact noColour colour
        · rintro ⟨⟨reached', -⟩, noColour⟩
          exact ⟨reached', noColour⟩
      have behind : start < s := by
        rcases last with ⟨isStart, -⟩ | ⟨-, rfl⟩
        · exact (((reaches_of_isColour colour near start).mp ((same start).mp isStart).1).2)
        · exact colour.1
      have fewer := Finset.card_lt_card (coloursBehind_ssubset colour reached behind)
      exact ih within (last.congr same) (by omega)
    · rw [if_neg (fun found => colour ((onColour_upTo within).mp found))]
      have isLast : IsLast (IsStart text p) s := by
        rcases furthest with ⟨reached, greatest⟩ | ⟨none, rfl⟩
        · exact Or.inl ⟨⟨reached, colour⟩, fun i isStart => greatest isStart.1⟩
        · exact Or.inr ⟨fun i isStart => none i isStart.1, rfl⟩
      rw [last.unique isLast]

end Wordbook.Word
