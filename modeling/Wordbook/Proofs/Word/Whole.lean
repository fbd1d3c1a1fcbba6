import Wordbook.Proofs.Word.Command
import Wordbook.Proofs.Word.Passes

/-!
# Whole words

What `find` returns is a whole word of the text, and it returns the same word for every cursor in
it.

## Main Definitions

* `lookUp?` — the search by offsets, where each character is looked up
* `IsWhole` — a word of a text with nothing left out at either end
* `Covers` — the cursors that belong to a word whatever stands behind it

## Main Statements

* `lookUp?_eq` — no look-up is beyond the text, and the search by offsets is the search
* `find_of_covers` — a word is found from every cursor that it covers
* `isWhole_find`, `find_find` — what is found is a whole word, and it is found again
* `find_wholeWord` — all of this, for every text, cursor and bound

## Design Notes

`find` goes back along a list, so it has no offset that could be wrong.  `lookUp?` does the same by
offsets alone, and it has no answer as soon as one is beyond the text.
-/

namespace Wordbook.Word

variable {text : List Char} {p s start stop : Nat}

/-! ### The search by offsets -/

/-- The `entry` of a cursor, read off by an offset. -/
def entryAt? (text : List Char) (cursor : Nat) : Option Nat :=
  let here := min cursor (text.length - 1)
  text[here]?.map fun c => if isBreak c then here else min (here + 1) (text.length - 1)

/-- The walk `toAnchor` by offsets: back to the nearest anchor, or to the first character. -/
def anchorFrom? (text : List Char) : Nat → Option Nat
  | 0 => some 0
  | p + 1 => text[p + 1]?.bind fun c => if isAnchor c then some (p + 1) else anchorFrom? text p

/-- The walk `toRunStart` by offsets: back to where the run of word characters just before
begins. -/
def runStartFrom? (text : List Char) : Nat → Option Nat
  | 0 => some 0
  | p + 1 => text[p]?.bind fun c => if isRun c then runStartFrom? text p else some (p + 1)

/-- The test `onColour` by offsets. -/
def isColourAt? (text : List Char) : Nat → Option Bool
  | 0 => some false
  | s + 1 => text[s]?.bind fun c => if c = ' ' then text[s + 1]?.map (· == '#') else some false

/-- The passes of `settle` by offsets: where they end, and whether the last of them settled the
search. -/
def settleFrom? (text : List Char) : Nat → Nat → Option (Nat × Bool)
  | 0, p => some (p, false)
  | passes + 1, p => do
    let a ← anchorFrom? text p
    let s ← runStartFrom? text a
    let colour ← isColourAt? text s
    if colour then settleFrom? text passes s else some (s, true)

/-- What stands in `text` from offset `s` on; nothing if `s` is beyond the end. -/
def dropFrom? (text : List Char) (s : Nat) : Option (List Char) :=
  if s ≤ text.length then some (text.drop s) else none

/-- The search `find` by offsets.  Each character is read with `text[i]?`, so there is no result if
the search looks beyond the text. -/
def lookUp? (passes : Nat) (text : List Char) (cursor : Nat) : Option Word :=
  if text.isEmpty then some {}
  else do
    let p ← entryAt? text cursor
    let (s, settled) ← settleFrom? text passes p
    if settled then
      let rest ← dropFrom? text s
      some ⟨String.ofList (rest.takeWhile Char.isLower), s⟩
    else some ⟨"", s⟩

theorem entryAt?_eq (present : 0 < text.length) (cursor : Nat) :
    entryAt? text cursor = some (entry text cursor) := by
  have inside : min cursor (text.length - 1) < text.length := by omega
  simp only [entryAt?, entry, List.getElem?_eq_getElem inside, Option.map_some]

theorem anchorFrom?_eq (inside : p < text.length) :
    anchorFrom? text p = some (offset (toAnchor (upTo text p))) := by
  induction p with
  | zero => rw [upTo_zero inside]; rfl
  | succ p ih =>
    rw [anchorFrom?, List.getElem?_eq_getElem inside, Option.bind_some, toAnchor_upTo_succ inside]
    by_cases anchor : isAnchor text[p + 1] = true
    · rw [if_pos anchor, if_pos ((isAt_iff inside).mpr anchor), offset_upTo inside]
    · rw [if_neg anchor, if_neg (mt (isAt_iff inside).mp anchor)]
      exact ih (Nat.lt_of_succ_lt inside)

theorem runStartFrom?_eq (inside : p < text.length) :
    runStartFrom? text p = some (offset (toRunStart (upTo text p))) := by
  induction p with
  | zero => rw [upTo_zero inside]; rfl
  | succ p ih =>
    have before := Nat.lt_of_succ_lt inside
    rw [runStartFrom?, List.getElem?_eq_getElem before, Option.bind_some,
      toRunStart_upTo_succ inside]
    by_cases run : isRun text[p] = true
    · rw [if_pos run, if_pos ((isAt_iff before).mpr run)]
      exact ih before
    · rw [if_neg run, if_neg (mt (isAt_iff before).mp run), offset_upTo inside]

theorem isColourAt?_eq (inside : s < text.length) :
    isColourAt? text s = some (onColour (upTo text s)) := by
  have same : onColour (upTo text s) = decide (IsColour text s) :=
    Bool.eq_iff_iff.mpr ((onColour_upTo inside).trans decide_eq_true_iff.symm)
  rw [same]
  cases s with
  | zero => simp [isColourAt?, IsColour]
  | succ s =>
    have before := Nat.lt_of_succ_lt inside
    by_cases space : text[s] = ' ' <;>
      simp [isColourAt?, IsColour, space, inside, before, Bool.beq_eq_decide_eq]

/-- The passes of `settleFrom?` end where those of `settle` end. -/
theorem settleFrom?_eq (inside : p < text.length) (passes : Nat) :
    settleFrom? text passes p = some (match settle passes (upTo text p) with
      | .settled back => (offset back, true)
      | .spent back => (offset back, false)) := by
  induction passes generalizing p with
  | zero => simp only [settleFrom?, settle_zero, offset_upTo inside]
  | succ passes ih =>
    obtain ⟨a, near, walked, -⟩ := toAnchor_upTo inside
    have anchored : a < text.length := Nat.lt_of_le_of_lt near inside
    obtain ⟨s, nearer, ends, -⟩ := toRunStart_upTo anchored
    have within : s < text.length := Nat.lt_of_le_of_lt nearer anchored
    have passed : pass (upTo text p) = upTo text s := by rw [pass, walked, ends]
    rw [settleFrom?, anchorFrom?_eq inside, walked, offset_upTo anchored, settle_succ, passed]
    simp only [Option.bind_eq_bind, Option.bind_some, runStartFrom?_eq anchored, ends,
      offset_upTo within, isColourAt?_eq within]
    by_cases colour : onColour (upTo text s) = true
    · rw [if_pos colour, if_pos colour, ih within]
    · rw [if_neg colour, if_neg colour]
      simp only [offset_upTo within]

theorem length_toList_pos {text : String} (present : text ≠ "") : 0 < text.toList.length :=
  List.length_pos_iff.mpr (mt String.toList_eq_nil_iff.mp present)

theorem find_empty (passes cursor : Nat) : find passes "" cursor = {} := by
  have nothing : behind "".toList cursor = [] := by simp [behind]
  rw [find, nothing]
  cases passes <;> rfl

/-- No look-up of `lookUp?` is beyond the text, and its result is that of `find`. -/
theorem lookUp?_eq (passes : Nat) (text : String) (cursor : Nat) :
    lookUp? passes text.toList cursor = some (find passes text cursor) := by
  by_cases empty : text = ""
  · subst empty
    rw [find_empty]
    rfl
  · have present := length_toList_pos empty
    have inside := entry_lt present cursor
    have nonempty : text.toList.isEmpty = false :=
      List.isEmpty_eq_false_iff.mpr (List.length_pos_iff.mp present)
    rw [lookUp?, nonempty, if_neg Bool.false_ne_true, entryAt?_eq present, find, behind_eq_upTo]
    simp only [Option.bind_eq_bind, Option.bind_some, settleFrom?_eq inside]
    rcases settle_upTo_cases inside passes with ⟨s, near, spent⟩ | ⟨-, s, near, settled, -⟩
    · simp [spent]
    · have within : s ≤ text.toList.length := by omega
      simp only [settled, offset_upTo (Nat.lt_of_le_of_lt near inside), if_true, dropFrom?,
        if_pos within, Option.bind_some]

/-! ### Words that are covered -/

theorem start_lt_stop {word : Word} (named : word.text ≠ "") : word.start < word.stop :=
  Nat.lt_add_of_pos_right (Nat.pos_of_ne_zero (mt String.length_eq_zero_iff.mp named))

/-- The characters of `run` by their offsets, and that it ends behind them. -/
theorem isAt_of_isLongest {kind : Char → Bool} {run : List Char}
    (longest : IsLongest kind (text.drop s) run) :
    (∀ i < s + run.length, s ≤ i → IsAt kind text i) ∧ ¬ IsAt kind text (s + run.length) := by
  obtain ⟨later, parts, all, ends⟩ := longest
  constructor
  · intro i below above
    obtain ⟨j, rfl⟩ := Nat.exists_eq_add_of_le above
    have inside : j < run.length := Nat.lt_of_add_lt_add_left below
    have place : text[s + j]? = some run[j] := by
      rw [← List.getElem?_drop, parts, List.getElem?_append_left inside,
        List.getElem?_eq_getElem inside]
    rw [IsAt, place]
    exact all _ (List.getElem_mem inside)
  · have place : text[s + run.length]? = later.head? := by
      rw [← List.getElem?_drop, parts, List.getElem?_append_right (Nat.le_refl _), Nat.sub_self,
        List.head?_eq_getElem?]
    rw [IsAt, place]
    cases first : later.head? with
    | none => exact Bool.false_ne_true
    | some c => exact Bool.eq_false_iff.mp (ends c first)

/-- A search that begins no further than `stop`, right behind the letters from `start` on, `Reaches`
no run behind `start`. -/
theorem le_of_reaches (letters : ∀ i < stop, start ≤ i → IsAt Char.isLower text i)
    (near : p ≤ stop) (reached : Reaches text p s) : s ≤ start := by
  obtain ⟨below, begins, -⟩ := reached
  by_contra beyond
  rcases begins with rfl | apart
  · exact beyond (Nat.zero_le start)
  · exact apart (isAt_mono isRun_of_isLower (letters (s - 1) (by omega) (by omega)))

theorem isLast_isStart_of_letters (named : start < stop) (begins : BeginsRun text start)
    (letters : ∀ i < stop, start ≤ i → IsAt Char.isLower text i) (behind : start ≤ p)
    (near : p ≤ stop) : IsLast (IsStart text p) start :=
  Or.inl ⟨isStart_of_isLower begins (letters start named (Nat.le_refl start)) behind,
    fun _ isStart => le_of_reaches letters near isStart.1⟩

theorem coloursBehind_eq_empty (letters : ∀ i < stop, start ≤ i → IsAt Char.isLower text i)
    (near : p ≤ stop) : coloursBehind text start p = ∅ := by
  refine Finset.filter_eq_empty_iff.mpr fun i member => ?_
  rintro ⟨reached, -⟩
  exact Nat.not_lt_of_le (le_of_reaches letters near reached) (Finset.mem_Ioc.mp member).1

/-- The cursors that belong to `word` whatever stands behind it: those on one of its letters, and
the one right behind it if the text ends there or a break follows. -/
def Covers (text : List Char) (word : Word) (cursor : Nat) : Prop :=
  word.start ≤ cursor ∧ cursor < word.stop
    ∨ cursor = word.stop
      ∧ (word.stop = text.length ∨ text[word.stop]? = some ' ' ∨ text[word.stop]? = some '\n')

instance (text : List Char) (word : Word) (cursor : Nat) : Decidable (Covers text word cursor) :=
  inferInstanceAs (Decidable (_ ∧ _ ∨ _ ∧ (_ ∨ _ ∨ _)))

/-- The `entry` of a cursor that `word` covers is in the word or right behind it. -/
theorem entry_of_covers {word : Word} {cursor : Nat} (short : word.stop ≤ text.length)
    (named : word.start < word.stop) (covered : Covers text word cursor) :
    word.start ≤ entry text cursor ∧ entry text cursor ≤ word.stop := by
  have inside : word.start < text.length := Nat.lt_of_lt_of_le named short
  have begins : entry text cursor = _ := entry_eq (Nat.zero_lt_of_lt inside) rfl rfl
  have behind : word.start ≤ cursor := by
    rcases covered with ⟨behind, -⟩ | ⟨rfl, -⟩
    · exact behind
    · exact Nat.le_of_lt named
  refine ⟨le_entry inside behind, ?_⟩
  rcases covered with ⟨-, before⟩ | ⟨rfl, atEnd | broken⟩
  · rw [begins]
    split <;> omega
  · rw [atEnd]
    exact Nat.le_of_lt (entry_lt (Nat.zero_lt_of_lt inside) _)
  · -- The search does not step over a break.
    have within : word.stop < text.length := by
      rcases broken with space | feed
      · exact (List.getElem?_eq_some_iff.mp space).1
      · exact (List.getElem?_eq_some_iff.mp feed).1
    have here : min word.stop (text.length - 1) = word.stop := by omega
    rw [begins, here, if_pos broken]

/-- A `word` with nothing glued to its front is what `find` returns for every cursor that it covers,
in a single pass. -/
theorem find_of_covers {text : String} {word : Word} {passes cursor : Nat} (named : word.text ≠ "")
    (begins : BeginsRun text.toList word.start)
    (longest : IsLongest Char.isLower (text.toList.drop word.start) word.text.toList)
    (covered : Covers text.toList word cursor) (enough : 0 < passes) :
    find passes text cursor = word := by
  have nonempty := start_lt_stop named
  have letters : ∀ i < word.stop, word.start ≤ i → IsAt Char.isLower text.toList i :=
    (isAt_of_isLongest longest).1
  have short : word.stop ≤ text.toList.length := by
    have inside := lt_length_of_isAt (letters (word.stop - 1) (by omega) (by omega))
    omega
  obtain ⟨behind, near⟩ := entry_of_covers short nonempty covered
  have few : (coloursBehind text.toList word.start (entry text.toList cursor)).card < passes := by
    rwa [coloursBehind_eq_empty letters near]
  have last := isLast_isStart_of_letters nonempty begins letters behind near
  have present := Nat.zero_lt_of_lt (Nat.lt_of_lt_of_le nonempty short)
  have whole : (text.toList.drop word.start).takeWhile Char.isLower = word.text.toList := by
    obtain ⟨later, parts, all, ends⟩ := longest
    rw [parts, takeWhile_word all ends]
  rw [find_of_isLast present last few, whole, String.ofList_toList]

/-! ### What is found -/

/-- The `word` is one of `text`, with nothing left out at either end. -/
structure IsWhole (text : String) (word : Word) : Prop where
  /-- It starts in the text. -/
  start_lt : text ≠ "" → word.start < text.length
  /-- An empty text has no place but the first. -/
  start_eq_zero : text = "" → word.start = 0
  /-- It ends in the text. -/
  stop_le : word.stop ≤ text.length
  /-- It is what stands there, by `List.extract`. -/
  text_eq : text.toList.extract word.start word.stop = word.text.toList
  /-- It is made of lower-case letters. -/
  letters : ∀ c ∈ word.text.toList, c.isLower = true
  /-- Nothing is glued to its front. -/
  begins : word.text ≠ "" → BeginsRun text.toList word.start
  /-- It does not go on. -/
  ends : word.text ≠ "" → ¬ IsAt Char.isLower text.toList word.stop

/-- Either `find` returns the empty word at some offset of the text, or it returns the letters from
an offset on at which a run begins. -/
theorem find_cases {text : String} (present : 0 < text.toList.length) (passes cursor : Nat) :
    (∃ s < text.toList.length, find passes text cursor = ⟨"", s⟩)
      ∨ 0 < passes ∧ ∃ s < text.toList.length, BeginsRun text.toList s
        ∧ find passes text cursor
          = ⟨String.ofList ((text.toList.drop s).takeWhile Char.isLower), s⟩ := by
  have inside := entry_lt present cursor
  rcases settle_upTo_cases inside passes with
    ⟨s, near, spent⟩ | ⟨enough, s, near, settled, begins⟩
  · have within := Nat.lt_of_le_of_lt near inside
    refine Or.inl ⟨s, within, ?_⟩
    rw [find, behind_eq_upTo, spent]
    simp only [offset_upTo within]
  · have within := Nat.lt_of_le_of_lt near inside
    refine Or.inr ⟨enough, s, within, begins, ?_⟩
    rw [find, behind_eq_upTo, settled]
    simp only [offset_upTo within]

/-- A `word` that stands at `word.start` is a whole word of `text` if no run goes on into it and it
does not go on. -/
theorem isWhole_of_stands {text : String} {word : Word} (inside : word.start < text.length)
    (stands : word.text.toList <+: text.toList.drop word.start)
    (letters : ∀ c ∈ word.text.toList, c.isLower = true)
    (begins : word.text ≠ "" → BeginsRun text.toList word.start)
    (ends : word.text ≠ "" → ¬ IsAt Char.isLower text.toList word.stop) : IsWhole text word where
  start_lt _ := inside
  start_eq_zero empty := by
    subst empty
    exact absurd inside (Nat.not_lt_zero _)
  stop_le := by
    have short := stands.length_le
    rw [List.length_drop, String.length_toList, String.length_toList] at short
    rw [stop]
    omega
  text_eq := by
    have long : word.stop - word.start = word.text.toList.length := Nat.add_sub_cancel_left ..
    rw [List.extract_eq_take_drop, long]
    exact (List.prefix_iff_eq_take.mp stands).symm
  letters := letters
  begins := begins
  ends := ends

/-- What `find` returns is a whole word of the text, the empty word included. -/
theorem isWhole_find (passes : Nat) (text : String) (cursor : Nat) :
    IsWhole text (find passes text cursor) := by
  by_cases empty : text = ""
  · subst empty
    rw [find_empty]
    exact ⟨fun present => absurd rfl present, fun _ => rfl, Nat.le_refl 0, rfl, nofun,
      fun named => absurd rfl named, fun named => absurd rfl named⟩
  · have present := length_toList_pos empty
    rcases find_cases present passes cursor with
      ⟨s, within, nothing⟩ | ⟨-, s, within, begins, found⟩
    · rw [nothing]
      exact isWhole_of_stands within List.nil_prefix nofun (fun named => absurd rfl named)
        fun named => absurd rfl named
    · rw [found]
      have longest := isLongest_takeWhile Char.isLower (text.toList.drop s)
      refine isWhole_of_stands within ?_ ?_ (fun _ => begins) fun _ => ?_
      · rw [String.toList_ofList]
        exact List.takeWhile_prefix _
      · rw [String.toList_ofList]
        exact List.all_eq_true.mp List.all_takeWhile
      · rw [stop, String.length_ofList]
        exact (isAt_of_isLongest longest).2

/-- A word that is not empty is what `find` returns for every cursor that the word covers. -/
theorem find_find {passes : Nat} {text : String} {cursor other : Nat}
    (named : (find passes text cursor).text ≠ "")
    (covered : Covers text.toList (find passes text cursor) other) :
    find passes text other = find passes text cursor := by
  have present : text ≠ "" := by
    rintro rfl
    exact named (by rw [find_empty])
  rcases find_cases (length_toList_pos present) passes cursor with
    ⟨s, -, nothing⟩ | ⟨enough, s, -, begins, found⟩
  · rw [nothing] at named
    exact absurd rfl named
  · rw [found] at named covered ⊢
    refine find_of_covers named begins ?_ covered enough
    rw [String.toList_ofList]
    exact isLongest_takeWhile _ _

/-- For every `text`, `cursor` and number of `passes`, the search looks at nothing beyond the text,
what `find` returns is a whole word, and if it is not empty it is returned again for every cursor
that it `Covers`. -/
theorem find_wholeWord (passes : Nat) (text : String) (cursor : Nat) :
    lookUp? passes text.toList cursor = some (find passes text cursor)
      ∧ IsWhole text (find passes text cursor)
      ∧ ((find passes text cursor).text ≠ "" → ∀ other,
        Covers text.toList (find passes text cursor) other →
          find passes text other = find passes text cursor) :=
  ⟨lookUp?_eq passes text cursor, isWhole_find passes text cursor,
    fun named _ covered => find_find named covered⟩

/-- Right behind a word with a bracket after it, another word may be found. -/
example : find 1 "tx(ab" 1 = ⟨"tx", 0⟩ ∧ ¬ Covers "tx(ab".toList ⟨"tx", 0⟩ 2
    ∧ find 1 "tx(ab" 2 = ⟨"ab", 3⟩ := by decide

end Wordbook.Word
