import Wordbook.Proofs.Word.Ending
import Wordbook.Proofs.Word.Whole

/-!
# What a search looks at

A search that finds a word has looked at nothing before the word, except to see that nothing is
glued to its front, and at nothing behind the place where it began.  So the word with the text up to
that place can be put into any other text, and it is found again.

## Main Definitions

* `Alike` — two ways back that are the same as far as a letter
* `Landing.Alike` — two searches that end alike

## Main Statements

* `Alike.pass` — from places that are alike a pass goes back to places that are alike
* `Alike.settle` — so does a search, for every bound
* `find_embedded` — a word is found again in every text with the characters the search looked at

## Design Notes

The two texts are compared by a simulation.  Its invariant is that both ways back have the same
characters in front of the same letter, and that a run begins at the letter in both texts.  No walk
goes past that letter, so neither the passes nor the offsets have to be counted.
-/

namespace Wordbook.Word

/-! ### Ways back that are alike -/

/-- Two ways back are the same up to and including the letter `c`.  Behind it one has `far` and the
other `far'`. -/
inductive Alike (c : Char) (far far' : List Char) : List Char → List Char → Prop where
  /-- Both begin with `c`. -/
  | letter : Alike c far far' (c :: far) (c :: far')
  /-- Both begin with a character `d` in front of it. -/
  | cons (d : Char) {back back' : List Char} (same : Alike c far far' back back') :
    Alike c far far' (d :: back) (d :: back')

/-- Two landings are of one kind, and what they leave to go back over is `Word.Alike`. -/
inductive Landing.Alike (c : Char) (far far' : List Char) : Landing → Landing → Prop where
  /-- Both are `Landing.settled`. -/
  | settled {back back' : List Char} (same : Word.Alike c far far' back back') :
    Landing.Alike c far far' (.settled back) (.settled back')
  /-- Both are `Landing.spent`. -/
  | spent {back back' : List Char} (same : Word.Alike c far far' back back') :
    Landing.Alike c far far' (.spent back) (.spent back')

variable {c : Char} {far far' back back' : List Char}

theorem toAnchor_cons (d : Char) (present : back ≠ []) :
    toAnchor (d :: back) = if isAnchor d then d :: back else toAnchor back := by
  obtain ⟨e, more, rfl⟩ := List.exists_cons_of_ne_nil present
  rfl

theorem toRunStart_cons (d : Char) (back : List Char) :
    toRunStart (d :: back) = if back.head?.any isRun then toRunStart back else d :: back := by
  cases back <;> rfl

theorem toRunStart_of_head? (begins : ∀ d ∈ far.head?, isRun d = false) :
    toRunStart (c :: far) = c :: far := by
  rw [← List.getLast?_reverse] at begins
  have stays := toRunStart_of_begins (c := c) begins
  rwa [List.reverse_reverse] at stays

theorem isBreak_iff : isBreak c = true ↔ c = ' ' ∨ c = '\n' := by
  rw [isBreak, Bool.or_eq_true, beq_iff_eq, beq_iff_eq]

theorem onColour_cons (d : Char) (back : List Char) :
    onColour (d :: back) = decide (d = '#' ∧ back.head? = some ' ') := by
  rw [Bool.eq_iff_iff, onColour_iff, decide_eq_true_iff, List.head?_eq_some_iff]
  simp only [List.cons.injEq, exists_and_left]

namespace Alike

theorem append (near : List Char) : Alike c far far' (near ++ c :: far) (near ++ c :: far') := by
  induction near with
  | nil => exact .letter
  | cons d near ih => exact ih.cons d

theorem head?_eq (same : Alike c far far' back back') : back.head? = back'.head? := by
  cases same <;> rfl

theorem ne_nil (same : Alike c far far' back back') : back ≠ [] ∧ back' ≠ [] := by
  cases same <;> exact ⟨List.cons_ne_nil _ _, List.cons_ne_nil _ _⟩

theorem length_lt (same : Alike c far far' back back') : far.length < back.length := by
  induction same with
  | letter => exact Nat.lt_succ_self _
  | cons d _ ih => exact Nat.lt_succ_of_lt ih

/-- Where `back` has come to `c`, which its length tells, so has `back'`. -/
theorem eq_of_length (same : Alike c far far' back back') (reached : back.length = far.length + 1) :
    back = c :: far ∧ back' = c :: far' := by
  cases same with
  | letter => exact ⟨rfl, rfl⟩
  | cons d same => exact absurd (Nat.succ.inj reached) (Nat.ne_of_gt same.length_lt)

/-- Neither of two alike walks `toAnchor` goes past `c`, which is an anchor. -/
theorem toAnchor (anchor : isAnchor c = true) (same : Alike c far far' back back') :
    Alike c far far' (toAnchor back) (toAnchor back') := by
  induction same with
  | letter =>
    rw [toAnchor_of_isAnchor far anchor, toAnchor_of_isAnchor far' anchor]
    exact .letter
  | cons d same ih =>
    rw [toAnchor_cons d same.ne_nil.1, toAnchor_cons d same.ne_nil.2]
    split
    · exact same.cons d
    · exact ih

/-- Neither of two alike walks `toRunStart` goes past `c` if a run begins there on both sides. -/
theorem toRunStart (begins : ∀ d ∈ far.head?, isRun d = false)
    (begins' : ∀ d ∈ far'.head?, isRun d = false) (same : Alike c far far' back back') :
    Alike c far far' (toRunStart back) (toRunStart back') := by
  induction same with
  | letter =>
    rw [toRunStart_of_head? begins, toRunStart_of_head? begins']
    exact .letter
  | cons d same ih =>
    rw [toRunStart_cons, toRunStart_cons, ← same.head?_eq]
    split
    · exact ih
    · exact same.cons d

/-- A `pass` from places that are alike ends at places that are alike. -/
theorem pass (lower : c.isLower = true) (begins : ∀ d ∈ far.head?, isRun d = false)
    (begins' : ∀ d ∈ far'.head?, isRun d = false) (same : Alike c far far' back back') :
    Alike c far far' (pass back) (pass back') :=
  (same.toAnchor (isAnchor_of_isLower c lower)).toRunStart begins begins'

/-- Whether `onColour` holds is decided before `far` and `far'`, as `c` itself is no sign of a
colour. -/
theorem onColour_eq (lower : c.isLower = true) (same : Alike c far far' back back') :
    onColour back = onColour back' := by
  cases same with
  | letter =>
    have apart := ne_sign_of_isAnchor (isAnchor_of_isLower c lower)
    rw [onColour_of_ne apart, onColour_of_ne apart]
  | cons d same => rw [onColour_cons, onColour_cons, same.head?_eq]

/-- A search `settle` from places that are alike ends at a landing that is alike, after any number
of `passes`. -/
theorem settle (lower : c.isLower = true) (begins : ∀ d ∈ far.head?, isRun d = false)
    (begins' : ∀ d ∈ far'.head?, isRun d = false) (passes : Nat)
    (same : Alike c far far' back back') :
    Landing.Alike c far far' (settle passes back) (settle passes back') := by
  induction passes generalizing back back' with
  | zero => exact .spent same
  | succ passes ih =>
    have next := same.pass lower begins begins'
    rw [settle_succ, settle_succ, ← next.onColour_eq lower]
    split
    · exact ih next
    · exact .settled next

end Alike

/-! ### Searches in two texts -/

section Texts

variable {front kept after : List Char} {a : Char} {i p : Nat}

/-- The `entry` of a cursor in `kept` moves along with `kept`: it depends neither on `front` nor on
`after`. -/
theorem entry_append_append (here : kept[i]? = some a)
    (looked : p = if isBreak a then i else i + 1) (inside : p < kept.length) :
    entry (front ++ kept ++ after) (front.length + i) = front.length + p := by
  have within : i < kept.length := (List.getElem?_eq_some_iff.mp here).1
  have length : (front ++ kept ++ after).length = front.length + kept.length + after.length := by
    rw [List.length_append, List.length_append]
  have stays : min (front.length + i) ((front ++ kept ++ after).length - 1) = front.length + i := by
    omega
  have place : (front ++ kept ++ after)[front.length + i]? = some a := by
    rw [List.append_assoc, List.getElem?_append_right (Nat.le_add_right _ _),
      Nat.add_sub_cancel_left, List.getElem?_append_left within, here]
  simp only [entry, stays, place]
  by_cases stops : isBreak a = true
  · rw [if_pos stops] at looked ⊢
    rw [looked]
  · rw [if_neg stops] at looked ⊢
    omega

theorem behind_append_append (here : kept[i]? = some a)
    (looked : p = if isBreak a then i else i + 1) (inside : p < kept.length) :
    behind (front ++ kept ++ after) (front.length + i)
      = (kept.take (p + 1)).reverse ++ front.reverse := by
  rw [behind, entry_append_append here looked inside, Nat.add_assoc, List.append_assoc,
    List.take_length_add_append, List.take_append_of_le_length inside, List.reverse_append]

/-- If the characters of a `kind` at the front of `kept ++ after` end within `kept`, they are the
same with `after'` behind it. -/
theorem takeWhile_append_append {kind : Char → Bool} (after' : List Char)
    (ends : ((kept ++ after).takeWhile kind).length < kept.length) :
    (kept ++ after').takeWhile kind = (kept ++ after).takeWhile kind := by
  rw [List.takeWhile_append] at ends
  by_cases all : (kept.takeWhile kind).length = kept.length
  · rw [if_pos all, List.length_append] at ends
    omega
  · rw [List.takeWhile_append, List.takeWhile_append, if_neg all, if_neg all]

/-- A search in `kept` that settles at the front of it does so between any other texts.  Nothing may
be glued to that front, neither by `front` nor by `front'`. -/
theorem settle_behind {front' landed : List Char} {passes : Nat} (after' : List Char)
    (here : kept[i]? = some a) (looked : p = if isBreak a then i else i + 1)
    (inside : p < kept.length) (letter : ∀ c ∈ kept.head?, c.isLower = true)
    (begins : ∀ d ∈ front.getLast?, isRun d = false)
    (begins' : ∀ d ∈ front'.getLast?, isRun d = false)
    (settled : settle passes (behind (front ++ kept ++ after) (front.length + i)) = .settled landed)
    (start : offset landed = front.length) :
    ∃ landed', settle passes (behind (front' ++ kept ++ after') (front'.length + i))
      = .settled landed' ∧ offset landed' = front'.length := by
  obtain ⟨c, more, rfl⟩ := List.exists_cons_of_length_pos (Nat.zero_lt_of_lt inside)
  rw [behind_append_append here looked inside, List.take_succ_cons, List.reverse_cons,
    List.append_assoc, List.singleton_append] at settled ⊢
  rw [← List.head?_reverse] at begins begins'
  have same : Alike c front.reverse front'.reverse _ _ := .append (more.take p).reverse
  have ended := same.settle (letter c rfl) begins begins' passes
  rw [settled] at ended
  generalize settle passes ((more.take p).reverse ++ c :: front'.reverse) = other at ended ⊢
  cases ended with
  | settled same =>
    have positive := List.length_pos_iff.mpr same.ne_nil.1
    rw [offset] at start
    obtain ⟨-, rfl⟩ := same.eq_of_length (by rw [List.length_reverse]; omega)
    exact ⟨_, rfl, by rw [offset, List.length_cons, List.length_reverse, Nat.add_sub_cancel]⟩

end Texts

theorem getLast?_of_beginsRun {text : List Char} {s : Nat} (begins : BeginsRun text s)
    (inside : s ≤ text.length) : ∀ c ∈ (text.take s).getLast?, isRun c = false := by
  intro c last
  cases s with
  | zero => cases last
  | succ s =>
    have noRun := begins.resolve_left (Nat.succ_ne_zero s)
    rw [Nat.add_sub_cancel, isAt_iff inside, Bool.not_eq_true] at noRun
    rw [List.take_add_one, List.getElem?_eq_getElem inside, Option.toList_some,
      List.getLast?_concat] at last
    cases last
    exact noRun

/-- The text `kept` between `front` and `after` may be put between `front'` and `after'`: a word
that `find` finds at its front is found there again, as long as no character of a run is glued to
the front. -/
theorem find_append_append {front kept after front' word : String} {passes i p : Nat} {a : Char}
    (after' : String) (here : kept.toList[i]? = some a)
    (looked : p = if isBreak a then i else i + 1) (inside : p < kept.length)
    (begins : ∀ c ∈ front.toList.getLast?, isRun c = false)
    (begins' : ∀ c ∈ front'.toList.getLast?, isRun c = false)
    (found : find passes (front ++ kept ++ after) (front.length + i) = ⟨word, front.length⟩)
    (named : word ≠ "") (ends : word.length < kept.length) :
    find passes (front' ++ kept ++ after') (front'.length + i) = ⟨word, front'.length⟩ := by
  have rest : ∀ before behind : String, (before ++ kept ++ behind).toList.drop before.length
      = kept.toList ++ behind.toList := by
    intro before behind
    rw [String.toList_append, String.toList_append, List.append_assoc, ← String.length_toList,
      List.drop_left]
  rw [find] at found
  split at found
  next landed settled =>
    obtain ⟨text, start⟩ := Word.mk.inj found
    rw [start, rest] at text
    subst text
    rw [String.length_ofList, ← String.length_toList] at ends
    have letter : ∀ c ∈ kept.toList.head?, c.isLower = true := by
      intro c first
      obtain ⟨more, shape⟩ := List.head?_eq_some_iff.mp first
      by_contra other
      rw [shape, List.cons_append, List.takeWhile_cons_of_neg other] at named
      exact named rfl
    simp only [String.toList_append, ← String.length_toList] at settled start
    obtain ⟨landed', settled', start'⟩ :=
      settle_behind after'.toList here looked inside letter begins begins' settled start
    simp only [← String.toList_append, String.length_toList] at settled' start'
    rw [find, settled']
    simp only [start', rest, takeWhile_append_append after'.toList ends]
  next => exact absurd (congrArg Word.text found).symm named

theorem getElem?_extract {entries : List Char} {s e i : Nat} (inside : i < e - s) :
    (entries.extract s e)[i]? = entries[s + i]? := by
  rw [List.extract_eq_take_drop, List.getElem?_take_of_lt inside, List.getElem?_drop]

/-- A `text` is what stands before, between and behind the offsets `s` and `e`. -/
theorem exists_append_extract {text : String} {s e : Nat} (ordered : s ≤ e)
    (inside : e ≤ text.length) :
    ∃ front kept after, text = front ++ kept ++ after
      ∧ kept = String.ofList (text.toList.extract s e) ∧ front.toList = text.toList.take s
      ∧ front.length = s ∧ kept.length = e - s := by
  refine ⟨String.ofList (text.toList.take s), _, String.ofList (text.toList.drop e), ?_, rfl,
    String.toList_ofList, ?_, ?_⟩
  · have rest : (text.toList.drop s).drop (e - s) = text.toList.drop e := by
      rw [List.drop_drop, Nat.add_sub_cancel' ordered]
    rw [← String.toList_inj]
    simp only [String.toList_append, String.toList_ofList, List.extract_eq_take_drop, ← rest,
      List.append_assoc, List.take_append_drop]
  · rw [String.length_ofList, List.length_take_of_le (Nat.le_trans ordered inside)]
  · rw [String.length_ofList, List.extract_eq_take_drop, List.length_take_of_le]
    rw [List.length_drop]
    exact Nat.sub_le_sub_right inside s

/-- A word that `find` finds in `text` is found again in every text that has the characters from
`word.start` to `max word.stop p`, where `p` is the place at which the search began.  The cursor,
which is not the last place of `text`, stands as far behind `word.start` as before, and no character
of a run may be glued to the front of the word. -/
theorem find_embedded {passes cursor p : Nat} {text : String} {word : Word}
    (found : find passes text cursor = word) (named : word.text ≠ "")
    (behind : word.start ≤ cursor) (inside : cursor + 1 < text.length)
    (ends : word.stop < text.length)
    (looked : p = if text.toList[cursor]? = some ' ' ∨ text.toList[cursor]? = some '\n' then cursor
      else cursor + 1)
    (before after : String) (begins : ∀ c ∈ before.toList.getLast?, isRun c = false) :
    find passes
        (before ++ String.ofList (text.toList.extract word.start (max word.stop p + 1)) ++ after)
        (before.length + (cursor - word.start)) = ⟨word.text, before.length⟩ := by
  have whole := isWhole_find passes text cursor
  have first := start_lt_stop named
  rw [found] at whole
  obtain ⟨i, rfl⟩ := Nat.exists_eq_add_of_le behind
  obtain ⟨a, there⟩ : ∃ a, text.toList[word.start + i]? = some a :=
    ⟨_, List.getElem?_eq_getElem (Nat.lt_of_succ_lt inside)⟩
  simp only [there, Option.some.injEq, ← isBreak_iff] at looked
  -- The search began at the cursor or at the next place, and so inside of what is kept.
  have place : p = word.start + if isBreak a then i else i + 1 := by
    rw [looked]
    split <;> rfl
  have near : word.start + i ≤ p ∧ p < text.length := by
    split at looked <;> omega
  have ordered : word.start ≤ max word.stop p + 1 := by omega
  have within : max word.stop p + 1 ≤ text.length := by omega
  obtain ⟨front, kept, rest, split, extracted, cut, start, long⟩ :=
    exists_append_extract ordered within
  have begins' : ∀ c ∈ front.toList.getLast?, isRun c = false := by
    rw [cut]
    exact getLast?_of_beginsRun (whole.begins named) (Nat.le_of_lt (first.trans ends))
  have here : kept.toList[i]? = some a := by
    rw [extracted, String.toList_ofList, getElem?_extract (by omega), there]
  have found' : find passes (front ++ kept ++ rest) (front.length + i)
      = ⟨word.text, front.length⟩ := by
    rw [← split, start]
    exact found
  have short : word.text.length < kept.length := by
    rw [long, stop]
    omega
  rw [← extracted, Nat.add_sub_cancel_left]
  exact find_append_append after here rfl (by omega) begins' begins found' named short

/-- Two passes find `tx` across the colour `#f80`, and they do so again behind a bracket and with
another word at the end of the line. -/
theorem find_embedded_colour :
    (find 2 "ab tx #f80 1 cd" 10 = ⟨"tx", 3⟩
      ∧ 10 = (if "ab tx #f80 1 cd".toList[10]? = some ' '
        ∨ "ab tx #f80 1 cd".toList[10]? = some '\n' then 10 else 11)
      ∧ ∀ c ∈ "(".toList.getLast?, isRun c = false)
    ∧ find 2 "(tx #f80 9tx" 8 = ⟨"tx", 1⟩ := by
  have found : find 2 "ab tx #f80 1 cd" 10 = ⟨"tx", 3⟩ := by decide
  have begins : ∀ c ∈ "(".toList.getLast?, isRun c = false := by
    intro c last
    cases (last : some '(' = some c)
    rfl
  refine ⟨⟨found, rfl, begins⟩, ?_⟩
  have embedded := find_embedded found (by decide) (by decide) (by decide) (by decide) rfl "(" "9tx"
    begins
  have text : "(" ++ String.ofList ("ab tx #f80 1 cd".toList.extract 3 (max 5 10 + 1)) ++ "9tx"
      = "(tx #f80 9tx" := by decide
  rw [← text]
  exact embedded

end Wordbook.Word
