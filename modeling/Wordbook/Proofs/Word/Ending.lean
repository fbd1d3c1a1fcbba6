import Wordbook.Proofs.Word.Command

/-!
# The word that ends at a cursor

A word is completed while the cursor stands right behind its last letter.  This module says when
`find` returns that word for the cursor: one `pass` goes back to its start, unless it stays on an
anchor behind the cursor (`anchorAhead`).

## Main Definitions

* `glance` — the characters behind a cursor that a search looks at
* `anchorAhead` — among them is an anchor apart from the word
* `EndsAt` — a word with what stands around it

## Main Statements

* `pass_glance` — a pass that begins behind a word ends where the run of the word begins
* `find_eq_iff_endsAt` — the word is found exactly if it ends at the cursor

## Design Notes

A cursor behind a word lets the search see at most two more characters, and these do not depend on
the word.  So what is true of one word at a place is true of any other in its stead.
-/

namespace Wordbook.Word

/-! ### What follows the cursor -/

/-- The characters of `after`, which stands behind a cursor, that a search from the cursor looks at:
one if it is a break, and otherwise two. -/
def glance : List Char → List Char
  | a :: b :: _ => if isBreak a then [a] else [a, b]
  | after => after

/-- An anchor stands in `after`, apart from the word in front by one character that is neither of a
run nor a break.  A `pass` from right behind the word then stays on that anchor. -/
def anchorAhead : List Char → Bool
  | a :: b :: _ => !isBreak a && !isRun a && isAnchor b
  | _ => false

variable {front after back : List Char} {c : Char}

theorem take_length_glance (after : List Char) :
    after.take (glance after).length = glance after := by
  unfold glance
  split
  · split <;> rfl
  · exact List.take_length

theorem entry_append (present : front ≠ []) :
    entry (front ++ after) front.length + 1 = front.length + (glance after).length := by
  have positive := List.length_pos_iff.mpr present
  rcases after with _ | ⟨a, _ | ⟨b, more⟩⟩
  · rw [List.append_nil, entry, Nat.min_eq_right (Nat.sub_le _ 1),
      List.getElem?_eq_getElem (Nat.sub_lt positive Nat.one_pos)]
    simp only [glance, List.length_nil]
    split <;> omega
  · rw [entry]
    simp [glance]
  · have inside : min front.length ((front ++ a :: b :: more).length - 1) = front.length := by
      simp only [List.length_append, List.length_cons]
      omega
    rw [entry, inside, List.getElem?_append_right (Nat.le_refl _), Nat.sub_self,
      List.getElem?_cons_zero]
    simp only [glance]
    split
    · rfl
    · simp only [List.length_append, List.length_cons, List.length_nil]
      omega

/-- A search from right behind `front` goes back over `glance after`, and then over `front`. -/
theorem behind_append (present : front ≠ []) :
    behind (front ++ after) front.length = (glance after).reverse ++ front.reverse := by
  rw [behind, entry_append present, List.take_length_add_append, take_length_glance,
    List.reverse_append]

theorem onColour_of_ne (apart : c ≠ '#') : onColour (c :: back) = false := by
  rw [← Bool.not_eq_true, onColour_iff]
  rintro ⟨further, equal⟩
  exact apart (List.cons.inj equal).1

theorem ne_sign_of_isAnchor (anchor : isAnchor c = true) : c ≠ '#' := by
  rintro rfl
  exact absurd anchor (by decide)

/-- A `pass` that begins one character behind the letter `c` goes back to where the run of `c`
begins. -/
theorem pass_cons_cons (lower : c.isLower = true) (a : Char) :
    pass (a :: c :: back) = toRunStart (c :: back) := by
  rw [pass, toAnchor]
  split
  · rw [toRunStart, if_pos (isRun_of_isLower c lower)]
  · rw [toAnchor_of_isAnchor back (isAnchor_of_isLower c lower)]

/-- A `pass` that begins two characters behind the letter `c` stays there, on an anchor `b` that `a`
keeps apart from `c`, or goes back to where the run of `c` begins. -/
theorem pass_cons_cons_cons (lower : c.isLower = true) (a b : Char) :
    pass (b :: a :: c :: back)
      = if !isRun a && isAnchor b then b :: a :: c :: back else toRunStart (c :: back) := by
  by_cases anchor : isAnchor b = true
  · rw [pass, toAnchor_of_isAnchor _ anchor, toRunStart, anchor, Bool.and_true]
    cases run : isRun a
    · rfl
    · rw [if_pos rfl, toRunStart, if_pos (isRun_of_isLower c lower)]
      rfl
  · rw [pass, toAnchor, if_neg anchor, Bool.eq_false_iff.mpr anchor, Bool.and_false]
    exact pass_cons_cons lower a

theorem anchorAhead_iff : anchorAhead after = true
    ↔ ∃ a b more, after = a :: b :: more ∧ isBreak a = false ∧ isRun a = false
      ∧ isAnchor b = true := by
  constructor
  · intro ahead
    unfold anchorAhead at ahead
    split at ahead
    next a b more =>
      simp only [Bool.and_eq_true, Bool.not_eq_true'] at ahead
      exact ⟨a, b, more, rfl, ahead.1.1, ahead.1.2, ahead.2⟩
    next => cases ahead
  · rintro ⟨a, b, more, rfl, noBreak, noRun, anchor⟩
    simp only [anchorAhead, noBreak, noRun, anchor, Bool.not_false, Bool.and_true]

theorem exists_anchor_of_anchorAhead (ahead : anchorAhead after = true) :
    ∃ a b, glance after = [a, b] ∧ isAnchor b = true := by
  obtain ⟨a, b, more, rfl, noBreak, -, anchor⟩ := anchorAhead_iff.mp ahead
  exact ⟨a, b, by rw [glance, noBreak]; rfl, anchor⟩

/-- A `pass` that begins at the end of `glance after` goes back to where the run of the letter `c`
begins, unless `anchorAhead after`. -/
theorem pass_glance (lower : c.isLower = true) (after : List Char) :
    pass ((glance after).reverse ++ c :: back)
      = if anchorAhead after then (glance after).reverse ++ c :: back
        else toRunStart (c :: back) := by
  rcases after with _ | ⟨a, _ | ⟨b, more⟩⟩
  · show pass (c :: back) = toRunStart (c :: back)
    rw [pass, toAnchor_of_isAnchor back (isAnchor_of_isLower c lower)]
  · exact pass_cons_cons lower a
  · cases stops : isBreak a
    · simp only [glance, anchorAhead, stops, Bool.not_false, Bool.true_and]
      exact pass_cons_cons_cons lower a b
    · simp only [glance, anchorAhead, stops, Bool.not_true, Bool.false_and]
      exact pass_cons_cons lower a

/-! ### Going back -/

/-- Where `settle` ends is no further than where it begins. -/
theorem length_le_of_settle {passes : Nat} {landed : List Char}
    (settled : settle passes back = .settled landed) : landed.length ≤ back.length := by
  induction passes generalizing back with
  | zero => cases settled
  | succ passes ih =>
    rw [settle_succ] at settled
    split at settled
    · exact Nat.le_trans (ih settled) (pass_suffix back).length_le
    · cases settled
      exact (pass_suffix back).length_le

/-- The walk `toRunStart` from behind `run` ends where it would end from the first character of the
run. -/
theorem toRunStart_append {run : List Char} (all : ∀ d ∈ run, isRun d = true)
    (first : isRun c = true) : toRunStart (run ++ c :: back) = toRunStart (c :: back) := by
  induction run with
  | nil => rfl
  | cons d run ih =>
    have rest := ih fun e member => all e (List.mem_cons_of_mem d member)
    rw [← rest]
    cases run with
    | nil => simp only [List.cons_append, List.nil_append, toRunStart, first, if_true]
    | cons e run =>
      have next := all e (List.mem_cons_of_mem d List.mem_cons_self)
      simp only [List.cons_append, toRunStart, next, if_true]

/-! ### The word -/

/-- The `word` stands between `before` and `after`, and a search from right behind it comes back to
its start. -/
structure EndsAt (before word after : List Char) : Prop where
  /-- It is not empty. -/
  named : word ≠ []
  /-- It is made of lower-case letters. -/
  letters : ∀ c ∈ word, c.isLower = true
  /-- Nothing is glued to its front. -/
  begins : ∀ c ∈ before.getLast?, isRun c = false
  /-- It does not go on in `after`. -/
  ends : ∀ c ∈ after.head?, c.isLower = false
  /-- The search does not stay behind it. -/
  noAnchor : anchorAhead after = false

/-- Any `other` word may take the place of one that ends at the cursor, as `before` and `after` are
all that `EndsAt` depends on. -/
theorem EndsAt.replace {before word after other : List Char} (ended : EndsAt before word after)
    (named : other ≠ []) (letters : ∀ c ∈ other, c.isLower = true) : EndsAt before other after :=
  { ended with named, letters }

section Landing

variable {before word after : List Char} {passes : Nat} {landed : List Char}

/-- From behind a word the walk `toRunStart` goes back to the start of the run before its first
letter. -/
theorem toRunStart_word {first : Char} {more : List Char}
    (letters : ∀ c ∈ first :: more, c.isLower = true) :
    toRunStart ((first :: more).reverse ++ back) = toRunStart (first :: back) := by
  have runs : ∀ c ∈ more.reverse, isRun c = true := fun c member =>
    isRun_of_isLower c (letters c (List.mem_cons_of_mem first (List.mem_reverse.mp member)))
  rw [List.reverse_cons, List.append_assoc]
  exact toRunStart_append runs (isRun_of_isLower first (letters first List.mem_cons_self))

/-- The first `pass` from right behind `word`. -/
theorem pass_behind_word (named : word ≠ []) (letters : ∀ c ∈ word, c.isLower = true)
    (before after : List Char) :
    pass (behind (before ++ word ++ after) (before ++ word).length)
      = if anchorAhead after then (glance after).reverse ++ (before ++ word).reverse
        else toRunStart (word.reverse ++ before.reverse) := by
  rcases List.eq_nil_or_concat word with rfl | ⟨front, c, rfl⟩
  · exact absurd rfl named
  · rw [List.concat_eq_append] at letters ⊢
    have lower := letters c List.mem_concat_self
    have shape : (before ++ (front ++ [c])).reverse = c :: (front.reverse ++ before.reverse) := by
      simp only [List.reverse_append, List.reverse_singleton, List.cons_append, List.nil_append]
    rw [behind_append (by simp), shape, pass_glance lower, List.reverse_concat]
    rfl

theorem toRunStart_of_begins (begins : ∀ d ∈ before.getLast?, isRun d = false) :
    toRunStart (c :: before.reverse) = c :: before.reverse := by
  rcases List.eq_nil_or_concat before with rfl | ⟨front, d, rfl⟩
  · rfl
  · rw [List.concat_eq_append] at begins ⊢
    rw [List.reverse_concat, toRunStart, begins d List.getLast?_concat]
    rfl

/-- Where `word` ends at the cursor, the first `pass` settles the search at its start. -/
theorem settle_of_endsAt (ended : EndsAt before word after) (enough : 0 < passes) :
    ∃ c, settle passes (behind (before ++ word ++ after) (before ++ word).length)
      = .settled (c :: before.reverse) := by
  obtain ⟨passes, rfl⟩ := Nat.exists_eq_add_one.mpr enough
  obtain ⟨first, more, rfl⟩ := List.exists_cons_of_ne_nil ended.named
  have lower := ended.letters first List.mem_cons_self
  refine ⟨first, ?_⟩
  rw [settle_succ, pass_behind_word ended.named ended.letters, ended.noAnchor]
  simp only [Bool.false_eq_true, if_false]
  rw [toRunStart_word ended.letters, toRunStart_of_begins ended.begins,
    onColour_of_ne (ne_sign_of_isAnchor (isAnchor_of_isLower first lower))]
  rfl

/-- Where `settle` ends at the start of `word`, it has not stayed on an anchor in `after`. -/
theorem noAnchor_of_settle (named : word ≠ []) (letters : ∀ c ∈ word, c.isLower = true)
    (settled : settle (passes + 1) (behind (before ++ word ++ after) (before ++ word).length)
      = .settled landed) (start : offset landed = before.length) : anchorAhead after = false := by
  by_contra ahead
  rw [Bool.not_eq_false] at ahead
  obtain ⟨a, b, glanced, anchor⟩ := exists_anchor_of_anchorAhead ahead
  have landing : landed = b :: a :: (before ++ word).reverse := by
    rw [settle_succ, pass_behind_word named letters, if_pos ahead, glanced, List.reverse_cons,
      List.reverse_singleton, List.singleton_append, List.cons_append, List.singleton_append,
      onColour_of_ne (ne_sign_of_isAnchor anchor)] at settled
    cases settled
    rfl
  rw [landing, offset, List.length_cons, List.length_cons, List.length_reverse,
    List.length_append] at start
  omega

/-- Where `settle` ends at the start of `word`, the last character of `before` is of no run. -/
theorem begins_of_settle (named : word ≠ []) (letters : ∀ c ∈ word, c.isLower = true)
    (noAnchor : anchorAhead after = false)
    (settled : settle (passes + 1) (behind (before ++ word ++ after) (before ++ word).length)
      = .settled landed) (start : offset landed = before.length) :
    ∀ c ∈ before.getLast?, isRun c = false := by
  intro d last
  by_contra glued
  rw [Bool.not_eq_false] at glued
  obtain ⟨front, rfl⟩ := List.getLast?_eq_some_iff.mp last
  obtain ⟨first, more, rfl⟩ := List.exists_cons_of_ne_nil named
  rw [settle_succ, pass_behind_word named letters, noAnchor, if_neg Bool.false_ne_true,
    toRunStart_word letters, List.reverse_concat, toRunStart, if_pos glued] at settled
  have walked := (toRunStart_suffix (d :: front.reverse)).length_le
  have short : landed.length ≤ (d :: front.reverse).length := by
    split at settled
    · exact Nat.le_trans (length_le_of_settle settled) walked
    · cases settled
      exact walked
  rw [List.length_cons, List.length_reverse] at short
  rw [offset, List.length_append, List.length_singleton] at start
  omega

end Landing

/-! ### Finding it -/

/-- All of `word` is taken by `List.takeWhile`, and nothing more, exactly if it does not go on in
`after`. -/
theorem takeWhile_eq_word_iff {word after : List Char} :
    (word ++ after).takeWhile Char.isLower = word
      ↔ (∀ c ∈ word, c.isLower = true) ∧ ∀ c ∈ after.head?, c.isLower = false := by
  refine ⟨fun whole => ?_, fun ⟨letters, ends⟩ => takeWhile_word letters ends⟩
  have letters : ∀ c ∈ word, c.isLower = true := by
    rw [← whole]
    exact List.all_eq_true.mp List.all_takeWhile
  refine ⟨letters, ?_⟩
  rintro c first
  by_contra lower
  rw [Bool.not_eq_false] at lower
  obtain ⟨more, rfl⟩ := List.head?_eq_some_iff.mp first
  rw [List.takeWhile_append_of_pos letters, List.takeWhile_cons_of_pos lower,
    List.append_right_eq_self] at whole
  cases whole

/-- For a cursor right behind `word`, the result of `find` is `word` at its place exactly if
`EndsAt before word after` and a pass may be taken. -/
theorem find_eq_iff_endsAt {before word after : String} {passes : Nat} (named : word ≠ "") :
    find passes (before ++ word ++ after) (before.length + word.length) = ⟨word, before.length⟩
      ↔ 0 < passes ∧ EndsAt before.toList word.toList after.toList := by
  have nonempty : word.toList ≠ [] := fun empty => named (String.toList_eq_nil_iff.mp empty)
  have parts : (before ++ word ++ after).toList = before.toList ++ word.toList ++ after.toList := by
    rw [String.toList_append, String.toList_append]
  have cursor : before.length + word.length = (before.toList ++ word.toList).length := by
    rw [List.length_append, String.length_toList, String.length_toList]
  have rest : (before.toList ++ word.toList ++ after.toList).drop before.length
      = word.toList ++ after.toList := by
    rw [List.append_assoc, ← String.length_toList, List.drop_left]
  rw [find, parts, cursor]
  constructor
  · intro found
    cases settled : settle passes (behind (before.toList ++ word.toList ++ after.toList)
      (before.toList ++ word.toList).length) with
    | spent back =>
      rw [settled] at found
      exact absurd (congrArg Word.text found).symm named
    | settled back =>
      rw [settled] at found
      obtain ⟨text, start⟩ := Word.mk.inj found
      rw [start, rest, ← String.toList_inj, String.toList_ofList, takeWhile_eq_word_iff] at text
      obtain ⟨letters, ends⟩ := text
      rw [← String.length_toList] at start
      cases passes with
      | zero => cases settled
      | succ passes =>
        have noAnchor := noAnchor_of_settle nonempty letters settled start
        have begins := begins_of_settle nonempty letters noAnchor settled start
        exact ⟨Nat.succ_pos passes, nonempty, letters, begins, ends, noAnchor⟩
  · rintro ⟨enough, ended⟩
    obtain ⟨c, settled⟩ := settle_of_endsAt ended enough
    have start : offset (c :: before.toList.reverse) = before.length := by
      rw [offset, List.length_cons, List.length_reverse, String.length_toList, Nat.add_sub_cancel]
    rw [settled]
    simp only [start, rest, takeWhile_word ended.letters ended.ends, String.ofList_toList]

end Wordbook.Word
