import Wordbook.Proofs.Choices

/-!
# Where a word is completed

When `wordEndingAt` returns a completion.  At the end of a line this depends on the last characters
of the line and on nothing else.  Inside a line it also depends on the two characters behind the
cursor: with `Word.anchorAhead` the search stays behind the cursor, and the word is not completed.

## Main Definitions

* `Word.IsLongestEnd` — the longest end of a text that is made of characters of a kind

## Main Statements

* `Word.endsAt_nil_iff` — a word ends a line if it is all that the line ends in
* `wordEndingAt_lineEnd` — what is completed at the end of a line
* `wordEndingAt_midLine_iff` — when a word is completed in front of other text
* `not_forall_wordEndingAt` — not every word is completed in front of other text
-/

namespace Wordbook

open Text (byteLength charOffset)

namespace Word

variable {kind : Char → Bool} {text front run other before word : List Char}

/-! ### The end of a line -/

/-- The list `run` is the longest end of `text` that is made of characters of a `kind`. -/
structure IsLongestEnd (kind : Char → Bool) (text run : List Char) : Prop where
  /-- It is an end of the text. -/
  isSuffix : run <:+ text
  /-- It is made of such characters. -/
  all : ∀ c ∈ run, kind c = true
  /-- No other such end is longer. -/
  longest : ∀ other, other <:+ text → (∀ c ∈ other, kind c = true) → other.length ≤ run.length

theorem IsLongestEnd.unique (found : IsLongestEnd kind text run)
    (again : IsLongestEnd kind text other) : run = other := by
  have short := again.longest run found.isSuffix found.all
  have long := found.longest other again.isSuffix again.all
  exact (List.suffix_of_suffix_length_le found.isSuffix again.isSuffix short).eq_of_length
    (Nat.le_antisymm short long)

/-- An end is the longest exactly if the last character of `front` is of another kind. -/
theorem isLongestEnd_append_iff : IsLongestEnd kind (front ++ run) run
    ↔ (∀ c ∈ run, kind c = true) ∧ ∀ c ∈ front.getLast?, kind c = false := by
  constructor
  · rintro ⟨-, all, longest⟩
    refine ⟨all, fun c last => ?_⟩
    by_contra same
    rw [Bool.not_eq_false] at same
    obtain ⟨more, rfl⟩ := List.getLast?_eq_some_iff.mp last
    have longer := longest (c :: run) ⟨more, by rw [List.append_assoc]; rfl⟩
      (List.forall_mem_cons.mpr ⟨same, all⟩)
    exact Nat.not_succ_le_self _ longer
  · rintro ⟨all, ends⟩
    refine ⟨List.suffix_append front run, all, fun other isSuffix all' => ?_⟩
    by_contra longer
    obtain ⟨more, rfl⟩ := List.suffix_of_suffix_length_le (List.suffix_append front run) isSuffix
      (Nat.le_of_not_le longer)
    obtain ⟨further, split⟩ := isSuffix
    rw [← List.append_assoc, List.append_cancel_right_eq] at split
    rcases List.eq_nil_or_concat more with rfl | ⟨more, c, rfl⟩
    · exact longer (Nat.le_refl _)
    · rw [List.concat_eq_append] at all' split
      have other := ends c (by rw [← split, ← List.append_assoc, List.getLast?_concat]; rfl)
      rw [all' c (List.mem_append_left _ List.mem_concat_self)] at other
      cases other

/-- Every text has a longest end of a `kind`. -/
theorem exists_isLongestEnd (kind : Char → Bool) (text : List Char) :
    ∃ front run, text = front ++ run ∧ IsLongestEnd kind text run := by
  obtain ⟨later, split, all, ends⟩ := isLongest_takeWhile kind text.reverse
  generalize text.reverse.takeWhile kind = run at split all
  rw [List.reverse_eq_iff, List.reverse_append] at split
  refine ⟨later.reverse, run.reverse, split, ?_⟩
  rw [split, isLongestEnd_append_iff, List.getLast?_reverse]
  exact ⟨fun c member => all c (List.mem_reverse.mp member), ends⟩

/-- With nothing behind it, `word` is one that `EndsAt` holds for exactly if it is made of
lower-case letters and is all of the run that the line ends in. -/
theorem endsAt_nil_iff : EndsAt before word []
    ↔ word ≠ [] ∧ (∀ c ∈ word, c.isLower = true)
      ∧ IsLongestEnd isRun (before ++ word) word := by
  constructor
  · rintro ⟨named, letters, begins, -, -⟩
    have runs : ∀ c ∈ word, isRun c = true := fun c member => isRun_of_isLower c (letters c member)
    exact ⟨named, letters, isLongestEnd_append_iff.mpr ⟨runs, begins⟩⟩
  · rintro ⟨named, letters, longest⟩
    exact ⟨named, letters, (isLongestEnd_append_iff.mp longest).2, nofun, rfl⟩

end Word

namespace Completer

variable {completer : Completer} {completion : Completion}

/-- At the end of a line, where `tail` is the longest end of word characters, `wordEndingAt`
completes `tail` if it has letters only and a pass may be taken, and nothing otherwise. -/
theorem wordEndingAt_end_iff {before tail : String}
    (longest : Word.IsLongestEnd Word.isRun (before ++ tail).toList tail.toList) :
    completer.wordEndingAt (before ++ tail) (byteLength (before ++ tail).toList) = some completion
      ↔ 0 < completer.passes ∧ tail ≠ "" ∧ (∀ c ∈ tail.toList, c.isLower = true)
        ∧ completion = completer.completionOf ⟨tail, before.length⟩ := by
  constructor
  · intro found
    obtain ⟨before', word, split, enough, ended, same⟩ := exists_endsAt_of_wordEndingAt_end found
    obtain ⟨named, letters, longest'⟩ := Word.endsAt_nil_iff.mp ended
    rw [← String.toList_append, ← split] at longest'
    obtain rfl := String.toList_inj.mp (longest.unique longest')
    obtain rfl := (String.append_left_inj tail).mp split
    exact ⟨enough, mt String.toList_eq_nil_iff.mpr named, letters, same⟩
  · rintro ⟨enough, named, letters, rfl⟩
    have ended : Word.EndsAt before.toList tail.toList "".toList := Word.endsAt_nil_iff.mpr
      ⟨mt String.toList_eq_nil_iff.mp named, letters, by rwa [← String.toList_append]⟩
    have found := wordEndingAt_of_endsAt enough ended
    rwa [String.append_empty] at found

/-- In front of `after` a word is completed unless `Word.anchorAhead after`: then the search stays
on the anchor there, and `wordEndingAt` returns `none`. -/
theorem wordEndingAt_of_begins {before word after : String} (enough : 0 < completer.passes)
    (named : word ≠ "") (letters : ∀ c ∈ word.toList, c.isLower = true)
    (begins : ∀ c ∈ before.toList.getLast?, Word.isRun c = false)
    (ends : ∀ c ∈ after.toList.head?, c.isLower = false) :
    completer.wordEndingAt (before ++ word ++ after) (byteLength (before ++ word).toList)
      = if Word.anchorAhead after.toList then none
        else some (completer.completionOf ⟨word, before.length⟩) := by
  split
  next ahead =>
    rw [Option.eq_none_iff_forall_ne_some]
    intro completion found
    have inside : byteLength (before ++ word).toList
        ≤ byteLength (before ++ word ++ after).toList := by
      rw [String.toList_append (t := after), Text.byteLength_append]
      exact Nat.le_add_right _ _
    obtain ⟨before', word', after', split, same, -, ended, -⟩ :=
      exists_endsAt_of_wordEndingAt inside found
    rw [← String.toList_inj, String.toList_append (t := after),
      String.toList_append (t := after')] at split
    obtain ⟨-, rest⟩ := Text.append_inj_of_byteLength split same
    rw [rest, ended.noAnchor] at ahead
    cases ahead
  next noAnchor =>
    exact wordEndingAt_of_endsAt enough
      ⟨mt String.toList_eq_nil_iff.mp named, letters, begins, ends, Bool.eq_false_iff.mpr noAnchor⟩

end Completer

/-- At the end of `line`, or beyond it, `wordEndingAt` completes the longest row `tail` of word
characters at the end, if it is not empty and has lower-case letters only.  Otherwise, or without
any pass, it returns `none`. -/
theorem wordEndingAt_lineEnd (completer : Completer) {line : String} {pos : Nat}
    (beyond : byteLength line.toList ≤ pos) :
    ∃ before tail, line = before ++ tail
      ∧ Word.IsLongestEnd Word.isRun line.toList tail.toList
      ∧ ∀ completion, completer.wordEndingAt line pos = some completion
        ↔ 0 < completer.passes ∧ tail ≠ "" ∧ (∀ c ∈ tail.toList, c.isLower = true)
          ∧ completion = completer.completionOf ⟨tail, before.length⟩ := by
  obtain ⟨front, run, split, longest⟩ := Word.exists_isLongestEnd Word.isRun line.toList
  obtain rfl : line = String.ofList front ++ String.ofList run := by
    rw [← String.toList_inj, String.toList_append, String.toList_ofList, String.toList_ofList,
      split]
  have tail : Word.IsLongestEnd Word.isRun (String.ofList front ++ String.ofList run).toList
      (String.ofList run).toList := by rwa [String.toList_ofList]
  refine ⟨String.ofList front, String.ofList run, rfl, tail, fun completion => ?_⟩
  rw [← Completer.wordEndingAt_min, Nat.min_eq_right beyond, Completer.wordEndingAt_end_iff tail]

/-- Of a line that ends in a word behind a colour, the word is completed; from an offset beyond the
end it is the same. -/
theorem wordEndingAt_lineEnd_tx :
    let completer : Completer := ⟨(Dictionary.empty "test").addCommand { aliases := ["tx"] }, 1⟩
    byteLength "é #f0 t".toList ≤ 12
    ∧ (∃ before tail, "é #f0 t" = before ++ tail
      ∧ Word.IsLongestEnd Word.isRun "é #f0 t".toList tail.toList
      ∧ ∀ completion, completer.wordEndingAt "é #f0 t" 12 = some completion
        ↔ 0 < completer.passes ∧ tail ≠ "" ∧ (∀ c ∈ tail.toList, c.isLower = true)
          ∧ completion = completer.completionOf ⟨tail, before.length⟩)
    ∧ completer.wordEndingAt "é #f0 t" 12 = some (completer.completionOf ⟨"t", 6⟩) :=
  ⟨by decide, wordEndingAt_lineEnd _ (by decide), by decide⟩

/-- In front of `after`, which does not go on with `word`, the word is completed unless `after`
begins with two characters `a` and `b` of these kinds: `a` is no space, no line feed and no
character of a run, and `b` is a lower-case letter or a line feed.  Then `wordEndingAt` returns
`none`. -/
theorem wordEndingAt_midLine_iff {completer : Completer} {before word after : String}
    {completion : Completion} (enough : 0 < completer.passes) (named : word ≠ "")
    (letters : ∀ c ∈ word.toList, c.isLower = true)
    (begins : ∀ c ∈ before.toList.getLast?, Word.isRun c = false)
    (ends : ∀ c ∈ after.toList.head?, c.isLower = false) :
    completer.wordEndingAt (before ++ word ++ after) (byteLength (before ++ word).toList)
        = some completion
      ↔ completion = completer.completionOf ⟨word, before.length⟩
        ∧ ¬ ∃ a b more, after.toList = a :: b :: more ∧ Word.isBreak a = false
          ∧ Word.isRun a = false ∧ Word.isAnchor b = true := by
  rw [Completer.wordEndingAt_of_begins enough named letters begins ends, ← Word.anchorAhead_iff]
  split
  next ahead => simp [ahead]
  next noAnchor => simp [noAnchor, eq_comm]

/-- In front of a bracket with a digit behind it a word is completed. -/
theorem wordEndingAt_midLine_bracket :
    let completer : Completer := ⟨(Dictionary.empty "test").addCommand { aliases := ["tx"] }, 1⟩
    let completion := completer.completionOf ⟨"t", 2⟩
    (0 < completer.passes ∧ (∀ c ∈ "t".toList, c.isLower = true)
      ∧ (∀ c ∈ "é ".toList.getLast?, Word.isRun c = false)
      ∧ ∀ c ∈ "(5 ab".toList.head?, c.isLower = false)
    ∧ (completer.wordEndingAt ("é " ++ "t" ++ "(5 ab") (byteLength ("é " ++ "t").toList)
        = some completion
      ↔ completion = completion
        ∧ ¬ ∃ a b more, "(5 ab".toList = a :: b :: more ∧ Word.isBreak a = false
          ∧ Word.isRun a = false ∧ Word.isAnchor b = true)
    ∧ completer.wordEndingAt ("é " ++ "t" ++ "(5 ab") (byteLength ("é " ++ "t").toList)
      = some completion := by
  intro completer completion
  have letters : ∀ c ∈ "t".toList, c.isLower = true := List.all_eq_true.mp (by decide)
  have begins : ∀ c ∈ "é ".toList.getLast?, Word.isRun c = false := by
    intro c last
    cases (last : some ' ' = some c)
    rfl
  have ends : ∀ c ∈ "(5 ab".toList.head?, c.isLower = false := by
    intro c first
    cases (first : some '(' = some c)
    rfl
  exact ⟨⟨by decide, letters, begins, ends⟩,
    wordEndingAt_midLine_iff (by decide) (by decide) letters begins ends, by decide⟩

/-- Not every word is completed in front of other text: behind `tx` there are a tab and another
word. -/
theorem not_forall_wordEndingAt :
    ¬ ∀ (completer : Completer) (before word after : String), 0 < completer.passes → word ≠ "" →
      (∀ c ∈ word.toList, c.isLower = true) →
      (∀ c ∈ before.toList.getLast?, Word.isRun c = false) → after ≠ "" →
      (∀ c ∈ after.toList.head?, c.isLower = false) →
      ∃ completion, completer.wordEndingAt (before ++ word ++ after)
          (byteLength (before ++ word).toList) = some completion
        ∧ completion.word = ⟨word, before.length⟩ := by
  intro completed
  let completer : Completer := ⟨(Dictionary.empty "test").addCommand { aliases := ["tx"] }, 10⟩
  obtain ⟨completion, found, -⟩ := completed completer "" "tx" "\tab" (by decide) (by decide)
    (List.all_eq_true.mp (by decide)) nofun (by decide) (fun c first => by cases first; rfl)
  have missing : completer.wordEndingAt ("" ++ "tx" ++ "\tab") (byteLength ("" ++ "tx").toList)
      = none := by decide
  rw [missing] at found
  cases found

end Wordbook
