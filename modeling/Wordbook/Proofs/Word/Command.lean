import Wordbook.Completion
import Wordbook.Proofs.Word.Find

/-!
# Cursors in a command

For every cursor in a command or its arguments, `find` returns the name of the command.

## Main Definitions

* `IsMaximalRun` — word characters in a row, as many as there are
* `IsApart` — such a run with a letter, behind a command and apart from it
* `HasCommand` — a command with arguments up to the end of the text

## Main Statements

* `HasCommand.isLast_isStart` — the command is the last start for every search that begins in it or
  behind it
* `find_command` — the command is found, and completed, for every cursor in it or behind it

## Design Notes

A later start than that of the command would be a run with a letter among its arguments, and those
are colours that stand apart.  Runs of digits have no anchor, and what is glued to the command is
part of its run.
-/

namespace Wordbook.Word

/-! ### Runs -/

/-- The characters from `i` up to `j` are those of a run, as many as there are in a row. -/
def IsMaximalRun (text : List Char) (i j : Nat) : Prop :=
  i < j ∧ BeginsRun text i ∧ (∀ k < j, i ≤ k → IsAt isRun text k) ∧ ¬ IsAt isRun text j

instance (text : List Char) (i j : Nat) : Decidable (IsMaximalRun text i j) :=
  inferInstanceAs (Decidable (_ ∧ _ ∧ (∀ k < j, i ≤ k → _) ∧ ¬ _))

/-- A `run` with a lower-case letter begins behind `stop` and does not touch it. -/
def IsApart (text : List Char) (stop : Nat) (run : Nat × Nat) : Prop :=
  stop < run.1 ∧ IsMaximalRun text run.1 run.2
    ∧ ∃ k < run.2, run.1 ≤ k ∧ IsAt Char.isLower text k

instance (text : List Char) (stop : Nat) (run : Nat × Nat) : Decidable (IsApart text stop run) :=
  inferInstanceAs (Decidable (_ ∧ _ ∧ ∃ k < run.2, _))

/-- The runs of `text` that are `IsApart` from `stop`, as pairs of offsets. -/
def apartRuns (text : List Char) (stop : Nat) : Finset (Nat × Nat) :=
  (Finset.range text.length ×ˢ Finset.range (text.length + 1)).filter (IsApart text stop)

variable {text : List Char} {start stop p : Nat}

/-- Where a run begins at `s` and goes on to `a`, it is part of a longest one. -/
theorem exists_isMaximalRun {s a : Nat} (begins : BeginsRun text s) (ordered : s ≤ a)
    (all : ∀ k ≤ a, s ≤ k → IsAt isRun text k) : ∃ j, a < j ∧ IsMaximalRun text s j := by
  have stops : ∃ j, a < j ∧ ¬ IsAt isRun text j := by
    refine ⟨max (a + 1) text.length, by omega, fun found => ?_⟩
    exact absurd (lt_length_of_isAt found) (by omega)
  obtain ⟨behind, noRun⟩ := Nat.find_spec stops
  refine ⟨Nat.find stops, behind, by omega, begins, ?_, noRun⟩
  intro k before above
  rcases Nat.lt_or_ge a k with beyond | inside
  · by_contra noRun'
    exact Nat.find_min stops before ⟨beyond, noRun'⟩
  · exact all k inside above

theorem mem_apartRuns {run : Nat × Nat} :
    run ∈ apartRuns text stop ↔ IsApart text stop run := by
  rw [apartRuns, Finset.mem_filter, Finset.mem_product, Finset.mem_range, Finset.mem_range,
    and_iff_right_iff_imp]
  rintro ⟨-, ⟨ordered, -, all, -⟩, -⟩
  have first := lt_length_of_isAt (all run.1 ordered (Nat.le_refl _))
  have last := lt_length_of_isAt (all (run.2 - 1) (by omega) (by omega))
  omega

/-! ### Commands -/

/-- A command stands from `start` to `stop`, and behind it are arguments up to the end of `text`. -/
structure HasCommand (text : List Char) (start stop : Nat) : Prop where
  /-- The name is not empty. -/
  named : start < stop
  /-- Nothing is glued to the front of the name. -/
  begins : BeginsRun text start
  /-- The name is made of lower-case letters. -/
  letters : ∀ i < stop, start ≤ i → IsAt Char.isLower text i
  /-- The arguments are on the line of the command. -/
  oneLine : ∀ i, stop ≤ i → text[i]? ≠ some '\n'
  /-- A run with a letter among the arguments is a colour that stands apart. -/
  colours : ∀ run, IsApart text stop run → IsColour text run.1

theorem isRun_of_isLower (c : Char) (lower : c.isLower = true) : isRun c = true := by
  rw [isRun, lower, Bool.true_or, Bool.true_or]

theorem isAnchor_of_isLower (c : Char) (lower : c.isLower = true) : isAnchor c = true := by
  rw [isAnchor, lower, Bool.true_or]

/-- A word starts where a run begins with a lower-case letter, as the letter is an anchor and no
sign of a colour. -/
theorem isStart_of_isLower (begins : BeginsRun text start)
    (letter : IsAt Char.isLower text start) (behind : start ≤ p) : IsStart text p start := by
  refine ⟨⟨behind, begins, start, behind, Nat.le_refl start, ?_, ?_⟩, ?_⟩
  · exact isAt_mono isAnchor_of_isLower letter
  · intro i below above
    omega
  · rintro ⟨-, -, sign⟩
    rw [IsAt, sign] at letter
    exact absurd letter (by decide)

namespace HasCommand

/-- A run that `Reaches` an anchor and begins behind the start of a command is one of the
`apartRuns`. -/
theorem exists_isApart (command : HasCommand text start stop) {s : Nat}
    (reached : Reaches text p s) (behind : start < s) : ∃ j, IsApart text stop (s, j) := by
  obtain ⟨-, begins, a, -, ordered, anchor, all⟩ := reached
  have apart : stop < s := by
    by_contra inside
    have letter := command.letters (s - 1) (by omega) (by omega)
    rcases begins with rfl | noRun
    · exact Nat.not_lt_zero _ behind
    · exact noRun (isAt_mono isRun_of_isLower letter)
  have letter : IsAt Char.isLower text a := by
    have inside := lt_length_of_isAt anchor
    have sameLine := command.oneLine a (by omega)
    rw [List.getElem?_eq_getElem inside] at sameLine
    rw [isAt_iff inside, isAnchor, Bool.or_eq_true, beq_iff_eq] at anchor
    rw [isAt_iff inside]
    exact anchor.resolve_right (fun feed => sameLine (congrArg some feed))
  have run : ∀ k ≤ a, s ≤ k → IsAt isRun text k := by
    intro k below above
    rcases Nat.lt_or_eq_of_le below with before | rfl
    · exact all k before above
    · exact isAt_mono isRun_of_isLower letter
  obtain ⟨j, ends, maximal⟩ := exists_isMaximalRun begins ordered run
  exact ⟨j, apart, maximal, a, ends, ordered, letter⟩

/-- For a search that begins in a command or behind it, the start of the command is the last one:
each later run that it `Reaches` is a colour. -/
theorem isLast_isStart (command : HasCommand text start stop) (behind : start ≤ p) :
    IsLast (IsStart text p) start := by
  have letter := command.letters start command.named (Nat.le_refl start)
  refine Or.inl ⟨isStart_of_isLower command.begins letter behind, ?_⟩
  rintro s ⟨reached, noColour⟩
  by_contra beyond
  obtain ⟨j, apart⟩ := command.exists_isApart reached (Nat.lt_of_not_le beyond)
  exact noColour (command.colours (s, j) apart)

/-- The `coloursBehind` a command are among the `apartRuns`, each by where it begins. -/
theorem card_coloursBehind_le (command : HasCommand text start stop) (p : Nat) :
    (coloursBehind text start p).card ≤ (apartRuns text stop).card := by
  have covered : coloursBehind text start p ⊆ (apartRuns text stop).image Prod.fst := by
    intro i member
    obtain ⟨inside, reached, -⟩ := Finset.mem_filter.mp member
    obtain ⟨above, -⟩ := Finset.mem_Ioc.mp inside
    obtain ⟨j, apart⟩ := command.exists_isApart reached above
    exact Finset.mem_image.mpr ⟨(i, j), mem_apartRuns.mpr apart, rfl⟩
  exact Nat.le_trans (Finset.card_le_card covered) Finset.card_image_le

end HasCommand

/-- The parts `before`, `word` and `args` of a text make `word` a command of
`before ++ word ++ args`. -/
theorem hasCommand_append {before word args : List Char} (named : word ≠ [])
    (letters : ∀ c ∈ word, c.isLower = true) (begins : ∀ c ∈ before.getLast?, isRun c = false)
    (oneLine : '\n' ∉ args)
    (colours : ∀ run, IsApart (before ++ word ++ args) (before.length + word.length) run →
      IsColour (before ++ word ++ args) run.1) :
    HasCommand (before ++ word ++ args) before.length (before.length + word.length) where
  named := Nat.lt_add_of_pos_right (List.length_pos_iff.mpr named)
  begins := by
    rcases List.eq_nil_or_concat before with rfl | ⟨front, c, rfl⟩
    · exact Or.inl rfl
    · refine Or.inr ?_
      rw [List.concat_eq_append] at begins ⊢
      have last := begins c List.getLast?_concat
      have place : (front ++ [c] ++ word ++ args)[(front ++ [c]).length - 1]? = some c := by
        simp only [List.length_append, List.length_singleton, Nat.add_sub_cancel, List.append_assoc,
          List.getElem?_append_right (Nat.le_refl _), Nat.sub_self, List.cons_append,
          List.getElem?_cons_zero]
      rw [IsAt, place, Option.any_some, last]
      exact Bool.false_ne_true
  letters i below above := by
    have inside : i - before.length < word.length := by omega
    rw [IsAt, List.append_assoc, List.getElem?_append_right above,
      List.getElem?_append_left inside, List.getElem?_eq_getElem inside, Option.any_some]
    exact letters _ (List.getElem_mem inside)
  oneLine i above feed := by
    rw [← List.length_append] at above
    rw [List.getElem?_append_right above] at feed
    exact oneLine (List.mem_of_getElem? feed)
  colours := colours

/-- All of `word` is taken by `List.takeWhile` if `args` does not go on with a lower-case letter. -/
theorem takeWhile_word {word args : List Char} (letters : ∀ c ∈ word, c.isLower = true)
    (ends : ∀ c ∈ args.head?, c.isLower = false) :
    (word ++ args).takeWhile Char.isLower = word := by
  rw [List.takeWhile_append_of_pos letters]
  cases args with
  | nil => exact List.append_nil word
  | cons c more =>
    have noLetter := ends c rfl
    rw [List.takeWhile_cons_of_neg (Bool.eq_false_iff.mp noLetter), List.append_nil]

/-- Where `text` is `before ++ word ++ args`, the name `word` has nothing glued to its front, `args`
stays on one line, and each run with a letter that is apart from the word is a colour behind a
space, `find` returns `word` for every cursor from `before.length` on, and `Completer.complete`
returns the same completion for all of them.  This takes more `passes` than there are such
colours. -/
theorem find_command {text before word args : String} (split : text = before ++ word ++ args)
    (named : word ≠ "") (letters : ∀ c ∈ word.toList, c.isLower = true)
    (begins : ∀ c ∈ before.toList.getLast?, isRun c = false)
    (ends : ∀ c ∈ args.toList.head?, c.isLower = false) (oneLine : '\n' ∉ args.toList)
    (colours : ∀ run, IsApart text.toList (before.length + word.length) run →
      text.toList[run.1]? = some '#' ∧ text.toList[run.1 - 1]? = some ' ')
    {passes : Nat}
    (enough : (apartRuns text.toList (before.length + word.length)).card < passes) :
    (∀ cursor ≥ before.length, find passes text cursor = ⟨word, before.length⟩)
      ∧ ∀ (d : Dictionary), ∀ cursor ≥ before.length, ∀ other ≥ before.length,
        (Completer.mk d passes).complete text cursor
          = (Completer.mk d passes).complete text other := by
  subst split
  have parts : (before ++ word ++ args).toList = before.toList ++ word.toList ++ args.toList := by
    rw [String.toList_append, String.toList_append]
  have apart : ∀ run, IsApart (before.toList ++ word.toList ++ args.toList)
      (before.toList.length + word.toList.length) run →
        IsColour (before.toList ++ word.toList ++ args.toList) run.1 := by
    intro run found
    rw [← parts] at found ⊢
    obtain ⟨sign, space⟩ := colours run found
    exact ⟨Nat.lt_of_le_of_lt (Nat.zero_le _) found.1, space, sign⟩
  have nonempty : word.toList ≠ [] := fun empty => named (String.toList_eq_nil_iff.mp empty)
  have command := hasCommand_append nonempty letters begins oneLine apart
  rw [← parts] at command
  have inside : before.length < (before ++ word ++ args).toList.length :=
    lt_length_of_isAt (command.letters before.length command.named (Nat.le_refl _))
  have word_eq : ((before ++ word ++ args).toList.drop before.length).takeWhile Char.isLower
      = word.toList := by
    rw [parts, List.append_assoc]
    show ((before.toList ++ (word.toList ++ args.toList)).drop before.toList.length).takeWhile _ = _
    rw [List.drop_left, takeWhile_word letters ends]
  have found : ∀ cursor ≥ before.length,
      find passes (before ++ word ++ args) cursor = ⟨word, before.length⟩ := by
    intro cursor behind
    have last := command.isLast_isStart (le_entry inside behind)
    have fewer := command.card_coloursBehind_le (entry (before ++ word ++ args).toList cursor)
    have some : 0 < (before ++ word ++ args).toList.length := Nat.zero_lt_of_lt inside
    have result := find_of_isLast some last (Nat.lt_of_le_of_lt fewer enough)
    have same : before.toList.length = before.length := rfl
    rw [same, word_eq, String.ofList_toList] at result
    exact result
  refine ⟨found, ?_⟩
  intro d cursor behind other behind'
  simp only [Completer.complete, found cursor behind, found other behind']

/-- Every cursor from the second line of a script on belongs to `tx`. -/
theorem find_command_colour :
    (∀ cursor ≥ 3, find 2 "ab\ntx 5 #f0" cursor = ⟨"tx", 3⟩)
      ∧ ∀ (d : Dictionary), ∀ cursor ≥ 3, ∀ other ≥ 3,
        (Completer.mk d 2).complete "ab\ntx 5 #f0" cursor
          = (Completer.mk d 2).complete "ab\ntx 5 #f0" other := by
  have colours : ∀ run ∈ apartRuns "ab\ntx 5 #f0".toList 5,
      "ab\ntx 5 #f0".toList[run.1]? = some '#'
        ∧ "ab\ntx 5 #f0".toList[run.1 - 1]? = some ' ' := by
    decide
  have split : "ab\ntx 5 #f0" = "ab\n" ++ "tx" ++ " 5 #f0" := by decide
  have begins : ∀ c ∈ "ab\n".toList.getLast?, isRun c = false := by
    intro c last
    cases (last : some '\n' = some c)
    rfl
  have ends : ∀ c ∈ " 5 #f0".toList.head?, c.isLower = false := by
    intro c first
    cases (first : some ' ' = some c)
    rfl
  exact find_command split (by decide) (List.all_eq_true.mp rfl) begins ends (by decide)
    (fun run found => colours run (mem_apartRuns.mpr found)) (by decide)

end Wordbook.Word
