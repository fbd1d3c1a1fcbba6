import Wordbook.LineEdit
import Wordbook.Proofs.Completion
import Wordbook.Proofs.Text.Offset
import Wordbook.Proofs.Word.Ending

/-!
# Completing while a line is typed

How `choices` and `hint` change with the line: a choice that has taken the place of the word is what
`wordEndingAt` completes next, by an exact match; and while the letters of a hint are typed, the
best alias stays the same.

## Main Definitions

* `Completer.completionOf` — the completion of a word, wherever it stands

## Main Statements

* `Completer.wordEndingAt_of_endsAt`, `Completer.exists_endsAt_of_wordEndingAt` — a word is
  completed where it ends, and only there
* `Completer.exists_mem_offers_iff` — what the tab key offers for a word
* `choices_accepted` — a choice that is taken is an exact word, and offered again
* `hint_typed` — typing along the hint changes neither the best alias nor the rest of the hint

## Design Notes

Whether a word is found depends on what stands around it (`Word.EndsAt`), and neither edit changes
that.
-/

namespace Wordbook

open Text (byteLength byteOffset charOffset)

theorem toList_prefix_append (front rest : String) : front.toList <+: (front ++ rest).toList := by
  rw [String.toList_append]
  exact List.prefix_append _ _

namespace Word

/-- Lower-case letters take one byte. -/
theorem utf8Size_of_isLower {c : Char} (lower : c.isLower = true) : c.utf8Size = 1 := by
  replace lower : (decide (c.val ≥ 'a'.val) && decide (c.val ≤ 'z'.val)) = true := lower
  rw [Bool.and_eq_true, decide_eq_true_eq, decide_eq_true_eq] at lower
  rw [Char.utf8Size_eq_one_iff]
  exact UInt32.le_trans lower.2 (by decide)

/-- A word that `find` returns stands in `text` at `Word.start`. -/
theorem exists_split_of_find {text : String} {passes cursor : Nat}
    (named : (find passes text cursor).text ≠ "") :
    ∃ before after, text = before ++ (find passes text cursor).text ++ after
      ∧ before.length = (find passes text cursor).start := by
  unfold find at named ⊢
  split at named
  next back settled =>
    have inside : offset back ≤ text.toList.length := by
      by_contra beyond
      rw [List.drop_eq_nil_of_le (Nat.le_of_not_le beyond)] at named
      exact named rfl
    refine ⟨String.ofList (text.toList.take (offset back)),
      String.ofList ((text.toList.drop (offset back)).dropWhile Char.isLower), ?_, ?_⟩
    · rw [← String.toList_inj]
      simp only [String.toList_append, String.toList_ofList, List.append_assoc,
        List.takeWhile_append_dropWhile, List.take_append_drop]
    · rw [String.length_ofList, List.length_take, Nat.min_eq_left inside]
  next => exact absurd rfl named

end Word

namespace Completer

variable {completer : Completer} {line : String} {pos : Nat} {completion : Completion}

/-- The completion of `word`, wherever it stands. -/
def completionOf (completer : Completer) (word : Word) : Completion :=
  ⟨word, completer.dictionary.rank word.text (completer.dictionary.matching word.text)⟩

theorem isRankedBy_completionOf (completer : Completer) (word : Word) :
    (completer.completionOf word).IsRankedBy completer.dictionary := rfl

theorem complete_eq (completer : Completer) (text : String) (cursor : Nat) :
    completer.complete text cursor
      = completer.completionOf (Word.find completer.passes text cursor) := rfl

/-! ### The word before the cursor -/

theorem charOffset_split (before word after : String) :
    charOffset (before ++ word ++ after).toList (byteLength (before ++ word).toList)
      = before.length + word.length := by
  rw [String.toList_append, Text.charOffset_append, String.length_toList, String.length_append]

/-- Where `Word.EndsAt` holds, `wordEndingAt` completes `word`. -/
theorem wordEndingAt_of_endsAt {before word after : String} (enough : 0 < completer.passes)
    (ended : Word.EndsAt before.toList word.toList after.toList) :
    completer.wordEndingAt (before ++ word ++ after) (byteLength (before ++ word).toList)
      = some (completer.completionOf ⟨word, before.length⟩) := by
  have named : word ≠ "" := fun empty => ended.named (String.toList_eq_nil_iff.mpr empty)
  have found := (Word.find_eq_iff_endsAt named).mpr ⟨enough, ended⟩
  rw [wordEndingAt, completeAtByte, charOffset_split, complete_eq, found]
  refine if_pos ?_
  rw [Bool.and_eq_true, beq_iff_eq, Bool.not_eq_true', ← Bool.not_eq_true]
  exact ⟨mt String.isEmpty_iff.mp named, rfl⟩

/-- A byte offset `pos` that is read as the place behind `word` is right behind its last byte: the
letters of `word` take one byte each. -/
theorem eq_byteLength_of_endsAt {before word after : String}
    (ended : Word.EndsAt before.toList word.toList after.toList)
    (inside : pos ≤ byteLength (before ++ word ++ after).toList)
    (cut : charOffset (before ++ word ++ after).toList pos = before.length + word.length) :
    pos = byteLength (before ++ word).toList := by
  rcases List.eq_nil_or_concat word.toList with empty | ⟨front, c, shape⟩
  · exact absurd empty ended.named
  · rw [List.concat_eq_append] at shape
    have lower := ended.letters c (shape ▸ List.mem_concat_self)
    rw [← String.length_append, ← String.length_toList] at cut
    rw [String.toList_append] at inside cut
    rw [String.toList_append, shape, ← List.append_assoc] at inside cut ⊢
    rw [List.length_append, List.length_singleton] at cut
    exact Text.eq_byteLength_of_charOffset (Word.utf8Size_of_isLower lower) inside cut

/-- Where `wordEndingAt` has a completion, `Word.EndsAt` holds for its word. -/
theorem exists_endsAt_of_wordEndingAt (inside : pos ≤ byteLength line.toList)
    (found : completer.wordEndingAt line pos = some completion) :
    ∃ before word after, line = before ++ word ++ after
      ∧ pos = byteLength (before ++ word).toList ∧ 0 < completer.passes
      ∧ Word.EndsAt before.toList word.toList after.toList
      ∧ completion = completer.completionOf ⟨word, before.length⟩ := by
  rw [wordEndingAt, completeAtByte, complete_eq] at found
  split at found
  next holds =>
    rw [Bool.and_eq_true, beq_iff_eq, Bool.not_eq_true', ← Bool.not_eq_true] at holds
    obtain ⟨present, stop⟩ := holds
    have named := mt String.isEmpty_iff.mpr present
    obtain ⟨before, after, split, start⟩ := Word.exists_split_of_find named
    cases found
    generalize searched : Word.find completer.passes line (charOffset line.toList pos) = word at *
    obtain ⟨word, _⟩ := word
    subst split start
    have cut : charOffset (before ++ word ++ after).toList pos = before.length + word.length :=
      stop.symm
    rw [cut] at searched
    obtain ⟨enough, ended⟩ := (Word.find_eq_iff_endsAt named).mp searched
    exact ⟨before, word, after, rfl, eq_byteLength_of_endsAt ended inside cut, enough, ended, rfl⟩
  next => cases found

/-! ### What is offered -/

/-- What is offered in the place of the word of `completion`. -/
def offers (completer : Completer) (completion : Completion) : List Choice :=
  (completion.candidates.filterMap completer.dictionary.command?).flatMap
    (choicesOf completion.token)

/-- These are the aliases that the word opens, of all commands of the dictionary. -/
theorem exists_mem_offers_iff (ranked : completion.IsRankedBy completer.dictionary)
    {replacement : String} :
    (∃ choice ∈ completer.offers completion, choice.replacement = replacement)
      ↔ opens completion.token replacement = true
        ∧ ∃ command ∈ completer.dictionary.commands, replacement ∈ command.aliases := by
  constructor
  · rintro ⟨choice, offered, rfl⟩
    obtain ⟨command, listed, offered⟩ := List.mem_flatMap.mp offered
    obtain ⟨i, -, holds⟩ := List.mem_filterMap.mp listed
    obtain ⟨name, member, rfl⟩ := List.mem_map.mp offered
    obtain ⟨declared, opened⟩ := List.mem_filter.mp member
    exact ⟨opened, command, List.mem_of_getElem? holds, declared⟩
  · rintro ⟨opened, command, member, declared⟩
    obtain ⟨i, holds⟩ := List.mem_iff_getElem?.mp member
    obtain ⟨present, opened'⟩ := opens_iff.mp opened
    have listed :=
      ranked.mem_candidates.mpr ⟨present, command, holds, replacement, declared, opened'⟩
    refine ⟨⟨replacement, command.withSignature replacement⟩, List.mem_flatMap.mpr ?_, rfl⟩
    refine ⟨command, List.mem_filterMap.mpr ⟨i, listed, holds⟩, List.mem_map.mpr ?_⟩
    exact ⟨replacement, List.mem_filter.mpr ⟨declared, opened⟩, rfl⟩

/-- Where `word` ends at the cursor, `choices` offers its aliases in its place, from its first
letter on. -/
theorem choices_of_endsAt {before word after : String} (enough : 0 < completer.passes)
    (ended : Word.EndsAt before.toList word.toList after.toList) :
    completer.choices (before ++ word ++ after) (byteLength (before ++ word).toList)
      = (byteLength before.toList,
        completer.offers (completer.completionOf ⟨word, before.length⟩)) := by
  have start : byteOffset (before ++ word ++ after).toList before.length
      = byteLength before.toList := by
    rw [String.append_assoc, String.toList_append, ← String.length_toList, Text.byteOffset_append]
  rw [choices, wordEndingAt_of_endsAt enough ended]
  simp only [completionOf, start]
  rfl

end Completer

/-- Let a `choice` of lower-case letters that `choices` offers take the place of the word before the
cursor.  From right behind it, `wordEndingAt` completes the choice itself, with the same start; its
`state` is `resolved` by an exact match, and `choices` offers it again. -/
theorem choices_accepted {completer : Completer} {line : String} {pos start : Nat}
    {offered : List Choice} {choice : Choice} (inside : pos ≤ byteLength line.toList)
    (asked : completer.choices line pos = (start, offered)) (chosen : choice ∈ offered)
    (letters : ∀ c ∈ choice.replacement.toList, c.isLower = true) :
    ∃ before typed after, line = before ++ typed ++ after ∧ start = byteLength before.toList
      ∧ pos = byteLength (before ++ typed).toList
      ∧ ∃ completion again,
        completer.wordEndingAt (before ++ choice.replacement ++ after)
          (start + byteLength choice.replacement.toList) = some completion
        ∧ completion.word = ⟨choice.replacement, before.length⟩
        ∧ completion.isExact = true ∧ completion.state = .resolved
        ∧ completer.choices (before ++ choice.replacement ++ after)
          (start + byteLength choice.replacement.toList) = (start, again)
        ∧ ∃ other ∈ again, other.replacement = choice.replacement := by
  cases found : completer.wordEndingAt line pos with
  | none =>
    rw [Completer.choices, found] at asked
    cases asked
    cases chosen
  | some completion =>
    obtain ⟨before, typed, after, rfl, rfl, enough, ended, rfl⟩ :=
      Completer.exists_endsAt_of_wordEndingAt inside found
    rw [Completer.choices_of_endsAt enough ended] at asked
    obtain ⟨rfl, rfl⟩ := Prod.mk.inj asked
    -- The choice is an alias that the typed word opens.
    obtain ⟨opened, command, member, declared⟩ := (Completer.exists_mem_offers_iff
      (completer.isRankedBy_completionOf ⟨typed, before.length⟩)).mp ⟨choice, chosen, rfl⟩
    obtain ⟨present, prefixed⟩ := opens_iff.mp opened
    have named : choice.replacement.toList ≠ [] := by
      intro empty
      rw [empty, List.prefix_nil] at prefixed
      exact ended.named prefixed
    have ended' := ended.replace named letters
    have cursor : byteLength before.toList + byteLength choice.replacement.toList
        = byteLength (before ++ choice.replacement).toList := by
      rw [String.toList_append, Text.byteLength_append]
    have ranked := completer.isRankedBy_completionOf ⟨choice.replacement, before.length⟩
    have known : choice.replacement ≠ "" ∧ ∃ command ∈ completer.dictionary.commands,
        choice.replacement ∈ command.aliases :=
      ⟨mt String.toList_eq_nil_iff.mpr named, command, member, declared⟩
    refine ⟨before, typed, after, rfl, rfl, rfl,
      completer.completionOf ⟨choice.replacement, before.length⟩,
      completer.offers (completer.completionOf ⟨choice.replacement, before.length⟩),
      ?_, rfl, ?_, ?_, ?_, ?_⟩
    · rw [cursor, Completer.wordEndingAt_of_endsAt enough ended']
    · exact ranked.isExact_iff.mpr known
    · exact ranked.state_eq_resolved_iff.mpr ⟨known.1, Or.inr known.2⟩
    · rw [cursor, Completer.choices_of_endsAt enough ended']
    · have opened := opens_iff.mpr ⟨known.1, List.prefix_rfl⟩
      exact (Completer.exists_mem_offers_iff ranked).mpr ⟨opened, known.2⟩

/-- In a line with a letter of two bytes, the second of two choices is taken. -/
theorem choices_accepted_translatex :
    let completer : Completer :=
      ⟨(Dictionary.empty "test").addCommand { aliases := ["tx", "translatex"] }, 2⟩
    (4 ≤ byteLength "é t(1".toList
      ∧ completer.choices "é t(1" 4 = (3, [⟨"tx", "tx"⟩, ⟨"translatex", "translatex"⟩])
      ∧ ∀ c ∈ "translatex".toList, c.isLower = true)
    ∧ ∃ before typed after, "é t(1" = before ++ typed ++ after ∧ 3 = byteLength before.toList
      ∧ 4 = byteLength (before ++ typed).toList
      ∧ ∃ completion again,
        completer.wordEndingAt (before ++ "translatex" ++ after)
          (3 + byteLength "translatex".toList) = some completion
        ∧ completion.word = ⟨"translatex", before.length⟩
        ∧ completion.isExact = true ∧ completion.state = .resolved
        ∧ completer.choices (before ++ "translatex" ++ after)
          (3 + byteLength "translatex".toList) = (3, again)
        ∧ ∃ other ∈ again, other.replacement = "translatex" := by
  intro completer
  have asked : completer.choices "é t(1" 4
      = (3, [⟨"tx", "tx"⟩, ⟨"translatex", "translatex"⟩]) := by decide
  have inside : 4 ≤ byteLength "é t(1".toList := by decide
  have letters : ∀ c ∈ "translatex".toList, c.isLower = true :=
    List.all_eq_true.mp (by decide)
  have chosen : (⟨"translatex", "translatex"⟩ : Choice)
      ∈ [⟨"tx", "tx"⟩, (⟨"translatex", "translatex"⟩ : Choice)] :=
    List.mem_cons_of_mem _ (List.mem_singleton_self _)
  have accepted := choices_accepted inside asked chosen letters
  dsimp only at accepted
  exact ⟨⟨inside, asked, letters⟩, accepted⟩

namespace Completer

variable {completer : Completer}

/-! ### The hint -/

/-- At the end of a line the word before the cursor has nothing behind it. -/
theorem exists_endsAt_of_wordEndingAt_end
    (found : completer.wordEndingAt line (byteLength line.toList) = some completion) :
    ∃ before word, line = before ++ word ∧ 0 < completer.passes
      ∧ Word.EndsAt before.toList word.toList "".toList
      ∧ completion = completer.completionOf ⟨word, before.length⟩ := by
  obtain ⟨before, word, after, rfl, long, enough, ended, rfl⟩ :=
    exists_endsAt_of_wordEndingAt (Nat.le_refl _) found
  rw [String.toList_append, Text.byteLength_append, Nat.add_eq_left] at long
  have empty := String.toList_eq_nil_iff.mp (Text.eq_nil_of_byteLength long)
  rw [empty] at ended ⊢
  exact ⟨before, word, String.append_empty, enough, ended, rfl⟩

/-- The hint at the end of a line, for a word that the alias `word ++ rest` completes best. -/
theorem hint_of_endsAt {before word rest : String} {command : Command}
    (enough : 0 < completer.passes) (ended : Word.EndsAt before.toList word.toList "".toList)
    (best : (completer.completionOf ⟨word, before.length⟩).best completer.dictionary
      = some (command, word ++ rest)) :
    completer.hint (before ++ word) (byteLength (before ++ word).toList)
      = if command.signature = "" then (if rest = "" then none else some rest)
        else some (rest ++ " " ++ command.signature) := by
  have found := wordEndingAt_of_endsAt enough ended
  rw [String.append_empty] at found
  have left : String.ofList ((word ++ rest).toList.drop word.length) = rest := by
    rw [String.toList_append, ← String.length_toList, List.drop_left, String.ofList_toList]
  have token : (completer.completionOf ⟨word, before.length⟩).token = word := rfl
  rw [hint, if_neg (Nat.lt_irrefl _), found]
  simp only [best, token, left, Command.withSignature, Bool.and_eq_true, String.isEmpty_iff]
  by_cases bare : command.signature = ""
  · simp only [bare, true_and, if_true]
  · simp only [bare, false_and, if_false]

end Completer

/-- Let `typed ++ later` be what the best alias goes on with behind the word at the end of `line`.
Once `typed` is typed, the same alias of the same command is the best one for a word with the same
start, and `hint` shows `later` and the signature of the command, or `none` if both are empty. -/
theorem hint_typed {completer : Completer} {line typed later : String} {completion : Completion}
    {command : Command}
    (found : completer.wordEndingAt line (byteLength line.toList) = some completion)
    (hinted : completion.best completer.dictionary
      = some (command, completion.token ++ (typed ++ later)))
    (letters : ∀ c ∈ typed.toList, c.isLower = true) :
    ∃ best again best', completion.ranking.best = some best
      ∧ completer.wordEndingAt (line ++ typed) (byteLength (line ++ typed).toList) = some again
      ∧ again.word.start = completion.word.start ∧ again.ranking.best = some best'
      ∧ best'.command = best.command ∧ best'.place = best.place
      ∧ completer.hint (line ++ typed) (byteLength (line ++ typed).toList)
        = if command.signature = "" then (if later = "" then none else some later)
          else some (later ++ " " ++ command.signature) := by
  obtain ⟨before, word, rfl, enough, ended, rfl⟩ :=
    Completer.exists_endsAt_of_wordEndingAt_end found
  have ranked := completer.isRankedBy_completionOf ⟨word, before.length⟩
  obtain ⟨best, elected, holds, isBest⟩ := ranked.isBest_of_best hinted
  -- What has been typed opens the best alias, so the alias stays the best.
  have whole : word ++ (typed ++ later) = word ++ typed ++ later := String.append_assoc.symm
  have opened : (word ++ typed).toList <+: (word ++ (typed ++ later)).toList := by
    rw [whole]
    exact toList_prefix_append _ _
  have ended' : Word.EndsAt before.toList (word ++ typed).toList "".toList := by
    rw [String.toList_append]
    refine ended.replace (List.append_ne_nil_of_left_ne_nil ended.named _) fun c member => ?_
    exact (List.mem_append.mp member).elim (ended.letters c) (letters c)
  obtain ⟨best', elected', sameCommand, samePlace, hinted'⟩ :=
    (completer.isRankedBy_completionOf ⟨word ++ typed, before.length⟩).best_of_isBest
      (isBest.of_prefix (toList_prefix_append word typed) opened) holds
  have found' := Completer.wordEndingAt_of_endsAt enough ended'
  rw [String.append_empty] at found'
  rw [String.append_assoc]
  refine ⟨best, _, best', elected, found', rfl, elected', sameCommand, samePlace, ?_⟩
  exact Completer.hint_of_endsAt enough ended' (hinted'.trans (by rw [← whole]; rfl))

/-- Three letters are typed along a hint, in a line with a letter of two bytes. -/
theorem hint_typed_translatex :
    let completer : Completer := ⟨((Dictionary.empty "test").addCommand
      { aliases := ["translatex"], args := [.required "float" "n"] }).addCommand
      { aliases := ["translatey"] }, 2⟩
    let command : Command := { aliases := ["translatex"], args := [.required "float" "n"] }
    let completion : Completion := ⟨⟨"tr", 2⟩, ⟨"tr", [0, 1], some ⟨0, 0, false⟩⟩⟩
    (completer.wordEndingAt "é tr" (byteLength "é tr".toList) = some completion
      ∧ completion.best completer.dictionary = some (command, "tr" ++ ("ans" ++ "latex"))
      ∧ ∀ c ∈ "ans".toList, c.isLower = true)
    ∧ ∃ best again best', completion.ranking.best = some best
      ∧ completer.wordEndingAt "é trans" (byteLength "é trans".toList) = some again
      ∧ again.word.start = completion.word.start ∧ again.ranking.best = some best'
      ∧ best'.command = best.command ∧ best'.place = best.place
      ∧ completer.hint "é trans" (byteLength "é trans".toList)
        = some "latex \x7bfloat n\x7d" := by
  intro completer command completion
  have found : completer.wordEndingAt "é tr" (byteLength "é tr".toList) = some completion := by
    decide
  have hinted : completion.best completer.dictionary
      = some (command, "tr" ++ ("ans" ++ "latex")) := by decide
  have letters : ∀ c ∈ "ans".toList, c.isLower = true :=
    List.all_eq_true.mp (by decide)
  refine ⟨⟨found, hinted, letters⟩, ?_⟩
  have typed := hint_typed found hinted letters
  have line : "é tr" ++ "ans" = "é trans" := by decide
  have shown : (if command.signature = "" then (if "latex" = "" then none else some "latex")
      else some ("latex" ++ " " ++ command.signature)) = some "latex \x7bfloat n\x7d" := by
    decide
  rwa [line, shown] at typed

end Wordbook
