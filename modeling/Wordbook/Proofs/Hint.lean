import Wordbook.Proofs.Choices
import Wordbook.Proofs.Entry

/-!
# The hint and the tab key

At the end of a line `hint` shows the rest of the one best alias, and `choices` offers all aliases
of the candidates that the word opens.  Where there is a hint, its alias is among the choices and a
choice of the same command comes first; and where there are choices there is a hint, unless the rest
and the signature are both empty.

## Main Definitions

* `Completer.Suggests` — a line ends in a word, and the best alias for it goes on with a rest

## Main Statements

* `Completer.exists_suggests` — there is such an alias wherever there are candidates
* `Completer.Suggests.hint_eq`, `Completer.Suggests.exists_offers` — the hint, and the offer
* `hint_agrees` — `hint` and `choices` agree
-/

namespace Wordbook

open Text (byteLength)

namespace Completer

variable {completer : Completer} {line : String} {completion : Completion} {command : Command}
  {name rest : String}

/-- The `line` ends in a word with this `completion`, whose best alias is `name` of `command`: the
word with `rest` behind it. -/
structure Suggests (completer : Completer) (line : String) (completion : Completion)
    (command : Command) (name rest : String) : Prop where
  /-- The word is completed at the end of the line. -/
  found : completer.wordEndingAt line (byteLength line.toList) = some completion
  /-- It is the last of the line. -/
  typed : ∃ before, line = before ++ completion.token
  /-- The command and its alias are what `Completion.best` returns. -/
  best : completion.best completer.dictionary = some (command, name)
  /-- The word opens the alias. -/
  whole : name = completion.token ++ rest

theorem isRankedBy_of_wordEndingAt {pos : Nat}
    (found : completer.wordEndingAt line pos = some completion) :
    completion.IsRankedBy completer.dictionary := by
  rw [← completeAtByte_of_wordEndingAt found]
  exact completer.isRankedBy_complete _ _

/-- Where there are candidates, one of their aliases is suggested. -/
theorem exists_suggests
    (found : completer.wordEndingAt line (byteLength line.toList) = some completion)
    (some : completion.candidates ≠ []) :
    ∃ command name rest, completer.Suggests line completion command name rest := by
  obtain ⟨before, word, split, -, -, same⟩ := exists_endsAt_of_wordEndingAt_end found
  obtain ⟨_, command, name, -, -, -, best, later, opened⟩ :=
    (isRankedBy_of_wordEndingAt found).exists_best some
  refine ⟨command, name, String.ofList later, found, ⟨before, ?_⟩, best, ?_⟩
  · rw [split, same]
    rfl
  · rw [← String.toList_inj, String.toList_append, String.toList_ofList, opened]

/-- Where `Completion.best` returns an alias, there are candidates. -/
theorem candidates_ne_nil_of_best
    (ranked : completion.IsRankedBy completer.dictionary)
    (best : completion.best completer.dictionary = some (command, name)) :
    completion.candidates ≠ [] := by
  obtain ⟨_, elected, -, -⟩ := Completion.best_eq_some_iff.mp best
  rw [ranked] at elected
  intro none
  rw [Completion.candidates, ranked] at none
  have first := Dictionary.head?_candidates_rank elected
  rw [none] at first
  cases first

/-- A `hint` shows what some alias `Suggests`. -/
theorem exists_suggests_of_hint {shown : String}
    (hinted : completer.hint line (byteLength line.toList) = some shown) :
    ∃ completion command name rest, completer.Suggests line completion command name rest := by
  rw [hint, if_neg (Nat.lt_irrefl _)] at hinted
  split at hinted
  · cases hinted
  next completion found =>
    split at hinted
    · cases hinted
    next best =>
      have ranked := isRankedBy_of_wordEndingAt found
      exact ⟨completion, exists_suggests found (candidates_ne_nil_of_best ranked best)⟩

/-- An offer of `choices` has a suggested alias. -/
theorem exists_suggests_of_choices
    (offered : (completer.choices line (byteLength line.toList)).2 ≠ []) :
    ∃ completion command name rest, completer.Suggests line completion command name rest := by
  rw [choices] at offered
  split at offered
  · exact absurd rfl offered
  next completion found =>
    exact ⟨completion, exists_suggests found (candidates_ne_nil_of_offers offered)⟩

namespace Suggests

variable (suggests : completer.Suggests line completion command name rest)

include suggests

/-- What `hint` shows: the rest of the suggested alias, and the signature of its command if it takes
arguments. -/
theorem hint_eq : completer.hint line (byteLength line.toList)
    = if command.args = [] then (if rest = "" then none else some rest)
      else some (rest ++ " " ++ command.signature) := by
  obtain ⟨before, word, rfl, enough, ended, rfl⟩ :=
    exists_endsAt_of_wordEndingAt_end suggests.found
  have best := suggests.best
  rw [suggests.whole] at best
  simp only [hint_of_endsAt enough ended best, Command.signature_eq_empty_iff]

/-- What `choices` offers begins with `choicesOf` the suggested command, and the suggested alias is
among them. -/
theorem exists_offers : ∃ more, (completer.choices line (byteLength line.toList)).2
      = choicesOf completion.token command ++ more
    ∧ ⟨name, command.withSignature name⟩ ∈ choicesOf completion.token command := by
  have ranked := isRankedBy_of_wordEndingAt suggests.found
  have some := candidates_ne_nil_of_best ranked suggests.best
  obtain ⟨_, _, _, -, first, holds, best, opened⟩ := ranked.exists_best some
  obtain ⟨rfl, rfl⟩ := Prod.mk.inj (Option.some_inj.mp (best.symm.trans suggests.best))
  obtain ⟨others, split⟩ := List.head?_eq_some_iff.mp first
  obtain ⟨position, -, holds', declared⟩ := Completion.best_eq_some_iff.mp best
  obtain ⟨i, member⟩ := List.exists_mem_of_ne_nil _ some
  have present := (ranked.mem_candidates.mp member).1
  refine ⟨(others.filterMap completer.dictionary.command?).flatMap (choicesOf completion.token),
    ?_, ?_⟩
  · rw [choices, suggests.found]
    simp only [split, List.filterMap_cons, holds, List.flatMap_cons]
  · exact List.mem_map_of_mem (List.mem_filter.mpr
      ⟨List.mem_of_getElem? declared, opens_iff.mpr ⟨present, opened⟩⟩)

end Suggests

end Completer

/-- At the end of a line `hint` and `choices` agree.  A hint is the rest of the best alias, with the
signature of its command; the first choice is one of that command, and the alias is among the
choices.  Where anything is offered there is a hint, unless the best alias is the word itself and
its command takes no argument. -/
theorem hint_agrees (completer : Completer) (line : String) :
    let pos := byteLength line.toList
    (∀ shown, completer.hint line pos = some shown → ∃ completion command name rest,
      completer.Suggests line completion command name rest
      ∧ shown = rest ++ (if command.args = [] then "" else " " ++ command.signature)
      ∧ (∃ first, (completer.choices line pos).2.head? = some first
        ∧ first ∈ Completer.choicesOf completion.token command)
      ∧ ∃ choice ∈ (completer.choices line pos).2, choice.replacement = name)
    ∧ ((completer.choices line pos).2 ≠ [] → ∃ completion command name rest,
      completer.Suggests line completion command name rest
      ∧ (completer.hint line pos = none ↔ name = completion.token ∧ command.args = [])) := by
  intro pos
  constructor
  · intro shown hinted
    obtain ⟨completion, command, name, rest, suggests⟩ := Completer.exists_suggests_of_hint hinted
    obtain ⟨more, offered, member⟩ := suggests.exists_offers
    refine ⟨completion, command, name, rest, suggests, ?_, ?_, ?_⟩
    · rw [suggests.hint_eq] at hinted
      by_cases bare : command.args = []
      · rw [if_pos bare] at hinted ⊢
        split at hinted
        · cases hinted
        · rw [String.append_empty, Option.some_inj.mp hinted]
      · rw [if_neg bare] at hinted ⊢
        rw [← Option.some_inj.mp hinted, String.append_assoc]
    · obtain ⟨first, later, split⟩ := List.exists_cons_of_ne_nil (List.ne_nil_of_mem member)
      refine ⟨first, ?_, ?_⟩
      · rw [offered, split, List.cons_append, List.head?_cons]
      · rw [split]
        exact List.mem_cons_self
    · rw [offered]
      exact ⟨_, List.mem_append_left more member, rfl⟩
  · intro offered
    obtain ⟨completion, command, name, rest, suggests⟩ :=
      Completer.exists_suggests_of_choices offered
    refine ⟨completion, command, name, rest, suggests, ?_⟩
    have whole : name = completion.token ↔ rest = "" := by
      rw [suggests.whole, String.append_eq_left_iff]
    rw [suggests.hint_eq, whole]
    by_cases bare : command.args = []
    · by_cases typed : rest = "" <;> simp [bare, typed]
    · simp [bare]

end Wordbook
