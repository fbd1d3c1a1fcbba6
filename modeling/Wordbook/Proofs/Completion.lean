import Mathlib.Data.List.Nodup
import Wordbook.Panel
import Wordbook.Proofs.Ranking

/-!
# What a completion says

The word, the candidates, the best alias and the state of a completion come from `Word.find`,
`matching`, `rank` and `Completion.state`.  This module shows what they have to do with one another,
whatever the dictionary holds: aliases that are repeated or shared, commands without any.

## Main Definitions

* `Completion.Fits` — a completion says what a dictionary holds for its word

## Main Statements

* `Completion.best_eq_some_iff` — the best command with its alias, by their positions
* `Completion.IsRankedBy.state_eq_resolved_iff` and its companions — the state, in terms of the
  dictionary
* `complete_fits` — every completion fits the dictionary of the completer

## Design Notes

The empty word is a case of its own.  It means no command, not even one with the empty alias, so
nothing is ever found for it (`searching_of_empty_alias`).
-/

namespace Wordbook

/-- A list without repetitions has length one exactly if there is a unique member. -/
theorem length_eq_one_iff_existsUnique {α : Type} {entries : List α} (nodup : entries.Nodup) :
    entries.length = 1 ↔ ∃! entry, entry ∈ entries := by
  constructor
  · intro one
    obtain ⟨entry, rfl⟩ := List.length_eq_one_iff.mp one
    exact ⟨entry, List.mem_singleton_self entry, fun other member => List.mem_singleton.mp member⟩
  · rintro ⟨entry, member, unique⟩
    rw [List.length_eq_one_iff]
    exact ⟨entry, List.perm_singleton.mp ((List.perm_ext_iff_of_nodup nodup
      (List.nodup_singleton entry)).mpr fun other => by
        rw [List.mem_singleton]
        exact ⟨unique other, fun same => same ▸ member⟩)⟩

namespace Completion

variable {completion : Completion} {d : Dictionary}

/-! ### The state of any completion -/

theorem isEmpty_iff : completion.word.isEmpty = true ↔ completion.token = "" :=
  String.isEmpty_iff

/-- The four values of `Completion.state`, each with what it takes.  Once there is a word, the
number of the candidates decides, and whether the word is exact. -/
theorem state_cases (completion : Completion) :
    (completion.state = .searching ∧ completion.token = "")
      ∨ (completion.state = .noMatch ∧ completion.token ≠ "" ∧ completion.candidates.length = 0)
      ∨ (completion.state = .resolved ∧ completion.token ≠ "" ∧ completion.candidates.length ≠ 0
        ∧ (completion.candidates.length = 1 ∨ completion.isExact = true))
      ∨ (completion.state = .ambiguous ∧ completion.token ≠ "" ∧ completion.candidates.length ≠ 0
        ∧ ¬ (completion.candidates.length = 1 ∨ completion.isExact = true)) := by
  by_cases empty : completion.token = ""
  · exact Or.inl ⟨by rw [state, if_pos (isEmpty_iff.mpr empty)], empty⟩
  · rw [state, if_neg (mt isEmpty_iff.mp empty)]
    rcases completion.candidates with _ | ⟨_, _ | ⟨_, _⟩⟩
    · exact Or.inr (Or.inl ⟨rfl, empty, rfl⟩)
    · exact Or.inr (Or.inr (Or.inl ⟨rfl, empty, Nat.one_ne_zero, Or.inl rfl⟩))
    · by_cases exact : completion.isExact = true <;> simp [empty, exact]

theorem state_eq_searching_iff : completion.state = .searching ↔ completion.token = "" := by
  rcases completion.state_cases with ⟨is, h⟩ | ⟨is, h⟩ | ⟨is, h⟩ | ⟨is, h⟩ <;> simp [is, h]

theorem state_eq_noMatch_iff_length : completion.state = .noMatch
    ↔ completion.token ≠ "" ∧ completion.candidates.length = 0 := by
  rcases completion.state_cases with ⟨is, h⟩ | ⟨is, h⟩ | ⟨is, h⟩ | ⟨is, h⟩ <;> simp [is, h]

theorem state_eq_resolved_iff_length : completion.state = .resolved
    ↔ completion.token ≠ "" ∧ completion.candidates.length ≠ 0
      ∧ (completion.candidates.length = 1 ∨ completion.isExact = true) := by
  rcases completion.state_cases with ⟨is, h⟩ | ⟨is, h⟩ | ⟨is, h⟩ | ⟨is, h⟩ <;> simp [is, h]

/-- The state is `resolved` among candidates only. -/
theorem candidates_ne_nil_of_resolved (resolved : completion.state = .resolved) :
    completion.candidates ≠ [] :=
  mt List.length_eq_zero_iff.mpr (state_eq_resolved_iff_length.mp resolved).2.1

theorem state_eq_ambiguous_iff_length : completion.state = .ambiguous
    ↔ completion.token ≠ "" ∧ completion.candidates.length ≠ 0
      ∧ ¬ (completion.candidates.length = 1 ∨ completion.isExact = true) := by
  rcases completion.state_cases with ⟨is, h⟩ | ⟨is, h⟩ | ⟨is, h⟩ | ⟨is, h⟩ <;> simp [is, h]

/-! ### The best alias -/

theorem best_eq_some_iff {command : Command} {name : String} :
    completion.best d = some (command, name)
      ↔ ∃ best, completion.ranking.best = some best ∧ d.command? best.command = some command
        ∧ command.aliases[best.place]? = some name := by
  constructor
  · intro found
    unfold best at found
    split at found
    · cases found
    next best elected =>
      split at found
      · cases found
      next other holds =>
        obtain ⟨_, declared, equal⟩ := Option.map_eq_some_iff.mp found
        cases equal
        exact ⟨best, elected, holds, declared⟩
  · rintro ⟨best, elected, holds, declared⟩
    simp only [Completion.best, elected, holds, declared, Option.map_some]

/-- The ranking of `completion` is `Dictionary.rank` of the candidates that `Dictionary.matching`
has for its word. -/
def IsRankedBy (completion : Completion) (d : Dictionary) : Prop :=
  completion.ranking = d.rank completion.token (d.matching completion.token)

namespace IsRankedBy

variable (ranked : completion.IsRankedBy d)

include ranked

/-! ### The candidates -/

theorem perm_candidates : completion.candidates.Perm (d.matching completion.token) := by
  rw [candidates, ranked]
  exact d.perm_candidates_rank _ _

theorem mem_candidates {i : Nat} : i ∈ completion.candidates ↔ d.MayMean completion.token i := by
  rw [ranked.perm_candidates.mem_iff, Dictionary.mem_matching]

theorem nodup_candidates : completion.candidates.Nodup :=
  ranked.perm_candidates.nodup_iff.mpr ((d.pairwise_matching _).imp Nat.ne_of_lt)

theorem length_candidates_ne_zero_iff :
    completion.candidates.length ≠ 0 ↔ ∃ i, d.MayMean completion.token i := by
  rw [Nat.ne_zero_iff_zero_lt, List.length_pos_iff_exists_mem]
  exact exists_congr fun i => ranked.mem_candidates

theorem length_candidates_eq_one_iff :
    completion.candidates.length = 1 ↔ ∃! i, d.MayMean completion.token i := by
  rw [length_eq_one_iff_existsUnique ranked.nodup_candidates]
  exact existsUnique_congr fun i => ranked.mem_candidates

theorem isExact_iff : completion.isExact = true
    ↔ completion.token ≠ "" ∧ ∃ command ∈ d.commands, completion.token ∈ command.aliases := by
  rw [isExact, ranked]
  exact Dictionary.isExact_rank_matching

/-- A word that is an alias may mean the command that has it. -/
theorem exists_mayMean_of_isExact (exact : completion.isExact = true) :
    ∃ i, d.MayMean completion.token i := by
  obtain ⟨present, declared⟩ := ranked.isExact_iff.mp exact
  obtain ⟨i, j, declared⟩ := Dictionary.exists_alias?_iff.mpr declared
  exact ⟨i, Dictionary.mayMean_iff_alias?.mpr ⟨present, j, _, declared, List.prefix_rfl⟩⟩

/-- The candidates are `Dictionary.matching`, but for one that may have changed places with the
first. -/
theorem exists_swap_candidates : ∃ slot, (slot = 0 ∨ slot < (d.matching completion.token).length)
    ∧ ∀ i, completion.candidates[i]? = (d.matching completion.token)[Equiv.swap 0 slot i]? := by
  rw [candidates, ranked]
  exact d.exists_swap_rank _ _

/-- Where there are candidates, the best one comes first, and the word opens its alias. -/
theorem exists_best (found : completion.candidates ≠ []) :
    ∃ best command name, completion.ranking.best = some best
      ∧ completion.candidates.head? = some best.command ∧ d.command? best.command = some command
      ∧ completion.best d = some (command, name) ∧ completion.token.toList <+: name.toList := by
  obtain ⟨i, member⟩ := List.exists_mem_of_ne_nil _ found
  obtain ⟨present, _, _, declared, opened⟩ :=
    Dictionary.mayMean_iff_alias?.mp (ranked.mem_candidates.mp member)
  obtain ⟨best, elected⟩ := Dictionary.exists_best_rank declared present opened
  obtain ⟨name, isBest, -⟩ := Dictionary.isBest_of_rank elected
  obtain ⟨command, holds, declared⟩ := Dictionary.alias?_eq_some_iff.mp isBest.declared
  have first := Dictionary.head?_candidates_rank elected
  rw [← ranked] at elected first
  refine ⟨best, command, name, elected, first, holds, ?_, isBest.opened⟩
  exact best_eq_some_iff.mpr ⟨best, elected, holds, declared⟩

/-- What `Completion.best` returns is the best alias in the sense of `IsBest`. -/
theorem isBest_of_best {command : Command} {name : String}
    (found : completion.best d = some (command, name)) :
    ∃ best, completion.ranking.best = some best ∧ d.command? best.command = some command
      ∧ d.IsBest completion.token best.command best.place name := by
  obtain ⟨best, elected, holds, declared⟩ := best_eq_some_iff.mp found
  refine ⟨best, elected, holds, ?_⟩
  rw [ranked] at elected
  obtain ⟨other, isBest, -⟩ := Dictionary.isBest_of_rank elected
  have declared := Dictionary.alias?_eq_some_iff.mpr ⟨command, holds, declared⟩
  rwa [Option.some_inj.mp (declared.symm.trans isBest.declared)]

/-- Where there are candidates, the command of the best alias comes first. -/
theorem exists_isBest (found : completion.candidates ≠ []) :
    ∃ best name, completion.ranking.best = some best
      ∧ completion.candidates.head? = some best.command
      ∧ d.IsBest completion.token best.command best.place name := by
  obtain ⟨best, command, name, elected, first, -, shown, -⟩ := ranked.exists_best found
  obtain ⟨again, elected', -, isBest⟩ := ranked.isBest_of_best shown
  obtain rfl := Option.some_inj.mp (elected.symm.trans elected')
  exact ⟨best, name, elected, first, isBest⟩

/-- The best alias in the sense of `IsBest` is what `Completion.best` returns. -/
theorem best_of_isBest {command : Command} {name : String} {position place : Nat}
    (isBest : d.IsBest completion.token position place name)
    (holds : d.command? position = some command) :
    ∃ best, completion.ranking.best = some best ∧ best.command = position ∧ best.place = place
      ∧ completion.best d = some (command, name) := by
  have elected : (d.rank completion.token (d.matching completion.token)).best
      = some ⟨position, place, name == completion.token⟩ :=
    Dictionary.best_rank_matching.mpr ⟨name, isBest, beq_iff_eq⟩
  rw [← ranked] at elected
  obtain ⟨other, holds', declared⟩ := Dictionary.alias?_eq_some_iff.mp isBest.declared
  obtain rfl := Option.some_inj.mp (holds.symm.trans holds')
  exact ⟨_, elected, rfl, rfl, best_eq_some_iff.mpr ⟨_, elected, holds, declared⟩⟩

/-! ### The state -/

theorem state_eq_noMatch_iff : completion.state = .noMatch
    ↔ completion.token ≠ "" ∧ ¬ ∃ i, d.MayMean completion.token i := by
  rw [state_eq_noMatch_iff_length, ← ranked.length_candidates_ne_zero_iff, not_not]

theorem state_eq_resolved_iff : completion.state = .resolved
    ↔ completion.token ≠ "" ∧ ((∃! i, d.MayMean completion.token i)
      ∨ ∃ command ∈ d.commands, completion.token ∈ command.aliases) := by
  rw [state_eq_resolved_iff_length, ranked.length_candidates_ne_zero_iff,
    ranked.length_candidates_eq_one_iff]
  constructor
  · rintro ⟨present, -, one | exact⟩
    · exact ⟨present, Or.inl one⟩
    · exact ⟨present, Or.inr (ranked.isExact_iff.mp exact).2⟩
  · rintro ⟨present, one | declared⟩
    · exact ⟨present, one.exists, Or.inl one⟩
    · have exact := ranked.isExact_iff.mpr ⟨present, declared⟩
      exact ⟨present, ranked.exists_mayMean_of_isExact exact, Or.inr exact⟩

theorem state_eq_ambiguous_iff : completion.state = .ambiguous
    ↔ (∃ i, d.MayMean completion.token i) ∧ (¬ ∃! i, d.MayMean completion.token i)
      ∧ ¬ ∃ command ∈ d.commands, completion.token ∈ command.aliases := by
  rw [state_eq_ambiguous_iff_length, ranked.length_candidates_ne_zero_iff, not_or,
    ranked.length_candidates_eq_one_iff, ranked.isExact_iff]
  constructor
  · rintro ⟨present, some, several, inexact⟩
    exact ⟨some, several, fun declared => inexact ⟨present, declared⟩⟩
  · rintro ⟨⟨i, meant⟩, several, undeclared⟩
    exact ⟨meant.1, ⟨i, meant⟩, several, fun exact => undeclared exact.2⟩

end IsRankedBy

/-! ### What a completion owes to the dictionary -/

/-- What `completion` says of its word is what the dictionary `d` holds for it. -/
structure Fits (completion : Completion) (d : Dictionary) : Prop where
  /-- The candidates are the commands that the word may mean, in the order of declaration but for
  one that may have changed places with the first. -/
  candidates : ∃ (found : List Nat) (slot : Nat), found.Pairwise (· < ·)
    ∧ (∀ i, i ∈ found ↔ d.MayMean completion.token i) ∧ (slot = 0 ∨ slot < found.length)
    ∧ ∀ i, completion.candidates[i]? = found[Equiv.swap 0 slot i]?
  /-- If there are candidates, the first is the best one, under an alias that the word opens. -/
  best : completion.candidates ≠ [] → ∃ best command name, completion.ranking.best = some best
    ∧ completion.candidates.head? = some best.command ∧ d.command? best.command = some command
    ∧ completion.best d = some (command, name) ∧ completion.token.toList <+: name.toList
  /-- The state is `searching` exactly if there is no word. -/
  searching : completion.state = .searching ↔ completion.token = ""
  /-- The state is `noMatch` exactly if no alias begins with the word. -/
  noMatch : completion.state = .noMatch ↔ completion.token ≠ ""
    ∧ ∀ command ∈ d.commands, ∀ name ∈ command.aliases, ¬ completion.token.toList <+: name.toList
  /-- The state is `resolved` exactly if the word may mean one command only, or if it is an
  alias. -/
  resolved : completion.state = .resolved ↔ completion.token ≠ ""
    ∧ ((∃! i, d.MayMean completion.token i)
      ∨ ∃ command ∈ d.commands, completion.token ∈ command.aliases)
  /-- The state is `ambiguous` in all other cases. -/
  ambiguous : completion.state = .ambiguous ↔ (∃ i, d.MayMean completion.token i)
    ∧ (¬ ∃! i, d.MayMean completion.token i)
    ∧ ¬ ∃ command ∈ d.commands, completion.token ∈ command.aliases
  /-- The panel about a resolved word begins with the help of the best command. -/
  panel : completion.state = .resolved → ∃ command name, completion.best d = some (command, name)
    ∧ ∀ panel : Panel, ∃ rest, panel.render d completion = command.help ++ rest

/-- A word may mean no command exactly if no alias in the dictionary begins with it. -/
theorem not_exists_mayMean_iff {token : String} (present : token ≠ "") :
    (¬ ∃ i, d.MayMean token i)
      ↔ ∀ command ∈ d.commands, ∀ name ∈ command.aliases, ¬ token.toList <+: name.toList := by
  constructor
  · intro none command member name declared opened
    obtain ⟨i, found⟩ := List.mem_iff_getElem?.mp member
    exact none ⟨i, present, command, found, name, declared, opened⟩
  · rintro none ⟨i, -, command, found, name, declared, opened⟩
    exact none command (List.mem_of_getElem? found) name declared opened

/-- A completion that `IsRankedBy` a dictionary fits it. -/
theorem IsRankedBy.fits (ranked : completion.IsRankedBy d) : completion.Fits d where
  candidates := by
    obtain ⟨slot, inside, swapped⟩ := ranked.exists_swap_candidates
    exact ⟨d.matching completion.token, slot, d.pairwise_matching _,
      fun _ => Dictionary.mem_matching, inside, swapped⟩
  best := ranked.exists_best
  searching := state_eq_searching_iff
  noMatch := by
    rw [ranked.state_eq_noMatch_iff]
    exact and_congr_right not_exists_mayMean_iff
  resolved := ranked.state_eq_resolved_iff
  ambiguous := ranked.state_eq_ambiguous_iff
  panel := by
    intro resolved
    obtain ⟨best, command, name, -, -, -, elected, -⟩ :=
      ranked.exists_best (candidates_ne_nil_of_resolved resolved)
    refine ⟨command, name, elected, fun panel => ?_⟩
    rw [Panel.render, resolved, Panel.renderResolved, elected]
    exact ⟨_, String.append_assoc⟩

end Completion

theorem Completer.isRankedBy_complete (completer : Completer) (text : String) (cursor : Nat) :
    (completer.complete text cursor).IsRankedBy completer.dictionary := rfl

/-- What `Completer.complete` returns is about the word that `Word.find` returns, and it `Fits` the
dictionary of the completer. -/
theorem complete_fits (completer : Completer) (text : String) (cursor : Nat) :
    (completer.complete text cursor).word = Word.find completer.passes text cursor
      ∧ (completer.complete text cursor).Fits completer.dictionary :=
  ⟨rfl, (completer.isRankedBy_complete text cursor).fits⟩

/-- There is no word in an empty text.  That a command has the empty alias does not change this. -/
theorem searching_of_empty_alias :
    let d := (Dictionary.empty "test").addCommand { aliases := [""] }
    let completion := (Completer.mk d Word.defaultPasses).complete "" 0
    completion.state = .searching
      ∧ ¬ (completion.state = .resolved ↔ (∃! i, d.MayMean completion.token i)
        ∨ ∃ command ∈ d.commands, completion.token ∈ command.aliases) := by
  refine ⟨by decide, fun resolved_iff => ?_⟩
  have resolved := resolved_iff.mpr (Or.inr ⟨_, List.mem_singleton_self _, by decide⟩)
  exact absurd resolved (by decide)

end Wordbook
