import Wordbook.Proofs.Dictionary
import Wordbook.Proofs.Ranking

/-!
# Dictionaries that grow

What `addCommand` does to the answers to a word: `findIndex` finds what it found, `matching` has one
position more at most, and `bestFor` changes only in favour of the new command, and only if that has
an alias that is shorter than the best one so far.

## Main Definitions

* `Dictionary.bestFor` — what is elected for a word
* `Command.IsShortest` — the alias of a command that is best for a word
* `Dictionary.Withstands` — a dictionary has an alias for a word, and a command has no shorter one
* `Dictionary.Conserves` — what a registered command leaves alone, and what it does not

## Main Statements

* `Dictionary.matching_addCommand` — the candidates with one more command
* `Dictionary.IsBest.addCommand` — the best alias stays the best unless the new command has a
  shorter one
* `Dictionary.IsBest.of_addCommand`, `Dictionary.IsBest.isShortest` — where it comes from
* `Dictionary.bestFor_addCommand_of_withstands` and its companions — what is elected with one more
  command
* `Dictionary.bestFor_foldl_register_of_exact` — an exact match stays elected by any registrations
* `addCommand_conserves` — all of this, and what follows for later registrations

## Design Notes

A new command stands behind all others, so its aliases come last among those of equal length.  Which
of the hits is elected is not looked at again: `IsBest` says it by the aliases themselves, and these
are the old ones and those of the new command.
-/

namespace Wordbook

/-- Of all aliases of `command` that `token` opens, `name`, which stands at `place`, is the
shortest, and the first among the shortest. -/
structure Command.IsShortest (command : Command) (token : String) (place : Nat) (name : String) :
    Prop where
  /-- It stands at that place. -/
  declared : command.aliases[place]? = some name
  /-- The empty word opens nothing. -/
  present : token ≠ ""
  /-- The word opens it. -/
  opened : token.toList <+: name.toList
  /-- No alias that the word opens is shorter, or as short and declared before. -/
  least : ∀ j other, command.aliases[j]? = some other → token.toList <+: other.toList →
    toLex (name.length, place) ≤ toLex (other.length, j)

namespace Dictionary

variable {d : Dictionary} {command : Command} {token name : String} {i place : Nat}

/-! ### Aliases and candidates -/

theorem lt_size_of_alias? (declared : d.alias? i place = some name) : i < d.size := by
  obtain ⟨_, holds, -⟩ := alias?_eq_some_iff.mp declared
  exact (List.getElem?_eq_some_iff.mp holds).1

/-- In `d.addCommand command` the new command stands at `d.size`, and all others stay where they
are. -/
theorem command?_addCommand_eq_some_iff {other : Command} :
    (d.addCommand command).command? i = some other
      ↔ d.command? i = some other ∨ (i = d.size ∧ command = other) := by
  simp only [command?, commands_addCommand, size]
  rcases Nat.lt_trichotomy i d.commands.length with before | rfl | behind
  · rw [List.getElem?_append_left before]
    simp [Nat.ne_of_lt before]
  · simp
  · have beyond : (d.commands ++ [command]).length ≤ i := by
      rwa [List.length_append, List.length_singleton]
    rw [List.getElem?_eq_none beyond, List.getElem?_eq_none (Nat.le_of_lt behind)]
    simp [Nat.ne_of_gt behind]

theorem alias?_addCommand_eq_some_iff :
    (d.addCommand command).alias? i place = some name
      ↔ d.alias? i place = some name ∨ (i = d.size ∧ command.aliases[place]? = some name) := by
  simp only [alias?_eq_some_iff, command?_addCommand_eq_some_iff]
  constructor
  · rintro ⟨other, holds | ⟨last, rfl⟩, declared⟩
    · exact Or.inl ⟨other, holds, declared⟩
    · exact Or.inr ⟨last, declared⟩
  · rintro (⟨other, holds, declared⟩ | ⟨last, declared⟩)
    · exact ⟨other, Or.inl holds, declared⟩
    · exact ⟨command, Or.inr ⟨last, rfl⟩, declared⟩

/-- The position `d.size` of a new command joins `matching` behind all others, if the word opens one
of its aliases. -/
theorem matching_addCommand (d : Dictionary) (command : Command) (token : String) :
    (d.addCommand command).matching token
      = d.matching token
        ++ if token ≠ "" ∧ ∃ name ∈ command.aliases, token.toList <+: name.toList then [d.size]
          else [] := by
  simp only [← Command.answers_iff, matching, commands_addCommand, List.zipIdx_append,
    List.zipIdx_singleton, List.filter_append, List.map_append, Nat.zero_add, size]
  congr 1
  cases answered : command.answers token <;> simp [answered]

/-! ### The best alias -/

namespace IsBest

/-- The best alias stays the best unless the new command has a shorter one. -/
theorem addCommand (best : d.IsBest token i place name)
    (noShorter : ∀ other ∈ command.aliases, token.toList <+: other.toList →
      name.length ≤ other.length) :
    (d.addCommand command).IsBest token i place name where
  declared := alias?_addCommand_eq_some_iff.mpr (Or.inl best.declared)
  present := best.present
  opened := best.opened
  least j k other declared opened := by
    rcases alias?_addCommand_eq_some_iff.mp declared with old | ⟨rfl, new⟩
    · exact best.least j k other old opened
    · -- An alias of the new command that is as short is declared later.
      have earlier := lt_size_of_alias? best.declared
      have long := noShorter other (List.mem_of_getElem? new) opened
      rcases Nat.lt_or_eq_of_le long with longer | same
      · exact Prod.Lex.toLex_le_toLex.mpr (Or.inl longer)
      · exact Prod.Lex.toLex_le_toLex.mpr
          (Or.inr ⟨same, Prod.Lex.toLex_le_toLex.mpr (Or.inl earlier)⟩)

/-- If the best alias of `d.addCommand command` is one of `d`, it was the best there, and `command`
has none that is shorter. -/
theorem of_addCommand (best : (d.addCommand command).IsBest token i place name)
    (old : d.alias? i place = some name) :
    d.IsBest token i place name
      ∧ ∀ other ∈ command.aliases, token.toList <+: other.toList →
        name.length ≤ other.length := by
  refine ⟨⟨old, best.present, best.opened, fun j k other declared => ?_⟩,
    fun other member opened => ?_⟩
  · exact best.least j k other (alias?_addCommand_eq_some_iff.mpr (Or.inl declared))
  · obtain ⟨k, declared⟩ := List.mem_iff_getElem?.mp member
    have least := best.least d.size k other
      (alias?_addCommand_eq_some_iff.mpr (Or.inr ⟨rfl, declared⟩)) opened
    exact Prod.Lex.monotone_fst _ _ least

/-- If the best alias of `d.addCommand command` is one of `command`, it is the first of its
shortest, and all aliases of `d` for the word are longer. -/
theorem isShortest (best : (d.addCommand command).IsBest token d.size place name) :
    command.IsShortest token place name
      ∧ ∀ j k other, d.alias? j k = some other → token.toList <+: other.toList →
        name.length < other.length := by
  refine ⟨⟨?_, best.present, best.opened, fun k other declared opened => ?_⟩,
    fun j k other declared opened => ?_⟩
  · rcases alias?_addCommand_eq_some_iff.mp best.declared with old | ⟨-, new⟩
    · exact absurd (lt_size_of_alias? old) (Nat.lt_irrefl _)
    · exact new
  · have least := best.least d.size k other
      (alias?_addCommand_eq_some_iff.mpr (Or.inr ⟨rfl, declared⟩)) opened
    simpa only [Prod.Lex.toLex_le_toLex, Nat.lt_irrefl, false_or, true_and] using least
  · have earlier := lt_size_of_alias? declared
    have least := best.least j k other (alias?_addCommand_eq_some_iff.mpr (Or.inl declared)) opened
    rcases Prod.Lex.toLex_le_toLex.mp least with shorter | ⟨-, first⟩
    · exact shorter
    · rcases Prod.Lex.toLex_le_toLex.mp first with before | ⟨same, -⟩
      · exact absurd before (Nat.lt_asymm earlier)
      · exact absurd same.symm (Nat.ne_of_lt earlier)

end IsBest

/-! ### What is elected -/

/-- What `rank` elects for `token` among the candidates of `matching`. -/
def bestFor (d : Dictionary) (token : String) : Option Best :=
  (d.rank token (d.matching token)).best

/-- The dictionary `d` has a best alias for `token`, and `command` has none for it that is
shorter. -/
def Withstands (d : Dictionary) (token : String) (command : Command) : Prop :=
  ∃ best name, d.bestFor token = some best ∧ d.alias? best.command best.place = some name
    ∧ ∀ other ∈ command.aliases, token.toList <+: other.toList → name.length ≤ other.length

/-- Where `d` withstands `command`, `bestFor` is not changed by `addCommand`. -/
theorem bestFor_addCommand_of_withstands (withstands : d.Withstands token command) :
    (d.addCommand command).bestFor token = d.bestFor token := by
  obtain ⟨best, name, elected, declared, noShorter⟩ := withstands
  obtain ⟨other, isBest, exact_iff⟩ := best_rank_matching.mp elected
  obtain rfl := Option.some_inj.mp (isBest.declared.symm.trans declared)
  rw [elected]
  exact best_rank_matching.mpr ⟨other, isBest.addCommand noShorter, exact_iff⟩

/-- Where `d` does not withstand `command`, and the word opens any of its aliases, `bestFor` returns
the new command under the first of its shortest ones. -/
theorem bestFor_addCommand_of_not_withstands (overcome : ¬ d.Withstands token command)
    (answered : token ≠ "" ∧ ∃ name ∈ command.aliases, token.toList <+: name.toList) :
    ∃ place name, command.IsShortest token place name
      ∧ (d.addCommand command).bestFor token = some ⟨d.size, place, name == token⟩ := by
  obtain ⟨present, other, member, opened⟩ := answered
  obtain ⟨j, declared⟩ := List.mem_iff_getElem?.mp member
  obtain ⟨⟨i, place, exact⟩, elected⟩ := exists_best_rank
    (alias?_addCommand_eq_some_iff.mpr (Or.inr ⟨rfl, declared⟩)) present opened
  obtain ⟨name, isBest, exact_iff⟩ := best_rank_matching.mp elected
  -- Were an old alias elected, it would have withstood the command.
  rcases alias?_addCommand_eq_some_iff.mp isBest.declared with old | ⟨last, -⟩
  · obtain ⟨wasBest, noShorter⟩ := isBest.of_addCommand old
    have before := best_rank_matching.mpr ⟨name, wasBest, exact_iff⟩
    exact absurd ⟨_, name, before, old, noShorter⟩ overcome
  · obtain rfl : i = d.size := last
    refine ⟨place, name, isBest.isShortest.1, ?_⟩
    have sameExact : exact = (name == token) :=
      Bool.eq_iff_iff.mpr (exact_iff.trans beq_iff_eq.symm)
    rw [bestFor, elected, sameExact]

/-- Where the word opens no alias of `command`, `bestFor` is not changed by `addCommand`. -/
theorem bestFor_addCommand_of_unanswered
    (unanswered : ¬ (token ≠ "" ∧ ∃ name ∈ command.aliases, token.toList <+: name.toList)) :
    (d.addCommand command).bestFor token = d.bestFor token := by
  cases elected : d.bestFor token with
  | some best =>
    obtain ⟨name, isBest, -⟩ := best_rank_matching.mp elected
    rw [← elected]
    refine bestFor_addCommand_of_withstands ⟨best, name, elected, isBest.declared, ?_⟩
    exact fun other member opened =>
      absurd ⟨isBest.present, other, member, opened⟩ unanswered
  | none =>
    rw [Option.eq_none_iff_forall_ne_some]
    intro best again
    obtain ⟨name, isBest, -⟩ := best_rank_matching.mp again
    rcases alias?_addCommand_eq_some_iff.mp isBest.declared with old | ⟨-, new⟩
    · obtain ⟨other, found⟩ := exists_best_rank old isBest.present isBest.opened
      rw [bestFor, found] at elected
      cases elected
    · exact unanswered ⟨isBest.present, name, List.mem_of_getElem? new, isBest.opened⟩

/-- No alias that a word opens is shorter than the word, so `Withstands` holds for an exact match
and every command. -/
theorem withstands_of_exact {best : Best} (elected : d.bestFor token = some best)
    (exact : best.exact = true) (command : Command) : d.Withstands token command := by
  obtain ⟨name, isBest, exact_iff⟩ := best_rank_matching.mp elected
  obtain rfl := exact_iff.mp exact
  exact ⟨best, name, elected, isBest.declared, fun _ _ opened => opened.length_le⟩

/-! ### Later registrations -/

theorem bestFor_register_of_exact {best : Best} (elected : d.bestFor token = some best)
    (exact : best.exact = true) (entry : Registration) :
    (d.register entry).bestFor token = some best := by
  cases entry with
  | type type => exact elected
  | command command =>
    exact (bestFor_addCommand_of_withstands (withstands_of_exact elected exact command)).trans
      elected

/-- An exact match is what `bestFor` returns whatever is registered later. -/
theorem bestFor_foldl_register_of_exact {best : Best} (elected : d.bestFor token = some best)
    (exact : best.exact = true) (later : List Registration) :
    (later.foldl register d).bestFor token = some best :=
  List.foldlRecOn (motive := fun d => d.bestFor token = some best) later register elected
    fun _ elected entry _ => bestFor_register_of_exact elected exact entry

theorem findIndex_register_of_eq_some (found : d.findIndex name = some i) (entry : Registration) :
    (d.register entry).findIndex name = some i := by
  cases entry with
  | type type => exact found
  | command command =>
    show (d.addCommand command).findIndex name = some i
    rw [findIndex_addCommand, found, Option.some_or]

/-- The result of `findIndex` for an alias stays the same whatever is registered later. -/
theorem findIndex_foldl_register_of_eq_some (found : d.findIndex name = some i)
    (later : List Registration) : (later.foldl register d).findIndex name = some i :=
  List.foldlRecOn (motive := fun d => d.findIndex name = some i) later register found
    fun _ found entry _ => findIndex_register_of_eq_some found entry

/-- What `addCommand` leaves alone of the answers to `token`, and what it changes. -/
structure Conserves (d : Dictionary) (command : Command) (token : String) : Prop where
  /-- An alias that led to a command leads to it still, and will whatever else is registered. -/
  found : ∀ name i, d.findIndex name = some i →
    ∀ later : List Registration,
      (later.foldl register (d.addCommand command)).findIndex name = some i
  /-- The command joins the candidates behind all others, if the word opens one of its aliases. -/
  matching : (d.addCommand command).matching token
    = d.matching token
      ++ if token ≠ "" ∧ ∃ name ∈ command.aliases, token.toList <+: name.toList then [d.size]
        else []
  /-- What was elected stays so, unless the word opens a shorter alias of the command. -/
  kept : d.Withstands token command → (d.addCommand command).bestFor token = d.bestFor token
  /-- Otherwise the command is elected, under the first of its shortest aliases. -/
  taken : ¬ d.Withstands token command →
    (token ≠ "" ∧ ∃ name ∈ command.aliases, token.toList <+: name.toList) →
    ∃ place name, command.IsShortest token place name
      ∧ (d.addCommand command).bestFor token = some ⟨d.size, place, name == token⟩
  /-- A command none of whose aliases the word opens changes nothing of what is elected. -/
  apart : ¬ (token ≠ "" ∧ ∃ name ∈ command.aliases, token.toList <+: name.toList) →
    (d.addCommand command).bestFor token = d.bestFor token
  /-- An exact match stays elected, also by later registrations. -/
  exact : ∀ best, d.bestFor token = some best → best.exact = true →
    ∀ later : List Registration,
      (later.foldl register (d.addCommand command)).bestFor token = some best
  /-- A command that is elected in the place of another has an alias that is shorter, not only as
  short. -/
  shorter : ∀ best name, d.bestFor token = some best →
    d.alias? best.command best.place = some name →
    ∀ again, (d.addCommand command).bestFor token = some again → again.command = d.size →
      ∃ other, command.aliases[again.place]? = some other ∧ other.length < name.length

end Dictionary

/-- For every dictionary and every word, `addCommand` changes no result of `findIndex` that is not
`none`, puts the new position behind those of `matching`, and changes `bestFor` only in favour of
the new command and only if that has a shorter alias. -/
theorem addCommand_conserves (d : Dictionary) (command : Command) (token : String) :
    d.Conserves command token where
  found _ _ found later :=
    Dictionary.findIndex_foldl_register_of_eq_some found (.command command :: later)
  matching := d.matching_addCommand command token
  kept := Dictionary.bestFor_addCommand_of_withstands
  taken := Dictionary.bestFor_addCommand_of_not_withstands
  apart := Dictionary.bestFor_addCommand_of_unanswered
  exact _ elected exact later :=
    Dictionary.bestFor_foldl_register_of_exact elected exact (.command command :: later)
  shorter best name elected declared again elected' last := by
    obtain ⟨other, isBest, -⟩ := Dictionary.best_rank_matching.mp elected
    obtain ⟨new, isBest', -⟩ := Dictionary.best_rank_matching.mp elected'
    obtain rfl := Option.some_inj.mp (isBest.declared.symm.trans declared)
    rw [last] at isBest'
    obtain ⟨shortest, below⟩ := isBest'.isShortest
    exact ⟨new, shortest.declared, below best.command best.place other declared isBest.opened⟩

/-- An alias that is as short as the best one does not replace it, and a shorter one does. -/
example :
    let d := (Dictionary.empty "test").addCommand { aliases := ["txa"] }
    (d.addCommand { aliases := ["txb"] }).bestFor "t" = some ⟨0, 0, false⟩
      ∧ (d.addCommand { aliases := ["at", "txbc", "tx", "ty"] }).bestFor "t"
        = some ⟨1, 2, false⟩ := by decide

end Wordbook
