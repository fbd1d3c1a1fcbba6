import Wordbook.Proofs.Completion
import Wordbook.Proofs.Dictionary
import Wordbook.Session.Query

/-!
# Looking up and completing

The look-up `findIndex` uses an index that is kept while the dictionary is built, and `rank` goes
through all aliases.  This module shows that both lead to the same command.

## Main Definitions

* `Dictionary.primaryAlias?` — the name that the command at a position is listed under
* `Session.Agrees` — a word is looked up, and described, where its completion is exact

## Main Statements

* `Dictionary.isBest_self_iff` — an alias is the best one for itself at the first of its places
* `Dictionary.first_place_iff` — that place is in the first command that declares it
* `Dictionary.best_eq_exact_iff` — hence the exact match for a word
* `Dictionary.IsIndexed.findIndex_eq_some_iff` — looking up leads to the exact match
* `lookup_agrees` — all of this for dictionaries as they are built

## Design Notes

The index knows which command comes first, but not under which of its aliases.  The order of places
(`toLex (position, place)`) knows both, so either side is first said in terms of places.
-/

namespace Wordbook

theorem Ranking.isExact_iff {ranking : Ranking} :
    ranking.isExact = true ↔ ∃ best, ranking.best = some best ∧ best.exact = true := by
  rw [isExact]
  cases ranking.best with
  | none => simp
  | some best => simp

/-- Look-ups `f` of `entries` that all succeed are what `List.filterMap` keeps, one for each
entry. -/
theorem map_eq_map_some_filterMap {α β : Type} {f : α → Option β} {entries : List α}
    (found : ∀ entry ∈ entries, (f entry).isSome = true) :
    entries.map f = (entries.filterMap f).map some := by
  rw [List.map_filterMap_some_eq_filter_map_isSome, eq_comm, List.filter_eq_self,
    List.forall_mem_map]
  exact found

/-- If the look-ups are `values`, one for each entry, `List.filterMap` returns `values`. -/
theorem filterMap_of_map_eq_map_some {α β : Type} {f : α → Option β} {entries : List α}
    {values : List β} (found : entries.map f = values.map some) :
    entries.filterMap f = values := by
  have looked : (entries.map f).filterMap id = values := by
    rw [found, List.filterMap_map]
    exact List.filterMap_some
  rwa [List.filterMap_map] at looked

namespace Dictionary

variable {d : Dictionary} {name token : String} {i place : Nat}

theorem exists_alias?_of_mem {command : Command} (holds : d.command? i = some command)
    (declared : name ∈ command.aliases) : ∃ j, d.alias? i j = some name := by
  obtain ⟨j, declared⟩ := List.mem_iff_getElem?.mp declared
  exact ⟨j, alias?_eq_some_iff.mpr ⟨command, holds, declared⟩⟩

/-- The alias `name` is the best one for itself exactly at the first of its places. -/
theorem isBest_self_iff (present : name ≠ "") :
    d.IsBest name i place name ↔ d.alias? i place = some name
      ∧ ∀ j k, d.alias? j k = some name → toLex (i, place) ≤ toLex (j, k) := by
  constructor
  · intro isBest
    refine ⟨isBest.declared, fun j k declared => ?_⟩
    rcases Prod.Lex.toLex_le_toLex.mp (isBest.least j k name declared List.prefix_rfl) with
      shorter | ⟨-, first⟩
    · exact absurd shorter (Nat.lt_irrefl _)
    · exact first
  · rintro ⟨declared, first⟩
    refine ⟨declared, present, List.prefix_rfl, fun j k other declared' opened => ?_⟩
    rcases Nat.lt_or_eq_of_le opened.length_le with shorter | same
    · exact Prod.Lex.toLex_le_toLex.mpr (Or.inl shorter)
    · rw [(length_eq_iff_eq_token opened).mp same.symm] at declared'
      exact Prod.Lex.toLex_le_toLex.mpr (Or.inr ⟨same, first j k declared'⟩)

/-- The first place of `name` is in the first command that declares it, and it is the first one
there. -/
theorem first_place_iff :
    (d.alias? i place = some name
        ∧ ∀ j k, d.alias? j k = some name → toLex (i, place) ≤ toLex (j, k))
      ↔ d.commands.findIdx? (·.hasAlias name) = some i
        ∧ ∃ command, d.command? i = some command ∧ command.aliases.idxOf? name = some place := by
  constructor
  · rintro ⟨declared, first⟩
    obtain ⟨command, holds, declared⟩ := alias?_eq_some_iff.mp declared
    obtain ⟨inside, found⟩ := List.getElem?_eq_some_iff.mp holds
    obtain ⟨within, there⟩ := List.getElem?_eq_some_iff.mp declared
    refine ⟨List.findIdx?_eq_some_iff_getElem.mpr ⟨inside, ?_, fun j before known => ?_⟩, command,
      holds, List.idxOf?_eq_some_iff.mpr ⟨within, there, fun k before known => ?_⟩⟩
    · rw [found]
      exact List.contains_iff_mem.mpr (List.mem_of_getElem? declared)
    · obtain ⟨k, declared'⟩ := exists_alias?_of_mem
        (List.getElem?_eq_getElem (Nat.lt_trans before inside)) (List.contains_iff_mem.mp known)
      rcases Prod.Lex.toLex_le_toLex.mp (first j k declared') with later | ⟨same, -⟩
      · exact Nat.lt_asymm before later
      · exact Nat.ne_of_gt before same
    · have declared' : d.alias? i k = some name :=
        alias?_eq_some_iff.mpr ⟨command, holds, List.getElem?_eq_some_iff.mpr
          ⟨Nat.lt_trans before within, known⟩⟩
      rcases Prod.Lex.toLex_le_toLex.mp (first i k declared') with later | ⟨-, later⟩
      · exact Nat.lt_irrefl i later
      · exact Nat.not_lt.mpr later before
  · rintro ⟨found, command, holds, there⟩
    obtain ⟨inside, -, earliest⟩ := List.findIdx?_eq_some_iff_getElem.mp found
    obtain ⟨within, there, foremost⟩ := List.idxOf?_eq_some_iff.mp there
    refine ⟨alias?_eq_some_iff.mpr ⟨command, holds, List.getElem?_eq_some_iff.mpr
      ⟨within, there⟩⟩, fun j k declared => ?_⟩
    obtain ⟨command', holds', declared⟩ := alias?_eq_some_iff.mp declared
    obtain ⟨inside', found'⟩ := List.getElem?_eq_some_iff.mp holds'
    rcases Nat.lt_trichotomy i j with later | rfl | before
    · exact Prod.Lex.toLex_le_toLex.mpr (Or.inl later)
    · obtain rfl := Option.some_inj.mp (holds.symm.trans holds')
      refine Prod.Lex.toLex_le_toLex.mpr (Or.inr ⟨rfl, Nat.le_of_not_lt fun before => ?_⟩)
      exact foremost k before (List.getElem?_eq_some_iff.mp declared).2
    · refine absurd (List.contains_iff_mem.mpr (List.mem_of_getElem? declared)) ?_
      rw [← found']
      exact earliest j before

/-- The exact match for `token` is the first command that declares it, under the first of its places
there. -/
theorem best_eq_exact_iff (present : token ≠ "") :
    (d.rank token (d.matching token)).best = some ⟨i, place, true⟩
      ↔ d.commands.findIdx? (·.hasAlias token) = some i
        ∧ ∃ command, d.command? i = some command ∧ command.aliases.idxOf? token = some place := by
  rw [← first_place_iff, ← isBest_self_iff present, best_rank_matching]
  constructor
  · rintro ⟨name, isBest, exact_iff⟩
    rwa [exact_iff.mp rfl] at isBest
  · intro isBest
    exact ⟨token, isBest, iff_of_true rfl rfl⟩

/-- An exact match is at the first place of the word in its command, by `List.idxOf?`. -/
theorem idxOf?_of_exact {best : Best} (present : token ≠ "")
    (elected : (d.rank token (d.matching token)).best = some best) (exact : best.exact = true) :
    ∃ command, d.command? best.command = some command
      ∧ command.aliases.idxOf? token = some best.place := by
  obtain ⟨i, place, _⟩ := best
  cases exact
  exact ((best_eq_exact_iff present).mp elected).2

/-- The look-up `findIndex` leads from a word to the command of its exact match. -/
theorem IsIndexed.findIndex_eq_some_iff (indexed : d.IsIndexed) (present : token ≠ "") :
    d.findIndex token = some i
      ↔ ∃ best, (d.rank token (d.matching token)).best = some best ∧ best.exact = true
        ∧ best.command = i := by
  rw [indexed token]
  constructor
  · intro found
    obtain ⟨inside, known, -⟩ := List.findIdx?_eq_some_iff_getElem.mp found
    obtain ⟨place, there⟩ := Option.isSome_iff_exists.mp
      (List.isSome_idxOf?.mpr (List.contains_iff_mem.mp known))
    exact ⟨_, (best_eq_exact_iff present).mpr ⟨found, _, List.getElem?_eq_getElem inside, there⟩,
      rfl, rfl⟩
  · rintro ⟨⟨i, place, _⟩, elected, exact, rfl⟩
    cases exact
    exact ((best_eq_exact_iff present).mp elected).1

/-- The command that `find` returns is the one of the exact match. -/
theorem IsIndexed.find_eq_some_iff (indexed : d.IsIndexed) (present : token ≠ "")
    {command : Command} :
    d.find token = some command
      ↔ ∃ best, (d.rank token (d.matching token)).best = some best ∧ best.exact = true
        ∧ d.command? best.command = some command := by
  rw [find, Option.bind_eq_some_iff]
  constructor
  · rintro ⟨i, found, holds⟩
    obtain ⟨best, elected, exact, rfl⟩ := (indexed.findIndex_eq_some_iff present).mp found
    exact ⟨best, elected, exact, holds⟩
  · rintro ⟨best, elected, exact, holds⟩
    exact ⟨best.command, (indexed.findIndex_eq_some_iff present).mpr ⟨best, elected, exact, rfl⟩,
      holds⟩

/-- The look-up `find` succeeds exactly if the match is exact. -/
theorem IsIndexed.exists_find_iff (indexed : d.IsIndexed) (present : token ≠ "") :
    (∃ command, d.find token = some command)
      ↔ (d.rank token (d.matching token)).isExact = true := by
  simp only [indexed.find_eq_some_iff present, Ranking.isExact_iff]
  constructor
  · rintro ⟨_, best, elected, exact, -⟩
    exact ⟨best, elected, exact⟩
  · rintro ⟨best, elected, exact⟩
    obtain ⟨command, holds, -⟩ := idxOf?_of_exact present elected exact
    exact ⟨command, best, elected, exact, holds⟩

/-! ### The names that commands are listed under -/

/-- The name that the command at a position is listed under: its first alias. -/
def primaryAlias? (d : Dictionary) (position : Nat) : Option String :=
  (d.command? position).bind Command.primaryAlias

theorem primaryAliases_eq (d : Dictionary) (positions : List Nat) :
    d.primaryAliases positions = positions.filterMap d.primaryAlias? :=
  List.filterMap_filterMap

theorem isSome_primaryAlias?_of_mayMean (meant : d.MayMean token i) :
    (d.primaryAlias? i).isSome = true := by
  obtain ⟨-, command, holds, other, declared, -⟩ := meant
  rw [primaryAlias?, holds, Option.bind_some, Command.primaryAlias, List.isSome_head?]
  exact List.ne_nil_of_mem declared

/-- None of the commands that `token` may mean is left out by `primaryAliases`. -/
theorem map_primaryAlias?_matching (d : Dictionary) (token : String) :
    (d.matching token).map d.primaryAlias? = (d.primaryAliases (d.matching token)).map some := by
  rw [primaryAliases_eq]
  exact map_eq_map_some_filterMap fun _ matched =>
    isSome_primaryAlias?_of_mayMean (mem_matching.mp matched)

end Dictionary

/-! ### What is said about a word -/

namespace Session

variable {session : Session} {token : String} {coloured : Bool}

theorem describe_of_find {command : Command}
    (found : session.dictionary.find token = some command) :
    session.describe coloured token = .ok (command.help
      ++ String.join (command.argumentTypes.map (session.typeText coloured))) := by
  simp only [describe, found, commandText]

theorem describe_of_find_eq_none (unknown : session.dictionary.find token = none) :
    session.describe coloured token
      = .error (.unknownCommand token session.dictionary.name
        (session.dictionary.primaryAliases (session.dictionary.matching token))) := by
  simp only [describe, unknown]

/-- In a `session`, the look-up of `token` and the `ranking` for it say the same. -/
structure Agrees (session : Session) (token : String) (ranking : Ranking) : Prop where
  /-- The look-up leads to the command of the exact match. -/
  found : ∀ i, session.dictionary.findIndex token = some i
    ↔ ∃ best, ranking.best = some best ∧ best.exact = true ∧ best.command = i
  /-- An exact match is at the first place of the word in its command. -/
  place : ∀ best, ranking.best = some best → best.exact = true →
    ∃ command, session.dictionary.command? best.command = some command
      ∧ command.aliases.idxOf? token = some best.place
  /-- The words that `Session.describe` answers are the exact matches. -/
  described_iff : ∀ coloured, (∃ text, session.describe coloured token = .ok text)
    ↔ ranking.isExact = true
  /-- The command that is described is the first of the candidates. -/
  described : ∀ coloured text, session.describe coloured token = .ok text →
    ∃ i command, ranking.candidates.head? = some i ∧ session.dictionary.command? i = some command
      ∧ text = command.help ++ String.join (command.argumentTypes.map (session.typeText coloured))
  /-- If there is none, all candidates are suggested by name, in the order of declaration. -/
  refused : ∀ coloured failure, session.describe coloured token = .error failure →
    ∃ (found : List Nat) (suggestions : List String), found.Perm ranking.candidates
      ∧ found.Pairwise (· < ·)
      ∧ found.map session.dictionary.primaryAlias? = suggestions.map some
      ∧ failure = .unknownCommand token session.dictionary.name suggestions
      ∧ failure.message = "no command '" ++ token ++ "' in dialect " ++ session.dictionary.name
        ++ if suggestions.isEmpty then ""
          else " (did you mean: " ++ ", ".intercalate suggestions ++ "?)"

/-- Where `IsIndexed` holds for the dictionary, the look-up and the ranking agree. -/
theorem agrees_of_isIndexed (indexed : session.dictionary.IsIndexed) (present : token ≠ "") :
    session.Agrees token
      (session.dictionary.rank token (session.dictionary.matching token)) where
  found _ := indexed.findIndex_eq_some_iff present
  place _ := Dictionary.idxOf?_of_exact present
  described_iff coloured := by
    rw [← indexed.exists_find_iff present]
    constructor
    · rintro ⟨text, described⟩
      cases found : session.dictionary.find token with
      | some command => exact ⟨command, rfl⟩
      | none =>
        rw [describe_of_find_eq_none found] at described
        cases described
    · rintro ⟨command, found⟩
      exact ⟨_, describe_of_find found⟩
  described coloured text described := by
    cases found : session.dictionary.find token with
    | none =>
      rw [describe_of_find_eq_none found] at described
      cases described
    | some command =>
      rw [describe_of_find found] at described
      obtain ⟨best, elected, -, holds⟩ := (indexed.find_eq_some_iff present).mp found
      exact ⟨best.command, command, Dictionary.head?_candidates_rank elected, holds,
        (Except.ok.inj described).symm⟩
  refused coloured failure refused := by
    cases found : session.dictionary.find token with
    | some command =>
      rw [describe_of_find found] at refused
      cases refused
    | none =>
      rw [describe_of_find_eq_none found] at refused
      obtain rfl := Except.error.inj refused
      exact ⟨session.dictionary.matching token, _,
        (session.dictionary.perm_candidates_rank token _).symm,
        session.dictionary.pairwise_matching token,
        session.dictionary.map_primaryAlias?_matching token, rfl, rfl⟩

end Session

end Wordbook
