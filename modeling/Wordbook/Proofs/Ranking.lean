import Mathlib.Data.Prod.Lex
import Mathlib.Logic.Equiv.Basic
import Wordbook.Ranking

/-!
# Which alias is best

The commands that a word may stand for, and the alias that `rank` elects for it, said by positions:
the aliases of a dictionary are compared by length and, among equals, by where they are declared.

## Main Definitions

* `Hit.order` — what hits are compared by
* `Dictionary.MayMean` — a word opens an alias of a command
* `Dictionary.alias?` — the alias at a place of a command
* `Dictionary.IsBest` — the alias that is best for a word

## Main Statements

* `Dictionary.mem_matching`, `Dictionary.pairwise_matching` — the commands that a word may stand for
* `Dictionary.shortest_hits` — the elected hit is the least one
* `getElem?_bringForward` — two entries change places and the others stay
* `Dictionary.best_rank_matching` — the best alias is elected, and its command comes first
* `Dictionary.IsBest.of_prefix` — the best alias stays the best while more of it is typed

## Design Notes

Hits are numbered by candidates, and a longer word has fewer candidates.  `IsBest` therefore
compares the aliases by their positions in the dictionary, which are the same for every word.
-/

namespace Wordbook

/-! ### Words and the aliases they open -/

section Opens

variable {token name : String}

theorem opens_iff : opens token name = true ↔ token ≠ "" ∧ token.toList <+: name.toList := by
  rw [opens, Bool.and_eq_true, List.isPrefixOf_iff_prefix, Bool.not_eq_true', ← Bool.not_eq_true,
    String.isEmpty_iff]

/-- A command answers to `token` if `token` is not empty and an alias begins with it. -/
theorem Command.answers_iff {command : Command} : command.answers token = true
    ↔ token ≠ "" ∧ ∃ name ∈ command.aliases, token.toList <+: name.toList := by
  simp only [Command.answers, List.any_eq_true, opens_iff]
  constructor
  · rintro ⟨name, member, present, opened⟩
    exact ⟨present, name, member, opened⟩
  · rintro ⟨present, name, member, opened⟩
    exact ⟨name, member, present, opened⟩

/-- Of the texts that begin with `token` only `token` itself is as short. -/
theorem length_eq_iff_eq_token (opened : token.toList <+: name.toList) :
    name.length = token.length ↔ name = token := by
  refine ⟨fun same => ?_, fun equal => congrArg String.length equal⟩
  exact (String.toList_inj.mp (opened.eq_of_length same.symm)).symm

theorem eq_token_of_length_le (opened : token.toList <+: name.toList)
    (short : name.length ≤ token.length) : name = token :=
  (length_eq_iff_eq_token opened).mp (Nat.le_antisymm short opened.length_le)

theorem ne_empty_of_grows {longer : String} (present : token ≠ "")
    (grows : token.toList <+: longer.toList) : longer ≠ "" := by
  rintro rfl
  exact present (String.toList_eq_nil_iff.mp (List.prefix_nil.mp grows))

end Opens

/-! ### The elected hit -/

/-- Hits are compared by `length`, then by `slot`, then by `place`. -/
def Hit.order (hit : Hit) : Nat ×ₗ Nat ×ₗ Nat := toLex (hit.length, toLex (hit.slot, hit.place))

/-- Of two hits, `hit` is found before `other`. -/
def Hit.Before (hit other : Hit) : Prop :=
  toLex (hit.slot, hit.place) < toLex (other.slot, other.place)

theorem shortest_eq_none_iff {hits : List Hit} : shortest hits = none ↔ hits = [] := by
  cases hits with
  | nil => exact ⟨fun _ => rfl, fun _ => rfl⟩
  | cons hit more =>
    refine ⟨fun none => ?_, fun empty => by cases empty⟩
    rw [shortest] at none
    split at none
    · cases none
    · split at none <;> cases none

/-- The hit that `shortest` returns is the least one by `Hit.order`, if the hits are listed in the
order of candidates and places. -/
theorem isLeast_shortest {hits : List Hit} {hit : Hit} (sorted : hits.Pairwise Hit.Before)
    (found : shortest hits = some hit) : hit ∈ hits ∧ ∀ other ∈ hits, hit.order ≤ other.order := by
  induction hits generalizing hit with
  | nil => cases found
  | cons first more ih =>
    obtain ⟨before, sorted⟩ := List.pairwise_cons.mp sorted
    rw [shortest] at found
    cases rest : shortest more with
    | none =>
      rw [rest, Option.some_inj] at found
      rw [shortest_eq_none_iff.mp rest, ← found]
      exact ⟨List.mem_singleton_self first, fun other member => by
        rw [List.mem_singleton.mp member]⟩
    | some least =>
      obtain ⟨member, below⟩ := ih sorted rest
      simp only [rest] at found
      by_cases shorter : least.length < first.length
      · rw [if_pos shorter, Option.some_inj] at found
        subst found
        refine ⟨List.mem_cons_of_mem first member, ?_⟩
        rintro other (_ | ⟨_, later⟩)
        · exact Prod.Lex.toLex_le_toLex.mpr (Or.inl shorter)
        · exact below other later
      · rw [if_neg shorter, Option.some_inj] at found
        subst found
        refine ⟨List.mem_cons_self, ?_⟩
        -- A hit that is as short comes later, and one that comes later is not shorter than `least`.
        have first_le : first.order ≤ least.order := by
          rcases Nat.lt_or_eq_of_le (Nat.le_of_not_lt shorter) with longer | same
          · exact Prod.Lex.toLex_le_toLex.mpr (Or.inl longer)
          · exact Prod.Lex.toLex_le_toLex.mpr (Or.inr ⟨same, (before least member).le⟩)
        rintro other (_ | ⟨_, later⟩)
        · exact le_rfl
        · exact first_le.trans (below other later)

/-! ### Changing places -/

section BringForward

variable {α : Type} {entries : List α} {slot : Nat}

theorem bringForward_of_lt (inside : slot < entries.length) :
    bringForward entries slot
      = (entries.set 0 entries[slot]).set slot (entries.get ⟨0, Nat.zero_lt_of_lt inside⟩) := by
  rw [bringForward, List.getElem?_eq_getElem (Nat.zero_lt_of_lt inside),
    List.getElem?_eq_getElem inside, List.get_eq_getElem]

/-- The first entry and the one at `slot` change places in `bringForward entries slot`, and the
others stay where they are. -/
theorem getElem?_bringForward (inside : slot < entries.length) (i : Nat) :
    (bringForward entries slot)[i]? = entries[Equiv.swap 0 slot i]? := by
  have first := List.getElem?_eq_getElem (Nat.zero_lt_of_lt inside)
  have chosen := List.getElem?_eq_getElem inside
  rw [bringForward_of_lt inside]
  by_cases atSlot : slot = i
  · subst atSlot
    rw [Equiv.swap_apply_right, first, List.getElem?_set_self (by rwa [List.length_set]),
      List.get_eq_getElem]
  · rw [List.getElem?_set_ne atSlot]
    by_cases atFront : 0 = i
    · subst atFront
      rw [Equiv.swap_apply_left, chosen, List.getElem?_set_self (Nat.zero_lt_of_lt inside)]
    · rw [List.getElem?_set_ne atFront, Equiv.swap_apply_of_ne_of_ne (Ne.symm atFront)
        (Ne.symm atSlot)]

theorem perm_bringForward (inside : slot < entries.length) :
    (bringForward entries slot).Perm entries := by
  rw [bringForward_of_lt inside]
  exact List.set_set_perm (Nat.zero_lt_of_lt inside) inside

end BringForward

namespace Dictionary

variable {d : Dictionary} {token : String} {candidates : List Nat} {hit : Hit}

/-! ### The commands a word may stand for -/

/-- The word `token` may mean the command at `position`: it opens one of its names.  The empty word
means nothing. -/
def MayMean (d : Dictionary) (token : String) (position : Nat) : Prop :=
  token ≠ "" ∧ ∃ command, d.command? position = some command
    ∧ ∃ name ∈ command.aliases, token.toList <+: name.toList

theorem mem_matching {i : Nat} : i ∈ d.matching token ↔ d.MayMean token i := by
  simp only [matching, MayMean, command?, List.mem_map, List.mem_filter, Prod.exists,
    List.mk_mem_zipIdx_iff_getElem?, Command.answers_iff]
  constructor
  · rintro ⟨command, i, ⟨found, present, answered⟩, rfl⟩
    exact ⟨present, command, found, answered⟩
  · rintro ⟨present, command, found, answered⟩
    exact ⟨command, i, ⟨found, present, answered⟩, rfl⟩

/-- The commands of `matching` are listed in the order of declaration, each once. -/
theorem pairwise_matching (d : Dictionary) (token : String) :
    (d.matching token).Pairwise (· < ·) := by
  have listed : (d.commands.zipIdx.map Prod.snd).Pairwise (· < ·) := by
    rw [List.zipIdx_map_snd]
    exact List.pairwise_lt_range' 1
  exact listed.sublist (List.filter_sublist.map Prod.snd)

/-- The alias at `place` of the command at `position`. -/
def alias? (d : Dictionary) (position place : Nat) : Option String :=
  (d.command? position).bind (·.aliases[place]?)

theorem alias?_eq_some_iff {position place : Nat} {name : String} :
    d.alias? position place = some name
      ↔ ∃ command, d.command? position = some command ∧ command.aliases[place]? = some name :=
  Option.bind_eq_some_iff

theorem exists_alias?_iff {name : String} :
    (∃ i j, d.alias? i j = some name) ↔ ∃ command ∈ d.commands, name ∈ command.aliases := by
  simp only [alias?_eq_some_iff, command?, List.mem_iff_getElem?]
  constructor
  · rintro ⟨i, j, command, found, declared⟩
    exact ⟨command, ⟨i, found⟩, j, declared⟩
  · rintro ⟨command, ⟨i, found⟩, j, declared⟩
    exact ⟨i, j, command, found, declared⟩

/-- The word `token` may mean the commands that have an alias for it at some place. -/
theorem mayMean_iff_alias? {i : Nat} :
    d.MayMean token i ↔ token ≠ ""
      ∧ ∃ place name, d.alias? i place = some name ∧ token.toList <+: name.toList := by
  simp only [MayMean, alias?_eq_some_iff, List.mem_iff_getElem?]
  constructor
  · rintro ⟨present, command, found, name, ⟨place, declared⟩, opened⟩
    exact ⟨present, place, name, ⟨command, found, declared⟩, opened⟩
  · rintro ⟨present, place, name, ⟨command, found, declared⟩, opened⟩
    exact ⟨present, command, found, name, ⟨place, declared⟩, opened⟩

/-! ### Hits -/

theorem mem_hitsAt {position slot : Nat} :
    hit ∈ d.hitsAt token position slot
      ↔ hit.slot = slot ∧ hit.command = position
        ∧ ∃ name, d.alias? position hit.place = some name ∧ opens token name = true
          ∧ hit.length = name.length := by
  unfold hitsAt alias?
  cases d.command? position with
  | none => simp
  | some command =>
    simp only [List.mem_map, List.mem_filter, Prod.exists, List.mk_mem_zipIdx_iff_getElem?,
      Option.bind_some]
    constructor
    · rintro ⟨name, place, ⟨declared, opened⟩, rfl⟩
      exact ⟨rfl, rfl, name, declared, opened, rfl⟩
    · rintro ⟨rfl, rfl, name, declared, opened, long⟩
      exact ⟨name, hit.place, ⟨declared, opened⟩, by rw [← long]⟩

theorem mem_hits :
    hit ∈ d.hits token candidates
      ↔ candidates[hit.slot]? = some hit.command
        ∧ ∃ name, d.alias? hit.command hit.place = some name ∧ opens token name = true
          ∧ hit.length = name.length := by
  simp only [hits, List.mem_flatMap, Prod.exists, List.mk_mem_zipIdx_iff_getElem?, mem_hitsAt]
  constructor
  · rintro ⟨position, slot, listed, rfl, rfl, found⟩
    exact ⟨listed, found⟩
  · rintro ⟨listed, found⟩
    exact ⟨hit.command, hit.slot, listed, rfl, rfl, found⟩

theorem pairwise_zipIdx {α : Type} (entries : List α) :
    entries.zipIdx.Pairwise (fun a b => a.2 < b.2) := by
  rw [← List.pairwise_map (f := Prod.snd) (R := (· < ·)), List.zipIdx_map_snd]
  exact List.pairwise_lt_range' 1

theorem pairwise_hitsAt (d : Dictionary) (token : String) (position slot : Nat) :
    (d.hitsAt token position slot).Pairwise Hit.Before := by
  unfold hitsAt
  split
  · exact List.Pairwise.nil
  next command _ =>
    refine List.pairwise_map.mpr
      (((pairwise_zipIdx command.aliases).sublist List.filter_sublist).imp ?_)
    intro a b earlier
    exact Prod.Lex.toLex_lt_toLex.mpr (Or.inr ⟨rfl, earlier⟩)

/-- The hits are listed candidate by candidate and place by place. -/
theorem pairwise_hits (d : Dictionary) (token : String) (candidates : List Nat) :
    (d.hits token candidates).Pairwise Hit.Before := by
  refine List.pairwise_flatMap.mpr ⟨fun entry _ => d.pairwise_hitsAt token entry.1 entry.2, ?_⟩
  refine (pairwise_zipIdx candidates).imp fun {a b} earlier hit found other later => ?_
  obtain ⟨first, -⟩ := mem_hitsAt.mp found
  obtain ⟨second, -⟩ := mem_hitsAt.mp later
  exact Prod.Lex.toLex_lt_toLex.mpr (Or.inl (by rwa [first, second]))

/-- The hit that `shortest` returns is the least of all `hits`. -/
theorem shortest_hits (found : shortest (d.hits token candidates) = some hit) :
    hit ∈ d.hits token candidates ∧ ∀ other ∈ d.hits token candidates, hit.order ≤ other.order :=
  isLeast_shortest (d.pairwise_hits token candidates) found

/-- There is no shortest hit exactly if the word opens no alias of any candidate. -/
theorem shortest_hits_eq_none_iff :
    shortest (d.hits token candidates) = none
      ↔ ∀ i ∈ candidates, ∀ place name, d.alias? i place = some name →
        ¬ (token ≠ "" ∧ token.toList <+: name.toList) := by
  simp only [shortest_eq_none_iff, List.eq_nil_iff_forall_not_mem, ← opens_iff]
  constructor
  · intro none i listed place name declared opened
    obtain ⟨slot, listed⟩ := List.mem_iff_getElem?.mp listed
    exact none ⟨slot, i, place, name.length⟩ (mem_hits.mpr ⟨listed, name, declared, opened, rfl⟩)
  · intro none hit member
    obtain ⟨listed, name, declared, opened, -⟩ := mem_hits.mp member
    exact none hit.command (List.mem_of_getElem? listed) hit.place name declared opened

/-! ### The order of the candidates -/

/-- In the candidates of `rank` at most one has changed places with the first. -/
theorem exists_swap_rank (d : Dictionary) (token : String) (candidates : List Nat) :
    ∃ slot, (slot = 0 ∨ slot < candidates.length)
      ∧ ∀ i, (d.rank token candidates).candidates[i]? = candidates[Equiv.swap 0 slot i]? := by
  unfold rank
  split
  · exact ⟨0, Or.inl rfl, fun i => by rw [Equiv.swap_self, Equiv.refl_apply]⟩
  next hit found =>
    have inside := (List.getElem?_eq_some_iff.mp (mem_hits.mp (shortest_hits found).1).1).1
    exact ⟨hit.slot, Or.inr inside, getElem?_bringForward inside⟩

/-- The candidates of `rank` are those that it is given. -/
theorem perm_candidates_rank (d : Dictionary) (token : String) (candidates : List Nat) :
    (d.rank token candidates).candidates.Perm candidates := by
  unfold rank
  split
  · exact List.Perm.refl candidates
  next hit found =>
    have inside := (List.getElem?_eq_some_iff.mp (mem_hits.mp (shortest_hits found).1).1).1
    exact perm_bringForward inside

/-- The command of `Ranking.best` comes first. -/
theorem head?_candidates_rank {best : Best} (elected : (d.rank token candidates).best = some best) :
    (d.rank token candidates).candidates.head? = some best.command := by
  unfold rank at elected ⊢
  split at elected
  · cases elected
  next hit found =>
    have listed := (mem_hits.mp (shortest_hits found).1).1
    have inside := (List.getElem?_eq_some_iff.mp listed).1
    cases elected
    rw [List.head?_eq_getElem?, getElem?_bringForward inside, Equiv.swap_apply_left, listed]

/-! ### The best alias -/

/-- Of all aliases that `token` opens, `name`, which stands at `place` of the command at `position`,
is the shortest, and the first among the shortest. -/
structure IsBest (d : Dictionary) (token : String) (position place : Nat) (name : String) :
    Prop where
  /-- It stands at that place. -/
  declared : d.alias? position place = some name
  /-- The empty word opens nothing. -/
  present : token ≠ ""
  /-- The word opens it. -/
  opened : token.toList <+: name.toList
  /-- No alias that the word opens is shorter, or as short and declared before. -/
  least : ∀ i j other, d.alias? i j = some other → token.toList <+: other.toList →
    toLex (name.length, toLex (position, place)) ≤ toLex (other.length, toLex (i, j))

namespace IsBest

variable {position place : Nat} {name : String}

theorem unique (best : d.IsBest token position place name) {i j : Nat} {other : String}
    (again : d.IsBest token i j other) : position = i ∧ place = j ∧ name = other := by
  have same := (best.least i j other again.declared again.opened).antisymm
    (again.least position place name best.declared best.opened)
  obtain ⟨-, same⟩ := Prod.mk.inj (toLex.injective same)
  obtain ⟨rfl, rfl⟩ := Prod.mk.inj (toLex.injective same)
  exact ⟨rfl, rfl, Option.some_inj.mp (best.declared.symm.trans again.declared)⟩

/-- While more of it is typed, the best alias stays the best. -/
theorem of_prefix (best : d.IsBest token position place name) {longer : String}
    (grows : token.toList <+: longer.toList) (opened : longer.toList <+: name.toList) :
    d.IsBest longer position place name where
  declared := best.declared
  present := ne_empty_of_grows best.present grows
  opened := opened
  least i j other declared opened' := best.least i j other declared (grows.trans opened')

/-- The best alias is `token` itself exactly if `token` is an alias. -/
theorem eq_token_iff (best : d.IsBest token position place name) :
    name = token ↔ ∃ i j, d.alias? i j = some token := by
  refine ⟨fun same => ⟨position, place, same ▸ best.declared⟩, ?_⟩
  rintro ⟨i, j, declared⟩
  have below := best.least i j token declared List.prefix_rfl
  exact eq_token_of_length_le best.opened (Prod.Lex.monotone_fst _ _ below)

end IsBest

/-- The hit that `shortest` returns is the best alias, for the candidates of `matching`. -/
theorem isBest_of_shortest (found : shortest (d.hits token (d.matching token)) = some hit) :
    ∃ name, d.IsBest token hit.command hit.place name ∧ hit.length = name.length := by
  obtain ⟨member, least⟩ := shortest_hits found
  obtain ⟨listed, name, declared, opened, long⟩ := mem_hits.mp member
  obtain ⟨present, opened⟩ := opens_iff.mp opened
  refine ⟨name, ⟨declared, present, opened, ?_⟩, long⟩
  intro i j other declared' opened'
  obtain ⟨slot, listed'⟩ := List.mem_iff_getElem?.mp
    (mem_matching.mpr (mayMean_iff_alias?.mpr ⟨present, j, other, declared', opened'⟩))
  have below := least ⟨slot, i, j, other.length⟩
    (mem_hits.mpr ⟨listed', other, declared', opens_iff.mpr ⟨present, opened'⟩, rfl⟩)
  simp only [Hit.order, long, Prod.Lex.toLex_le_toLex] at below ⊢
  -- The candidates ascend, so a later candidate is a command declared later.
  have ascending : hit.slot < slot → hit.command < i := by
    intro before
    obtain ⟨inside, first⟩ := List.getElem?_eq_some_iff.mp listed
    obtain ⟨inside', second⟩ := List.getElem?_eq_some_iff.mp listed'
    rw [← first, ← second]
    exact List.pairwise_iff_getElem.mp (d.pairwise_matching token) _ _ inside inside' before
  rcases below with shorter | ⟨same, before | ⟨rfl, inOrder⟩⟩
  · exact Or.inl shorter
  · exact Or.inr ⟨same, Or.inl (ascending before)⟩
  · rw [listed, Option.some_inj] at listed'
    exact Or.inr ⟨same, Or.inr ⟨listed', inOrder⟩⟩

/-- What `rank` elects for a word is the best alias, and it is exact if it is the word itself. -/
theorem isBest_of_rank {best : Best}
    (elected : (d.rank token (d.matching token)).best = some best) :
    ∃ name, d.IsBest token best.command best.place name ∧ (best.exact = true ↔ name = token) := by
  unfold rank at elected
  split at elected
  · cases elected
  next hit found =>
    cases elected
    obtain ⟨name, isBest, long⟩ := isBest_of_shortest found
    exact ⟨name, isBest, by rw [beq_iff_eq, long, length_eq_iff_eq_token isBest.opened]⟩

/-- The ranking has a `best` if the word opens any alias at all. -/
theorem exists_best_rank {i place : Nat} {name : String} (declared : d.alias? i place = some name)
    (present : token ≠ "") (opened : token.toList <+: name.toList) :
    ∃ best, (d.rank token (d.matching token)).best = some best := by
  unfold rank
  split
  next none =>
    have listed := mem_matching.mpr
      (mayMean_iff_alias?.mpr ⟨present, place, name, declared, opened⟩)
    exact absurd ⟨present, opened⟩ (shortest_hits_eq_none_iff.mp none i listed place name declared)
  next hit _ => exact ⟨⟨hit.command, hit.place, hit.length == token.length⟩, rfl⟩

theorem best_rank_matching {best : Best} :
    (d.rank token (d.matching token)).best = some best
      ↔ ∃ name, d.IsBest token best.command best.place name
        ∧ (best.exact = true ↔ name = token) := by
  refine ⟨isBest_of_rank, ?_⟩
  rintro ⟨name, isBest, exact_iff⟩
  obtain ⟨other, elected⟩ := exists_best_rank isBest.declared isBest.present isBest.opened
  obtain ⟨name', isBest', exact_iff'⟩ := isBest_of_rank elected
  obtain ⟨sameCommand, samePlace, rfl⟩ := isBest.unique isBest'
  have sameExact : best.exact = other.exact :=
    Bool.eq_iff_iff.mpr (exact_iff.trans exact_iff'.symm)
  rw [elected, Option.some_inj]
  cases best
  exact (Best.mk.injEq ..).mpr ⟨sameCommand.symm, samePlace.symm, sameExact.symm⟩

/-- For a word that is not empty, `Ranking.isExact` holds exactly if the word is an alias. -/
theorem isExact_rank_matching :
    (d.rank token (d.matching token)).isExact = true
      ↔ token ≠ "" ∧ ∃ command ∈ d.commands, token ∈ command.aliases := by
  rw [← exists_alias?_iff, Ranking.isExact]
  cases elected : (d.rank token (d.matching token)).best with
  | none =>
    refine ⟨fun exact => (Bool.false_ne_true exact).elim, ?_⟩
    rintro ⟨present, i, j, declared⟩
    obtain ⟨best, found⟩ := exists_best_rank declared present List.prefix_rfl
    rw [elected] at found
    cases found
  | some best =>
    obtain ⟨name, isBest, exact_iff⟩ := best_rank_matching.mp elected
    show best.exact = true ↔ _
    rw [exact_iff, isBest.eq_token_iff, and_iff_right isBest.present]

end Dictionary

end Wordbook
