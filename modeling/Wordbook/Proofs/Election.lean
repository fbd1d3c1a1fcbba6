import Mathlib.Data.List.Basic
import Wordbook.Proofs.Growth

/-!
# The best alias among candidates

What `Dictionary.rank` elects among any candidates, also if some are repeated, out of order or no
commands at all, and how `matching` and `bestFor` change while the word grows.

## Main Definitions

* `Hit.search` — a fold over the hits that ends at the first one of a given length
* `Dictionary.Matches`, `Dictionary.IsLeastMatch` — an alias of a candidate that the word opens, and
  the one that comes before all others
* `Dictionary.Elects` — the `best` of a ranking is the least match, and its candidate has changed
  places with the first
* `Dictionary.Narrows` — a longer word leaves some of the candidates of a word

## Main Statements

* `Dictionary.search_hits` — the search may stop at an alias that is as long as the word
* `rank_elects` — ranking elects the least match of all candidates
* `longer_narrows` — what is found for a longer word, in terms of what was found before

## Design Notes

Among candidates that are given, a match is known by its slot: a command that is listed twice has
its aliases twice, and those of the first slot come first.  For the candidates of `matching` the
slots say nothing new, and `IsBest` compares positions instead.
-/

namespace Wordbook

/-! ### Stopping early -/

/-- The better of the `best` hit so far and the next one, which has to be shorter. -/
def Hit.better (best : Option Hit) (hit : Hit) : Hit :=
  match best with
  | none => hit
  | some first => if hit.length < first.length then hit else first

/-- Goes through hits with the best one so far.  A hit of the given `length` ends the search. -/
def Hit.search (length : Nat) : Option Hit → List Hit → Option Hit
  | best, [] => best
  | best, hit :: more =>
    if hit.length = length then some hit else search length (some (better best hit)) more

/-- Of two hits in a row `shortest` drops one: the first if the second is shorter, and otherwise the
second. -/
theorem shortest_cons_cons (first second : Hit) (more : List Hit) :
    shortest (first :: second :: more)
      = shortest ((if second.length < first.length then second else first) :: more) := by
  simp only [shortest]
  cases shortest more with
  | none => grind
  | some least => grind

/-- A hit that comes first, with none behind it that is shorter, is what `shortest` returns. -/
theorem shortest_cons_of_le {hit : Hit} {more : List Hit}
    (least : ∀ other ∈ more, hit.length ≤ other.length) : shortest (hit :: more) = some hit := by
  induction more with
  | nil => rfl
  | cons second more ih =>
    have beaten := least second List.mem_cons_self
    rw [shortest_cons_cons, if_neg (Nat.not_lt_of_le beaten)]
    exact ih fun other member => least other (List.mem_cons_of_mem second member)

theorem shortest_better (best : Option Hit) (hit : Hit) (more : List Hit) :
    shortest (best.toList ++ hit :: more) = shortest (Hit.better best hit :: more) := by
  cases best with
  | none => rfl
  | some first => exact shortest_cons_cons first hit more

theorem Hit.lt_better {length : Nat} {best : Option Hit} {hit : Hit} (above : length < hit.length)
    (longer : ∀ first ∈ best, length < first.length) : length < (Hit.better best hit).length := by
  unfold Hit.better
  split
  · exact above
  next first =>
    split
    · exact above
    · exact longer first rfl

/-- Where no hit falls below `length`, `Hit.search length` finds what `shortest` does.  The best one
so far has not ended the search, so it is longer; this is what the induction carries along. -/
theorem Hit.search_eq_shortest {length : Nat} {hits : List Hit} (best : Option Hit)
    (bounded : ∀ hit ∈ hits, length ≤ hit.length)
    (longer : ∀ first ∈ best, length < first.length) :
    Hit.search length best hits = shortest (best.toList ++ hits) := by
  induction hits generalizing best with
  | nil => cases best <;> rfl
  | cons hit more ih =>
    have bounded' : ∀ other ∈ more, length ≤ other.length := fun other member =>
      bounded other (List.mem_cons_of_mem hit member)
    rw [Hit.search, shortest_better]
    by_cases ends : hit.length = length
    · have beats : Hit.better best hit = hit := by
        cases best with
        | none => rfl
        | some first => exact if_pos (ends ▸ longer first rfl)
      rw [if_pos ends, beats, shortest_cons_of_le (by rwa [ends])]
    · have above := Nat.lt_of_le_of_ne (bounded hit List.mem_cons_self) (Ne.symm ends)
      rw [if_neg ends]
      refine ih (some (Hit.better best hit)) bounded' ?_
      rintro first ⟨⟩
      exact Hit.lt_better above longer

namespace Dictionary

variable {d : Dictionary} {token longer : String} {candidates : List Nat}

/-- No alias that a word opens is shorter than the word, so the search for the best may stop at one
that is as long. -/
theorem search_hits (d : Dictionary) (token : String) (candidates : List Nat) :
    Hit.search token.length none (d.hits token candidates)
      = shortest (d.hits token candidates) := by
  refine Hit.search_eq_shortest none (fun hit member => ?_) (fun hit is => by cases is)
  obtain ⟨-, name, -, opened, long⟩ := mem_hits.mp member
  rw [long]
  exact (opens_iff.mp opened).2.length_le

/-! ### The least match -/

/-- The candidate in a `slot` of `candidates` is the command at `position`, which has at `place` an
alias `name` that `token` opens. -/
structure Matches (d : Dictionary) (token : String) (candidates : List Nat)
    (slot position place : Nat) (name : String) : Prop where
  /-- The candidate. -/
  listed : candidates[slot]? = some position
  /-- The alias at a place of its command, if there is such a command. -/
  declared : d.alias? position place = some name
  /-- The empty word opens nothing. -/
  present : token ≠ ""
  /-- The word opens the alias. -/
  opened : token.toList <+: name.toList

/-- Of all that `Matches`, it is the shortest, of those in the first slot, and there in the first
place. -/
structure IsLeastMatch (d : Dictionary) (token : String) (candidates : List Nat)
    (slot position place : Nat) (name : String) : Prop
    extends d.Matches token candidates slot position place name where
  /-- No match comes before it. -/
  least : ∀ slot' position' place' name', d.Matches token candidates slot' position' place' name' →
    toLex (name.length, toLex (slot, place)) ≤ toLex (name'.length, toLex (slot', place'))

/-- The `ranking` is what has to come of ranking `candidates` for `token`: the least match is
elected, and its candidate changes places with the first. -/
structure Elects (d : Dictionary) (token : String) (candidates : List Nat) (ranking : Ranking) :
    Prop where
  /-- The word is kept. -/
  word : ranking.token = token
  /-- Nothing is elected exactly if no candidate has an alias that the word opens. -/
  none_iff : ranking.best = none
    ↔ ∀ position ∈ candidates, ∀ place name, d.alias? position place = some name →
      ¬ (token ≠ "" ∧ token.toList <+: name.toList)
  /-- The least match is elected.  It is exact if it is the word itself, and it is if any candidate
  has the word as an alias.  Its candidate changes places with the first, and the others stay. -/
  least : ∀ best, ranking.best = some best → ∃ slot name,
    d.IsLeastMatch token candidates slot best.command best.place name
      ∧ (best.exact = true ↔ name = token)
      ∧ (best.exact = true ↔ ∃ position ∈ candidates, ∃ place, d.alias? position place = some token)
      ∧ ∀ i, ranking.candidates[i]? = candidates[Equiv.swap 0 slot i]?
  /-- Nothing moves if nothing is elected. -/
  unmoved : ranking.best = none → ranking.candidates = candidates
  /-- What is elected is found by a search that stops at an alias as long as the word. -/
  search : ranking.best = (Hit.search token.length none (d.hits token candidates)).map fun hit =>
    ⟨hit.command, hit.place, hit.length == token.length⟩

/-- What `Matches` are the entries of `hits`. -/
theorem matches_iff_mem_hits {slot position place : Nat} {name : String} :
    d.Matches token candidates slot position place name
      ↔ d.alias? position place = some name
        ∧ ⟨slot, position, place, name.length⟩ ∈ d.hits token candidates := by
  rw [mem_hits]
  constructor
  · intro isMatch
    have opened := opens_iff.mpr ⟨isMatch.present, isMatch.opened⟩
    exact ⟨isMatch.declared, isMatch.listed, name, isMatch.declared, opened, rfl⟩
  · rintro ⟨declared, listed, other, declared', opened, -⟩
    obtain rfl := Option.some_inj.mp (declared.symm.trans declared')
    obtain ⟨present, opened⟩ := opens_iff.mp opened
    exact ⟨listed, declared, present, opened⟩

theorem exists_matches_of_mem_hits {hit : Hit} (member : hit ∈ d.hits token candidates) :
    ∃ name, d.Matches token candidates hit.slot hit.command hit.place name
      ∧ hit.length = name.length := by
  obtain ⟨listed, name, declared, opened, long⟩ := mem_hits.mp member
  obtain ⟨present, opened⟩ := opens_iff.mp opened
  exact ⟨name, ⟨listed, declared, present, opened⟩, long⟩

/-- The hit that `shortest` returns is the least match. -/
theorem exists_isLeastMatch_of_shortest {hit : Hit}
    (found : shortest (d.hits token candidates) = some hit) :
    ∃ name, d.IsLeastMatch token candidates hit.slot hit.command hit.place name
      ∧ hit.length = name.length := by
  obtain ⟨member, least⟩ := shortest_hits found
  obtain ⟨name, isMatch, long⟩ := exists_matches_of_mem_hits member
  refine ⟨name, ⟨isMatch, fun slot' position' place' name' other => ?_⟩, long⟩
  rw [← long]
  exact least ⟨slot', position', place', name'.length⟩ (matches_iff_mem_hits.mp other).2

/-- The least match is `token` itself exactly if some candidate has `token` as an alias. -/
theorem IsLeastMatch.eq_token_iff {slot position place : Nat} {name : String}
    (isLeast : d.IsLeastMatch token candidates slot position place name) :
    name = token ↔ ∃ position ∈ candidates, ∃ place, d.alias? position place = some token := by
  constructor
  · rintro rfl
    exact ⟨position, List.mem_of_getElem? isLeast.listed, place, isLeast.declared⟩
  · rintro ⟨position', listed, place', declared⟩
    obtain ⟨slot', listed⟩ := List.mem_iff_getElem?.mp listed
    have below := isLeast.least slot' position' place' token
      ⟨listed, declared, isLeast.present, List.prefix_rfl⟩
    exact eq_token_of_length_le isLeast.opened (Prod.Lex.monotone_fst _ _ below)

end Dictionary

/-- For arbitrary `candidates`, `rank` elects the least match, and all it moves is the candidate
that it comes from. -/
theorem rank_elects (d : Dictionary) (token : String) (candidates : List Nat) :
    d.Elects token candidates (d.rank token candidates) := by
  cases found : shortest (d.hits token candidates) with
  | none =>
    have ranked : d.rank token candidates = ⟨token, candidates, none⟩ := by
      rw [Dictionary.rank, found]
    rw [ranked]
    exact {
      word := rfl
      none_iff := iff_of_true rfl (Dictionary.shortest_hits_eq_none_iff.mp found)
      least := fun best is => by cases is
      unmoved := fun _ => rfl
      search := by rw [Dictionary.search_hits, found]; rfl }
  | some hit =>
    obtain ⟨name, isLeast, long⟩ := Dictionary.exists_isLeastMatch_of_shortest found
    have inside := (List.getElem?_eq_some_iff.mp isLeast.listed).1
    have ranked : d.rank token candidates = ⟨token, bringForward candidates hit.slot,
        some ⟨hit.command, hit.place, hit.length == token.length⟩⟩ := by
      rw [Dictionary.rank, found]
    rw [ranked]
    exact {
      word := rfl
      none_iff := iff_of_false (Option.some_ne_none _) fun none =>
        none hit.command (List.mem_of_getElem? isLeast.listed) hit.place name isLeast.declared
          ⟨isLeast.present, isLeast.opened⟩
      least := by
        rintro best ⟨⟩
        have exact_iff : (hit.length == token.length) = true ↔ name = token := by
          rw [beq_iff_eq, long, length_eq_iff_eq_token isLeast.opened]
        exact ⟨hit.slot, name, isLeast, exact_iff, exact_iff.trans isLeast.eq_token_iff,
          getElem?_bringForward inside⟩
      unmoved := fun is => by cases is
      search := by rw [Dictionary.search_hits, found]; rfl }

/-- A candidate that is no command is passed over, and of a command that is listed twice the first
slot counts. -/
example :
    let d := ((Dictionary.empty "test").addCommand { aliases := ["txa", "tx"] }).addCommand
      { aliases := ["ty"] }
    d.rank "t" [7, 1, 0, 1] = ⟨"t", [1, 7, 0, 1], some ⟨1, 0, false⟩⟩
      ∧ d.rank "tx" [7, 1, 0, 0] = ⟨"tx", [0, 1, 7, 0], some ⟨0, 1, true⟩⟩
      ∧ d.rank "tx" [7, 1] = ⟨"tx", [7, 1], none⟩ := by decide

namespace Dictionary

variable {d : Dictionary} {token longer : String}

/-! ### Longer words -/

/-- The candidates of a longer word are some of those of `token`, in the same order. -/
theorem sublist_matching (present : token ≠ "") (grows : token.toList <+: longer.toList) :
    (d.matching longer).Sublist (d.matching token) := by
  refine List.Sublist.map _ (List.monotone_filter_right _ ?_)
  rintro ⟨command, position⟩ answered
  obtain ⟨-, name, member, opened⟩ := Command.answers_iff.mp answered
  exact Command.answers_iff.mpr ⟨present, name, member, grows.trans opened⟩

/-- What `matching` and `bestFor` return for `longer`, in terms of what they return for `token`. -/
structure Narrows (d : Dictionary) (token longer : String) : Prop where
  /-- Some of the candidates are left, in the same order. -/
  candidates : (d.matching longer).Sublist (d.matching token)
  /-- The alias that is elected is no shorter. -/
  length_le : ∀ best', d.bestFor longer = some best' → ∃ name' best name,
    d.alias? best'.command best'.place = some name' ∧ d.bestFor token = some best
      ∧ d.alias? best.command best.place = some name ∧ name.length ≤ name'.length
  /-- The alias that was elected stays elected if the longer word opens it, and it is exact if that
  is the whole alias. -/
  kept : ∀ best name, d.bestFor token = some best →
    d.alias? best.command best.place = some name → longer.toList <+: name.toList →
    ∃ exact, d.bestFor longer = some ⟨best.command, best.place, exact⟩
      ∧ (exact = true ↔ longer = name)

end Dictionary

/-- While a word grows, `matching` only loses candidates, the alias of `bestFor` does not become
shorter, and it stays the same as long as it is the one that is typed. -/
theorem longer_narrows (d : Dictionary) {token longer : String} (present : token ≠ "")
    (grows : token.toList <+: longer.toList) : d.Narrows token longer where
  candidates := Dictionary.sublist_matching present grows
  length_le best' elected' := by
    obtain ⟨name', isBest', -⟩ := Dictionary.best_rank_matching.mp elected'
    have opened := grows.trans isBest'.opened
    obtain ⟨best, elected⟩ := Dictionary.exists_best_rank isBest'.declared present opened
    obtain ⟨name, isBest, -⟩ := Dictionary.best_rank_matching.mp elected
    have below := isBest.least _ _ name' isBest'.declared opened
    exact ⟨name', best, name, isBest'.declared, elected, isBest.declared,
      Prod.Lex.monotone_fst _ _ below⟩
  kept best name elected declared opened := by
    obtain ⟨other, isBest, -⟩ := Dictionary.best_rank_matching.mp elected
    obtain rfl := Option.some_inj.mp (isBest.declared.symm.trans declared)
    have isBest' := isBest.of_prefix grows opened
    refine ⟨other == longer, Dictionary.best_rank_matching.mpr ⟨other, isBest', beq_iff_eq⟩, ?_⟩
    rw [beq_iff_eq, eq_comm]

/-- The best alias for `t` stays the best for `tr`, in another slot of a shorter list. -/
theorem longer_narrows_tr :
    let d := ((Dictionary.empty "test").addCommand { aliases := ["txyz"] }).addCommand
      { aliases := ["trap", "tri"] }
    (("t" ≠ "" ∧ "t".toList <+: "tr".toList) ∧ d.Narrows "t" "tr")
      ∧ d.matching "t" = [0, 1] ∧ d.matching "tr" = [1]
      ∧ d.bestFor "t" = some ⟨1, 1, false⟩ ∧ d.bestFor "tr" = some ⟨1, 1, false⟩ := by
  intro d
  have present : "t" ≠ "" := by decide
  have grows : "t".toList <+: "tr".toList := by decide
  exact ⟨⟨⟨present, grows⟩, longer_narrows d present grows⟩, by decide, by decide, by decide,
    by decide⟩

end Wordbook
