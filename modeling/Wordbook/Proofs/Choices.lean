import Wordbook.Proofs.LineEdit

/-!
# What the tab key offers

What `Completer.choices` returns at a byte offset of a line: where the word that ends there begins,
and every alias that this word opens, in the order of the ranking.

## Main Definitions

* `Completer.Typed` — a word in a line, with the cursor right behind it
* `Dictionary.IsListing` — the places of all aliases that a word opens, command by command
* `Completer.Serves` — what an answer to the tab key has to be

## Main Statements

* `Completer.wordEndingAt_eq_some_iff` — a completion is found exactly for a typed word
* `Dictionary.isListing_hits` — the hits of a ranking are such a listing
* `choices_serve` — the answer to the tab key, at every offset of every line

## Design Notes

The offset comes in bytes and need not be one of the line: it may lie inside a character or beyond
the end.  A word is made of letters of one byte, though, so where one ends there is a boundary.
-/

namespace Wordbook

open Text (byteLength byteOffset charOffset)

namespace Dictionary

variable {d : Dictionary} {token : String} {candidates : List Nat}

/-! ### All aliases that a word opens -/

/-- The `places` are those of all aliases that `token` opens, each once, and `names` are the aliases
that stand there. -/
structure IsListing (d : Dictionary) (token : String) (candidates : List Nat)
    (places : List (Nat × Nat)) (names : List String) : Prop where
  /-- Each place is one of an alias that the word opens, and there are no others. -/
  mem_iff : ∀ i j, (i, j) ∈ places
    ↔ ∃ name, d.alias? i j = some name ∧ token.toList <+: name.toList
  /-- Their commands are candidates. -/
  listed : ∀ place ∈ places, place.1 ∈ candidates
  /-- The commands stand in the order of the candidates, the aliases of a command in the order in
  which it declares them. -/
  sorted : places.Pairwise (fun a b =>
    toLex (candidates.idxOf a.1, a.2) < toLex (candidates.idxOf b.1, b.2))
  /-- The names are those that are declared there. -/
  named : places.map (fun place => d.alias? place.1 place.2) = names.map some

/-- The hits of one candidate, `hitsAt`, are its aliases that the word opens. -/
theorem map_alias?_hitsAt (d : Dictionary) (token : String) (position slot : Nat) :
    (d.hitsAt token position slot).map (fun hit => d.alias? hit.command hit.place)
      = ((d.command? position).toList.flatMap (·.aliases.filter (opens token))).map some := by
  unfold hitsAt alias?
  cases holds : d.command? position with
  | none => rfl
  | some command =>
    have named : ∀ entry ∈ command.aliases.zipIdx.filter (fun entry => opens token entry.1),
        command.aliases[entry.2]? = some entry.1 := fun entry member =>
      List.mem_zipIdx_iff_getElem?.mp (List.mem_of_mem_filter member)
    have kept : (command.aliases.zipIdx.filter (fun entry => opens token entry.1)).map Prod.fst
        = command.aliases.filter (opens token) := by
      have filtered :=
        List.filter_map (f := Prod.fst) (p := opens token) (l := command.aliases.zipIdx)
      rw [List.zipIdx_map_fst] at filtered
      exact filtered.symm
    simp only [List.map_map, Option.toList_some, List.flatMap_singleton, ← kept]
    refine List.map_congr_left fun entry member => ?_
    show (d.command? position).bind (·.aliases[entry.2]?) = some entry.1
    rw [holds]
    exact named entry member

/-- The hits of all candidates are the aliases of their commands that the word opens. -/
theorem map_alias?_hits (d : Dictionary) (token : String) (candidates : List Nat) :
    (d.hits token candidates).map (fun hit => d.alias? hit.command hit.place)
      = ((candidates.filterMap d.command?).flatMap (·.aliases.filter (opens token))).map some := by
  have unnumbered := List.flatMap_map (l := candidates.zipIdx) Prod.fst fun position =>
    ((d.command? position).toList.flatMap (·.aliases.filter (opens token))).map some
  rw [List.zipIdx_map_fst] at unnumbered
  rw [hits, List.map_flatMap, List.filterMap_eq_flatMap_toList, List.flatMap_assoc,
    List.map_flatMap, unnumbered]
  exact List.flatMap_congr fun entry _ => d.map_alias?_hitsAt token entry.1 entry.2

theorem idxOf_of_getElem? (nodup : candidates.Nodup) {slot i : Nat}
    (listed : candidates[slot]? = some i) : candidates.idxOf i = slot := by
  obtain ⟨inside, rfl⟩ := List.getElem?_eq_some_iff.mp listed
  exact nodup.idxOf_getElem slot inside

/-- If the candidates are the commands that `token` may mean, each once, the hits among them have
all the aliases that `token` opens. -/
theorem isListing_hits (present : token ≠ "") (nodup : candidates.Nodup)
    (meant : ∀ i, i ∈ candidates ↔ d.MayMean token i) :
    d.IsListing token candidates
      ((d.hits token candidates).map (fun hit => (hit.command, hit.place)))
      ((candidates.filterMap d.command?).flatMap (·.aliases.filter (opens token))) where
  mem_iff i j := by
    simp only [List.mem_map, Prod.mk.injEq]
    constructor
    · rintro ⟨hit, member, rfl, rfl⟩
      obtain ⟨-, name, declared, opened, -⟩ := mem_hits.mp member
      exact ⟨name, declared, (opens_iff.mp opened).2⟩
    · rintro ⟨name, declared, prefixed⟩
      have opened := opens_iff.mpr ⟨present, prefixed⟩
      obtain ⟨slot, listed⟩ := List.mem_iff_getElem?.mp
        ((meant i).mpr (mayMean_iff_alias?.mpr ⟨present, j, name, declared, prefixed⟩))
      exact ⟨⟨slot, i, j, name.length⟩, mem_hits.mpr ⟨listed, name, declared, opened, rfl⟩,
        rfl, rfl⟩
  listed := by
    rw [List.forall_mem_map]
    exact fun hit member => List.mem_of_getElem? (mem_hits.mp member).1
  sorted := by
    -- No candidate is there twice, so the slot of a hit is where its command is found.
    rw [List.pairwise_map]
    refine (d.pairwise_hits token candidates).imp_of_mem fun {a b} first second before => ?_
    rw [idxOf_of_getElem? nodup (mem_hits.mp first).1,
      idxOf_of_getElem? nodup (mem_hits.mp second).1]
    exact before
  named := by
    rw [List.map_map]
    exact d.map_alias?_hits token candidates

end Dictionary

namespace Completer

variable {completer : Completer} {line before word after : String} {pos : Nat}
  {completion : Completion}

/-! ### The typed word -/

/-- The `word` stands in `line` between `before` and `after`, and the search from `pos` finds it
right before the cursor. -/
structure Typed (completer : Completer) (line : String) (pos : Nat) (before word after : String) :
    Prop where
  /-- The line is cut in front of the word and behind it. -/
  cut : line = before ++ word ++ after
  /-- The offset `pos`, or the end of the line if that comes first, is the second cut. -/
  stop : min pos (byteLength line.toList) = byteLength (before ++ word).toList
  /-- The search finds the word in its place. -/
  found : (completer.completeAtByte line pos).word = ⟨word, before.length⟩
  /-- It is not empty. -/
  named : word ≠ ""
  /-- It is made of lower-case letters. -/
  letters : ∀ c ∈ word.toList, c.isLower = true

theorem wordEndingAt_min (completer : Completer) (line : String) (pos : Nat) :
    completer.wordEndingAt line (min pos (byteLength line.toList))
      = completer.wordEndingAt line pos := by
  rw [wordEndingAt, wordEndingAt, completeAtByte, completeAtByte, Text.charOffset_min]

theorem completeAtByte_of_wordEndingAt (found : completer.wordEndingAt line pos = some completion) :
    completer.completeAtByte line pos = completion := by
  simp only [wordEndingAt] at found
  split at found
  next => exact Option.some_inj.mp found
  next => cases found

/-- A completion is found by `wordEndingAt` exactly where a word is `Typed`. -/
theorem wordEndingAt_eq_some_iff :
    completer.wordEndingAt line pos = some completion
      ↔ completer.completeAtByte line pos = completion
        ∧ ∃ before word after, completer.Typed line pos before word after := by
  constructor
  · intro found
    have same := completeAtByte_of_wordEndingAt found
    rw [← wordEndingAt_min] at found
    obtain ⟨before, word, after, cut, stop, -, ended, rfl⟩ :=
      exists_endsAt_of_wordEndingAt (Nat.min_le_right _ _) found
    refine ⟨same, before, word, after, cut, stop, congrArg Completion.word same, ?_, ended.letters⟩
    exact mt String.toList_eq_nil_iff.mpr ended.named
  · rintro ⟨same, before, word, after, typed⟩
    have cursor : charOffset line.toList pos = before.length + word.length := by
      rw [← Text.charOffset_min, typed.stop, typed.cut, charOffset_split]
    have token : completion.word = ⟨word, before.length⟩ := same ▸ typed.found
    rw [wordEndingAt, same, cursor, token]
    refine if_pos ?_
    rw [Bool.and_eq_true, beq_iff_eq, Bool.not_eq_true', ← Bool.not_eq_true]
    exact ⟨mt String.isEmpty_iff.mp typed.named, rfl⟩

/-- For a typed word, `choices` offers its aliases from its first letter on. -/
theorem choices_of_typed (typed : completer.Typed line pos before word after) :
    completer.choices line pos
      = (byteLength before.toList, completer.offers (completer.completeAtByte line pos)) := by
  have found := wordEndingAt_eq_some_iff.mpr ⟨rfl, before, word, after, typed⟩
  have start : byteOffset line.toList before.length = byteLength before.toList := by
    rw [typed.cut, String.append_assoc, String.toList_append, ← String.length_toList,
      Text.byteOffset_append]
  simp only [choices, found, typed.found, start]
  rfl

/-- Where no word is `Typed`, `choices` offers nothing. -/
theorem choices_of_not_typed
    (untyped : ¬ ∃ before word after, completer.Typed line pos before word after) :
    completer.choices line pos = (pos, []) := by
  have missing : completer.wordEndingAt line pos = none := by
    rw [Option.eq_none_iff_forall_ne_some]
    exact fun completion found => untyped (wordEndingAt_eq_some_iff.mp found).2
  rw [choices, missing]

/-! ### The answer to the tab key -/

theorem map_replacement_offers (completer : Completer) (completion : Completion) :
    (completer.offers completion).map Choice.replacement
      = (completion.candidates.filterMap completer.dictionary.command?).flatMap
        (·.aliases.filter (opens completion.token)) := by
  rw [offers, List.map_flatMap]
  refine List.flatMap_congr fun command _ => ?_
  rw [choicesOf, List.map_map]
  exact List.map_id _

/-- If `choices` offers anything, a word is `Typed`. -/
theorem exists_typed_of_choices (some : (completer.choices line pos).2 ≠ []) :
    ∃ before word after, completer.Typed line pos before word after := by
  by_contra untyped
  rw [choices_of_not_typed untyped] at some
  exact some rfl

/-- What is offered belongs to candidates. -/
theorem candidates_ne_nil_of_offers (some : completer.offers completion ≠ []) :
    completion.candidates ≠ [] := by
  intro none
  rw [offers, none] at some
  exact some rfl

/-- What `answer`, the start of an edit and the choices for it, has to be at the offset `pos` of
`line`. -/
structure Serves (completer : Completer) (line : String) (pos : Nat)
    (answer : Nat × List Choice) : Prop where
  /-- If anything is offered, a word is typed. -/
  typed : answer.2 ≠ [] → ∃ before word after, completer.Typed line pos before word after
  /-- The answer to a typed word begins with its first letter, and lists all aliases that the word
  opens, the commands in the order in which they are ranked. -/
  listed : ∀ before word after, completer.Typed line pos before word after →
    answer.1 = byteLength before.toList
      ∧ ∃ places, completer.dictionary.IsListing word
        (completer.completeAtByte line pos).candidates places (answer.2.map Choice.replacement)
  /-- The best command comes first. -/
  best : answer.2 ≠ [] → ∃ best name, (completer.completeAtByte line pos).ranking.best = some best
    ∧ (completer.completeAtByte line pos).candidates.head? = some best.command
    ∧ completer.dictionary.IsBest (completer.completeAtByte line pos).token best.command best.place
      name
  /-- Where no word is typed, nothing is offered, and the offset is given back as it is. -/
  untyped : (¬ ∃ before word after, completer.Typed line pos before word after) → answer = (pos, [])

end Completer

/-- At every offset `pos`, also inside a character and beyond the end, what `choices` returns edits
the typed word and offers all aliases that it opens, each once for every place where it is
declared. -/
theorem choices_serve (completer : Completer) (line : String) (pos : Nat) :
    completer.Serves line pos (completer.choices line pos) := by
  have ranked : (completer.completeAtByte line pos).IsRankedBy completer.dictionary :=
    completer.isRankedBy_complete line (charOffset line.toList pos)
  refine ⟨Completer.exists_typed_of_choices, fun before word after typed => ?_, fun some => ?_,
    Completer.choices_of_not_typed⟩
  · have token : (completer.completeAtByte line pos).token = word := congrArg Word.text typed.found
    rw [Completer.choices_of_typed typed, Completer.map_replacement_offers, token]
    refine ⟨rfl, _, Dictionary.isListing_hits typed.named ranked.nodup_candidates fun i => ?_⟩
    rw [ranked.mem_candidates, token]
  · obtain ⟨before, word, after, typed⟩ := Completer.exists_typed_of_choices some
    rw [Completer.choices_of_typed typed] at some
    exact ranked.exists_isBest (Completer.candidates_ne_nil_of_offers some)

/-- Beyond the end of a line the word at its end is completed, and inside a letter of two bytes
nothing is.  The second command has the best alias, so the first one follows it. -/
example :
    let d := ((Dictionary.empty "test").addCommand { aliases := ["tx", "abc", "tx"] }).addCommand
      { aliases := ["tabs", "t"] }
    let completer : Completer := ⟨d, 1⟩
    completer.choices "é t" 9 = (3, [⟨"tabs", "tabs"⟩, ⟨"t", "t"⟩, ⟨"tx", "tx"⟩, ⟨"tx", "tx"⟩])
      ∧ completer.choices "é t" 1 = (1, []) := by decide

end Wordbook
