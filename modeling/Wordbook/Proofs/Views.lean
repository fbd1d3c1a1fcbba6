import Wordbook.Proofs.Entry
import Wordbook.Proofs.Lookup

/-!
# What is shown of the candidates

A completion is shown as a report or as a panel, and each of them looks its candidates up once more,
by `command?` and `primaryAlias?`.  A look-up that failed would drop a candidate silently.  This
module shows that none of them fails.

## Main Definitions

* `Completion.Stands` — commands and names stand for the candidates, one for each
* `Completion.ShowsAll` — the views of a completion show all of them

## Main Statements

* `Completion.IsRankedBy.stands` — the candidates of a completion are commands with names
* `Completion.Stands.render_ambiguous`, `Completion.Stands.render_resolved` — the panels
* `views_show_all` — every view of every completion shows all candidates

## Design Notes

A candidate has an alias that the word opens.  So it has a first alias, and that is all the views
ask for.
-/

namespace Wordbook

namespace Completion

variable {completion : Completion} {d : Dictionary} {commands : List Command} {names : List String}

/-! ### The candidates -/

/-- The lists `commands` and `names` stand for the candidates of `completion`, one entry for each
and in their order. -/
structure Stands (completion : Completion) (d : Dictionary) (commands : List Command)
    (names : List String) : Prop where
  /-- The commands are those at the positions of the candidates. -/
  found : completion.candidates.map d.command? = commands.map some
  /-- The names are the first aliases of the commands there. -/
  listed : completion.candidates.map d.primaryAlias? = names.map some

/-- The candidates of a completion that `IsRankedBy` a dictionary are commands, and all of them have
names, so that `filterMap` drops none. -/
theorem IsRankedBy.stands (ranked : completion.IsRankedBy d) :
    completion.Stands d (completion.candidates.filterMap d.command?)
      (completion.candidates.filterMap d.primaryAlias?) where
  found := by
    refine map_eq_map_some_filterMap fun i member => ?_
    obtain ⟨-, command, holds, -⟩ := ranked.mem_candidates.mp member
    rw [holds, Option.isSome_some]
  listed := map_eq_map_some_filterMap fun i member =>
    Dictionary.isSome_primaryAlias?_of_mayMean (ranked.mem_candidates.mp member)

namespace Stands

variable (stands : completion.Stands d commands names)

include stands

theorem length_commands : commands.length = completion.candidates.length := by
  have same := congrArg List.length stands.found
  rwa [List.length_map, List.length_map, eq_comm] at same

theorem length_names : names.length = completion.candidates.length := by
  have same := congrArg List.length stands.listed
  rwa [List.length_map, List.length_map, eq_comm] at same

/-- The list that `primaryAliases` makes of the candidates is `names`. -/
theorem primaryAliases_candidates : d.primaryAliases completion.candidates = names := by
  rw [Dictionary.primaryAliases_eq, filterMap_of_map_eq_map_some stands.listed]

/-- All candidates but the first have all names but the first. -/
theorem listed_tail : completion.candidates.tail.map d.primaryAlias? = names.tail.map some := by
  rw [List.map_tail, List.map_tail, stands.listed]

/-- The commands of the first `n` candidates are the first `n` commands. -/
theorem filterMap_take (n : Nat) :
    (completion.candidates.take n).filterMap d.command? = commands.take n := by
  apply filterMap_of_map_eq_map_some
  rw [List.map_take, List.map_take, stands.found]

/-! ### The panels -/

/-- The panel about an ambiguous word has a line for each of the first `maxCandidates` commands, and
says how many there are beyond. -/
theorem render_ambiguous (ambiguous : completion.state = .ambiguous) (panel : Panel) :
    panel.render d completion
      = Text.unlines ((commands.take panel.maxCandidates).map (fun command =>
          " | ".intercalate command.aliases
            ++ (if command.args = [] then "" else " " ++ command.signature)))
        ++ (if panel.maxCandidates < completion.candidates.length then
          "(+" ++ toString (completion.candidates.length - panel.maxCandidates) ++ " more)\n"
          else "") := by
  rw [Panel.render, ambiguous]
  simp only [Panel.renderAmbiguous, stands.filterMap_take, Nat.sub_eq_zero_iff_le]
  congr 1
  · refine congrArg Text.unlines (List.map_congr_left fun command _ => ?_)
    rw [Command.withSignature_eq]
    split
    · rw [String.append_empty, Command.aliasLine]
    · rw [String.append_assoc, Command.aliasLine]
  · by_cases more : panel.maxCandidates < completion.candidates.length
    · rw [if_pos more, if_neg (Nat.not_le.mpr more)]
    · rw [if_neg more, if_pos (Nat.le_of_not_lt more)]

/-- The panel about a resolved word names all candidates but the first on a line of its own. -/
theorem render_resolved (resolved : completion.state = .resolved) {best : Command} {name : String}
    (elected : completion.best d = some (best, name)) (panel : Panel) :
    panel.render d completion
      = best.help ++ (if panel.showTypes then Panel.typeHelp d best.argumentTypes else "")
        ++ (if completion.candidates.length = 1 then ""
          else "\nalso: " ++ ", ".intercalate names.tail ++ "\n") := by
  obtain ⟨-, some, -⟩ := state_eq_resolved_iff_length.mp resolved
  have alone : names.tail.isEmpty = true ↔ completion.candidates.length = 1 := by
    rw [List.isEmpty_iff_length_eq_zero, List.length_tail, stands.length_names]
    omega
  rw [Panel.render, resolved, Panel.renderResolved, elected]
  simp only [Dictionary.primaryAliases_eq, filterMap_of_map_eq_map_some stands.listed_tail,
    Panel.alsoLine, alone]

end Stands

/-! ### All views -/

/-- Every view of `completion` shows the `commands` and `names` that stand for its candidates. -/
structure ShowsAll (completion : Completion) (d : Dictionary) (commands : List Command)
    (names : List String) : Prop where
  /-- The report lists the names. -/
  report : ∃ members, completion.report d = .object members
    ∧ members.lookup "candidates" = some (.strings names)
  /-- The panel about a resolved word has the help of the best command.  If there are other
  candidates, their names follow on a line, and if there are none, nothing does. -/
  resolved : completion.state = .resolved → ∃ best command others,
    completion.ranking.best = some best ∧ d.command? best.command = some command
    ∧ completion.candidates = best.command :: others ∧ best.command ∉ others
    ∧ others.map d.primaryAlias? = names.tail.map some
    ∧ ∀ panel : Panel, panel.render d completion
      = command.help ++ (if panel.showTypes then Panel.typeHelp d command.argumentTypes else "")
        ++ (if completion.candidates.length = 1 then ""
          else "\nalso: " ++ ", ".intercalate names.tail ++ "\n")
  /-- The panel about an ambiguous word has a line for each of the first commands, as many as it may
  show, and then the number of those that it does not show, if there are any. -/
  ambiguous : completion.state = .ambiguous → ∀ panel : Panel, panel.render d completion
    = Text.unlines ((commands.take panel.maxCandidates).map (fun command =>
        " | ".intercalate command.aliases
          ++ (if command.args = [] then "" else " " ++ command.signature)))
      ++ (if panel.maxCandidates < completion.candidates.length then
        "(+" ++ toString (completion.candidates.length - panel.maxCandidates) ++ " more)\n"
        else "")

/-- A completion that `IsRankedBy` a dictionary shows all that stands for its candidates. -/
theorem IsRankedBy.showsAll (ranked : completion.IsRankedBy d)
    (stands : completion.Stands d commands names) : completion.ShowsAll d commands names where
  report := by
    refine ⟨_, rfl, ?_⟩
    rw [← stands.primaryAliases_candidates]
    rfl
  resolved := by
    intro resolved
    obtain ⟨best, command, name, elected, first, holds, shown, -⟩ :=
      ranked.exists_best (candidates_ne_nil_of_resolved resolved)
    obtain ⟨others, split⟩ := List.head?_eq_some_iff.mp first
    have distinct := ranked.nodup_candidates
    have tail := stands.listed_tail
    rw [split, List.nodup_cons] at distinct
    rw [split, List.tail_cons] at tail
    exact ⟨best, command, others, elected, holds, split, distinct.1, tail,
      stands.render_resolved resolved shown⟩
  ambiguous := stands.render_ambiguous

end Completion

/-- A panel that may show nothing still says how much there is to show. -/
example :
    let d := ((Dictionary.empty "test").addCommand { aliases := ["tx"] }).addCommand
      { aliases := ["ty"], args := [.required "float" "n"] }
    let completion := (Completer.mk d 1).complete "t" 0
    Panel.render { maxCandidates := 0 } d completion = "(+2 more)\n"
      ∧ Panel.render { maxCandidates := 2 } d completion = "tx\nty \x7bfloat n\x7d\n" := by decide

end Wordbook
