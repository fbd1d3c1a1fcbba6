import Mathlib.Data.List.Nodup
import Mathlib.Data.List.TakeWhile
import Wordbook.Lint
import Wordbook.Proofs.Dictionary
import Wordbook.Proofs.Entry

/-!
# What the documentation checks find

The checks of `lint` go through a dictionary once, carrying along what they have seen.  This module
lists the `findings` entry by entry, each by the entries before it, and shows that `lint` has just
these, in that order.

## Main Definitions

* `Warning.command?` — the command that a warning is about
* `Dictionary.findings` — all warnings about a dictionary, each by the entries before its own
* `Dictionary.IsTidy` — the conventions that the checks are about

## Main Statements

* `Dictionary.IsIndexed.lint_eq` — `lint` has the `findings`
* `Dictionary.IsIndexed.lint_eq_nil_iff` — it is empty exactly if `IsTidy` holds
* `lint_registered` — both for dictionaries as they are built

## Design Notes

Whether an identifier, an argument or a type is worth a warning depends on those before it, and
`collect` has them at hand.  An alias is looked up in the commands before its own; that the index
leads to the same command is what `Dictionary.IsIndexed` says.
-/

namespace Wordbook

theorem collect_eq_nil_iff {α β : Type} {say : List α → α → Option β} {entries : List α} :
    collect say entries = []
      ↔ ∀ earlier entry later, entries = earlier ++ entry :: later → say earlier entry = none := by
  simp only [List.eq_nil_iff_forall_not_mem, mem_collect, Option.eq_none_iff_forall_ne_some]
  constructor
  · intro none earlier entry later split said equal
    exact none said ⟨earlier, entry, later, split, equal⟩
  · rintro none said ⟨earlier, entry, later, split, equal⟩
    exact none earlier entry later split said equal

/-- The entries with property `p` are the end of a list exactly if the list falls into entries
without `p` and, behind them, entries with `p`. -/
theorem filter_isSuffix_iff {α : Type} {p : α → Bool} {entries : List α} :
    entries.filter p <:+ entries ↔ ∃ front back, entries = front ++ back
      ∧ (∀ entry ∈ front, p entry = false) ∧ ∀ entry ∈ back, p entry = true := by
  constructor
  · rintro ⟨front, split⟩
    refine ⟨front, entries.filter p, split.symm, ?_, fun entry => List.of_mem_filter⟩
    have filtered := congrArg (List.filter p) split
    simp only [List.filter_append, List.filter_filter, Bool.and_self,
      List.append_left_eq_self] at filtered
    intro entry member
    exact Bool.eq_false_iff.mpr (List.filter_eq_nil_iff.mp filtered entry member)
  · rintro ⟨front, back, rfl, without, within⟩
    rw [List.filter_append, List.filter_eq_nil_iff.mpr fun entry member =>
      Bool.eq_false_iff.mp (without entry member), List.filter_eq_self.mpr within]
    exact List.suffix_append front back

namespace Warning

/-- The position of the command that a warning is about, if it is about a command. -/
def command? : Warning → Option Nat
  | requiredAfterOptional command _ _ => some command
  | unknownArgumentType command _ _ => some command
  | sharedAlias _ _ shadowed => some shadowed
  | duplicateType _ => none
  | noAlias command => some command

end Warning

namespace Dictionary

variable {d : Dictionary}

/-! ### What there is to find -/

/-- The warning about an identifier that is documented for the second time. -/
def documentedAgain (earlier : List String) (id : String) : Option Warning :=
  if earlier.count id = 1 then some (.duplicateType id) else none

/-- The warning about a required argument with an optional one before it. -/
def requiredLate (position : Nat) (name : String) (earlier : List Argument) (arg : Argument) :
    Option Warning :=
  if arg.isOptional = false ∧ ∃ other ∈ earlier, other.isOptional = true then
    some (.requiredAfterOptional position name arg.name)
  else none

/-- The warning about a type that is used for the first time in a command and documented nowhere. -/
def undocumented (d : Dictionary) (position : Nat) (name : String) (earlier : List String)
    (type : String) : Option Warning :=
  if type ∉ earlier ∧ ∀ documented ∈ d.types, documented.id ≠ type then
    some (.unknownArgumentType position name type)
  else none

/-- The warning about an alias that commands before its own declare as well, with the first of
these. -/
def declaredBefore (d : Dictionary) (position : Nat) (name : String) : Option Warning :=
  ((d.commands.take position).findIdx? (fun command => name ∈ command.aliases)).map
    (fun first => .sharedAlias name first position)

/-- All warnings about the `command` at `position`, in the order of `lintCommand`. -/
def findingsAt (d : Dictionary) (position : Nat) (command : Command) : List Warning :=
  match command.aliases with
  | [] => [.noAlias position]
  | name :: _ =>
    collect (requiredLate position name) command.args
      ++ collect (d.undocumented position name) (command.args.map Argument.type)
      ++ command.aliases.filterMap (d.declaredBefore position)

/-- All warnings about `d`: about its types, then about its commands in their order. -/
def findings (d : Dictionary) : List Warning :=
  collect documentedAgain (d.types.map ValueType.id)
    ++ d.commands.zipIdx.flatMap (fun (command, position) => d.findingsAt position command)

/-- The dictionary `d` keeps to all conventions that `lint` checks. -/
structure IsTidy (d : Dictionary) : Prop where
  /-- Every type is documented once. -/
  types : (d.types.map ValueType.id).Nodup
  /-- Every command has an alias. -/
  named : ∀ command ∈ d.commands, command.aliases ≠ []
  /-- Optional arguments come last. -/
  optional : ∀ command ∈ d.commands, command.args.filter Argument.isOptional <:+ command.args
  /-- The types of all arguments are documented. -/
  documented : ∀ command ∈ d.commands, ∀ arg ∈ command.args, ∃ type ∈ d.types, type.id = arg.type
  /-- No alias belongs to two commands. -/
  own : ∀ i j command other, d.command? i = some command → d.command? j = some other →
    ∀ name ∈ command.aliases, name ∈ other.aliases → i = j

/-! ### What is said -/

section Said

variable {position : Nat} {name : String} {warning : Warning}

theorem eq_of_requiredLate {earlier : List Argument} {arg : Argument}
    (said : requiredLate position name earlier arg = some warning) :
    warning = .requiredAfterOptional position name arg.name := by
  rw [requiredLate, Option.ite_none_right_eq_some] at said
  exact (Option.some_inj.mp said.2).symm

theorem eq_of_undocumented {earlier : List String} {type : String}
    (said : d.undocumented position name earlier type = some warning) :
    warning = .unknownArgumentType position name type := by
  rw [undocumented, Option.ite_none_right_eq_some] at said
  exact (Option.some_inj.mp said.2).symm

theorem exists_of_declaredBefore (said : d.declaredBefore position name = some warning) :
    ∃ first, warning = .sharedAlias name first position := by
  obtain ⟨first, -, rfl⟩ := Option.map_eq_some_iff.mp said
  exact ⟨first, rfl⟩

theorem eq_of_documentedAgain {earlier : List String} {id : String}
    (said : documentedAgain earlier id = some warning) : warning = .duplicateType id := by
  rw [documentedAgain, Option.ite_none_right_eq_some] at said
  exact (Option.some_inj.mp said.2).symm

/-- Each of `findingsAt` a position is about the command there. -/
theorem command?_of_mem_findingsAt {command : Command}
    (member : warning ∈ d.findingsAt position command) : warning.command? = some position := by
  rw [findingsAt] at member
  split at member
  · rw [List.mem_singleton.mp member, Warning.command?]
  · simp only [List.mem_append, mem_collect, List.mem_filterMap] at member
    rcases member with (⟨_, _, _, -, said⟩ | ⟨_, _, _, -, said⟩) | ⟨_, -, said⟩
    · rw [eq_of_requiredLate said, Warning.command?]
    · rw [eq_of_undocumented said, Warning.command?]
    · obtain ⟨first, rfl⟩ := exists_of_declaredBefore said
      rfl

end Said

/-! ### Types -/

/-- The list `secondOccurrences` has the identifiers that are `documentedAgain`. -/
theorem map_secondOccurrences (before ids : List String) :
    (secondOccurrences before ids).map .duplicateType
      = collect (fun earlier => documentedAgain (before ++ earlier)) ids := by
  induction ids generalizing before with
  | nil => rfl
  | cons id more ih =>
    have same : ∀ earlier, documentedAgain (id :: before ++ earlier)
        = documentedAgain (before ++ id :: earlier) := by
      intro earlier
      funext other
      rw [documentedAgain, documentedAgain, List.cons_append, List.perm_middle.count_eq other]
    have rest := ih (id :: before)
    simp only [same] at rest
    rw [secondOccurrences, collect_cons, List.append_nil, documentedAgain]
    split
    · exact congrArg (_ :: ·) rest
    · exact rest

theorem lintTypes_eq (d : Dictionary) :
    d.lintTypes = collect documentedAgain (d.types.map ValueType.id) :=
  map_secondOccurrences [] _

/-- Among the warnings `documentedAgain` there is one about `id` if `id` occurs more than once,
however often. -/
theorem count_documentedAgain (before ids : List String) (id : String) :
    (collect (fun earlier => documentedAgain (before ++ earlier)) ids).count (.duplicateType id)
      = if before.count id ≤ 1 ∧ 2 ≤ (before ++ ids).count id then 1 else 0 := by
  induction ids generalizing before with
  | nil =>
    rw [collect_nil, List.append_nil, List.count_nil, if_neg (by omega)]
  | cons other more ih =>
    have rest := ih (before ++ [other])
    simp only [List.append_assoc, List.singleton_append] at rest
    rw [collect_cons, List.count_append, rest, List.append_nil, documentedAgain]
    simp only [List.count_append, List.count_cons, List.count_nil, beq_iff_eq]
    by_cases same : other = id
    · subst same
      simp only [if_true]
      by_cases again : before.count other = 1
      · rw [if_pos again, Option.toList_some, List.count_singleton_self, if_neg (by omega),
          if_pos (by omega)]
      · rw [if_neg again, Option.toList_none, List.count_nil, Nat.zero_add]
        congr 1
        exact propext (by omega)
    · have unlike : ((if before.count other = 1 then some (Warning.duplicateType other)
          else none).toList.count (.duplicateType id)) = 0 := by
        rw [List.count_eq_zero]
        intro member
        split at member
        · rw [Option.toList_some, List.mem_singleton, Warning.duplicateType.injEq] at member
          exact same member.symm
        · exact List.not_mem_nil member
      simp only [unlike, same, if_false, Nat.add_zero, Nat.zero_add]

/-- There is no warning `documentedAgain` exactly if the identifiers are all different. -/
theorem collect_documentedAgain_eq_nil_iff {ids : List String} :
    collect documentedAgain ids = [] ↔ ids.Nodup := by
  have counts : ∀ id, (collect documentedAgain ids).count (.duplicateType id)
      = if [].count id ≤ 1 ∧ 2 ≤ ids.count id then 1 else 0 := count_documentedAgain [] ids
  rw [List.nodup_iff_count_le_one]
  constructor
  · intro none id
    have count := counts id
    rw [none, List.count_nil, List.count_nil] at count
    by_contra several
    rw [if_pos (by omega)] at count
    cases count
  · intro once
    rw [collect_eq_nil_iff]
    intro earlier id later split
    rw [documentedAgain, if_neg]
    intro again
    have atMost := once id
    rw [split, List.count_append, List.count_cons_self] at atMost
    omega

/-! ### Arguments -/

/-- The list `requiredBehind` has the arguments that are `requiredLate`. -/
theorem map_requiredBehind (position : Nat) (name : String) (before args : List Argument) :
    (requiredBehind (before.any Argument.isOptional) args).map
        (.requiredAfterOptional position name ·.name)
      = collect (fun earlier => requiredLate position name (before ++ earlier)) args := by
  induction args generalizing before with
  | nil => rfl
  | cons arg more ih =>
    have rest := ih (before ++ [arg])
    simp only [List.append_assoc, List.singleton_append, List.any_append, List.any_cons,
      List.any_nil, Bool.or_false] at rest
    rw [requiredBehind, collect_cons, List.append_nil, ← rest, requiredLate]
    cases optional : arg.isOptional with
    | true => simp only [if_true, Bool.or_true, Bool.true_eq_false, false_and, if_false,
        Option.toList_none, List.nil_append]
    | false =>
      simp only [Bool.false_eq_true, if_false, Bool.or_false, true_and, ← List.any_eq_true]
      cases before.any Argument.isOptional <;> rfl

/-- No argument is `requiredLate` exactly if the optional ones come last. -/
theorem collect_requiredLate_eq_nil_iff {position : Nat} {name : String} {args : List Argument} :
    collect (requiredLate position name) args = []
      ↔ args.filter Argument.isOptional <:+ args := by
  rw [collect_eq_nil_iff, filter_isSuffix_iff]
  constructor
  · intro none
    refine ⟨args.takeWhile (!·.isOptional), args.dropWhile (!·.isOptional),
      List.takeWhile_append_dropWhile.symm, ?_, ?_⟩
    · intro arg member
      have required := List.mem_takeWhile_imp (p := fun arg : Argument => !arg.isOptional) member
      rwa [Bool.not_eq_true'] at required
    · intro arg member
      cases tail : args.dropWhile (!·.isOptional) with
      | nil =>
        rw [tail] at member
        cases member
      | cons first more =>
        have opens := List.head?_dropWhile_not (fun arg => !arg.isOptional) args
        rw [tail, List.head?_cons] at opens
        replace opens : (!first.isOptional) = false := opens
        rw [Bool.not_eq_false'] at opens
        rw [tail] at member
        rcases List.mem_cons.mp member with rfl | later
        · exact opens
        · obtain ⟨between, behind, rfl⟩ := List.append_of_mem later
          have split : args = (args.takeWhile (!·.isOptional) ++ first :: between)
              ++ arg :: behind := by
            rw [List.append_assoc, List.cons_append, ← tail, List.takeWhile_append_dropWhile]
          have quiet := none _ arg behind split
          rw [requiredLate, ite_eq_right_iff] at quiet
          by_contra required
          have silent := quiet ⟨Bool.eq_false_iff.mpr required, first,
            List.mem_append_right _ List.mem_cons_self, opens⟩
          cases silent
  · rintro ⟨front, back, rfl, required, optional⟩ earlier arg later split
    rw [requiredLate, if_neg]
    rintro ⟨isRequired, other, member, isOptional⟩
    -- A required argument ends within the front, and with it all that is before it.
    rcases List.append_eq_append_iff.mp split with ⟨between, rfl, rest⟩ | ⟨between, rfl, rest⟩
    · have inBack : arg ∈ back := rest ▸ List.mem_append_right _ List.mem_cons_self
      rw [optional arg inBack] at isRequired
      cases isRequired
    · rw [required other (List.mem_append_left _ member)] at isOptional
      cases isOptional

theorem findType_eq_none_iff {type : String} :
    d.findType type = none ↔ ∀ documented ∈ d.types, documented.id ≠ type := by
  simp only [findType, List.find?_eq_none, beq_iff_eq, ne_eq]

/-- The types without a `findType` among `argumentTypes` are those that are `undocumented`. -/
theorem map_filter_argumentTypes (d : Dictionary) (position : Nat) (name : String)
    (command : Command) :
    (command.argumentTypes.filter (fun type => (d.findType type).isNone)).map
        (.unknownArgumentType position name ·)
      = collect (d.undocumented position name) (command.args.map Argument.type) := by
  rw [Command.argumentTypes_eq, collect, ← List.filterMap_eq_filter, List.map_filterMap,
    List.filterMap_filterMap, collect]
  apply List.filterMap_congr
  rintro ⟨earlier, type⟩ _
  rw [undocumented]
  by_cases used : type ∈ earlier
  · rw [if_pos used, if_neg (fun new => new.1 used), Option.bind_none]
  · rw [if_neg used, Option.bind_some]
    by_cases unknown : d.findType type = none
    · rw [if_pos ⟨used, findType_eq_none_iff.mp unknown⟩]
      simp only [unknown, Option.guard, Option.isNone_none, if_true, Option.map_some]
    · rw [if_neg (fun new => unknown (findType_eq_none_iff.mpr new.2))]
      simp only [Option.guard, Option.isNone_iff_eq_none, unknown, if_false, Option.map_none]

theorem collect_undocumented_eq_nil_iff {position : Nat} {name : String} {types : List String} :
    collect (d.undocumented position name) types = []
      ↔ ∀ type ∈ types, ∃ documented ∈ d.types, documented.id = type := by
  rw [collect_eq_nil_iff]
  constructor
  · intro none type used
    obtain ⟨earlier, later, split, new⟩ := List.eq_append_cons_of_mem used
    have quiet := none earlier type later split
    rw [undocumented, ite_eq_right_iff] at quiet
    by_contra unknown
    have silent := quiet ⟨new, fun documented member same => unknown ⟨documented, member, same⟩⟩
    cases silent
  · rintro known earlier type later rfl
    obtain ⟨documented, member, same⟩ := known type
      (List.mem_append_right _ List.mem_cons_self)
    rw [undocumented, if_neg]
    exact fun new => new.2 documented member same

/-! ### Aliases -/

/-- Where the index is right, `sharedAt` warns of the aliases that are `declaredBefore`. -/
theorem IsIndexed.sharedAt_eq (indexed : d.IsIndexed) {position : Nat} {command : Command}
    (holds : d.command? position = some command) {name : String}
    (declared : name ∈ command.aliases) :
    d.sharedAt position name = d.declaredBefore position name := by
  have same : (fun command : Command => decide (name ∈ command.aliases)) = (·.hasAlias name) := by
    funext other
    rw [Command.hasAlias, List.contains_eq_mem]
  have known : command.hasAlias name = true := List.contains_iff_mem.mpr declared
  rw [sharedAt, indexed name, declaredBefore, same, List.findIdx?_take]
  obtain ⟨inside, there⟩ := List.getElem?_eq_some_iff.mp holds
  cases found : d.commands.findIdx? (·.hasAlias name) with
  | none =>
    have unknown := List.findIdx?_eq_none_iff.mp found command (List.mem_of_getElem? holds)
    rw [known] at unknown
    cases unknown
  | some first =>
    obtain ⟨_, _, earliest⟩ := List.findIdx?_eq_some_iff_getElem.mp found
    have notBehind : ¬ position < first := fun before => earliest position before (there ▸ known)
    by_cases own : first = position
    · simp [own, Option.guard]
    · have before : first < position := by omega
      simp [own, before, Option.guard]

theorem declaredBefore_eq_none_iff {position : Nat} {name : String} :
    d.declaredBefore position name = none
      ↔ ∀ i other, i < position → d.command? i = some other → name ∉ other.aliases := by
  rw [declaredBefore, Option.map_eq_none_iff, List.findIdx?_eq_none_iff]
  simp only [decide_eq_false_iff_not]
  constructor
  · intro none i other before holds
    exact none other (List.mem_of_getElem? ((List.getElem?_take_of_lt before).trans holds))
  · intro none other member
    obtain ⟨i, found⟩ := List.mem_iff_getElem?.mp member
    rw [List.getElem?_take] at found
    split at found
    · exact none i other ‹_› found
    · cases found

/-! ### Dictionaries -/

/-- Where the index is right, `lintCommand` has the `findingsAt` the position of the command. -/
theorem IsIndexed.lintCommand_eq (indexed : d.IsIndexed) {position : Nat} {command : Command}
    (holds : d.command? position = some command) :
    d.lintCommand position command = d.findingsAt position command := by
  have late (name : String) := map_requiredBehind position name [] command.args
  have unknown (name : String) := d.map_filter_argumentTypes position name command
  have shared : command.aliases.filterMap (d.sharedAt position)
      = command.aliases.filterMap (d.declaredBefore position) :=
    List.filterMap_congr fun _ declared => indexed.sharedAt_eq holds declared
  rw [lintCommand, findingsAt, Command.primaryAlias]
  cases aliases : command.aliases with
  | nil => rfl
  | cons name more =>
    rw [aliases] at shared
    simp only [List.head?_cons, shared, unknown]
    exact congrArg (· ++ _ ++ _) (late name)

/-- Where the index is right, `lint` has the `findings` and nothing else, in their order. -/
theorem IsIndexed.lint_eq (indexed : d.IsIndexed) : d.lint = d.findings := by
  rw [lint, findings, lintTypes_eq]
  refine congrArg (_ ++ ·) (List.flatMap_congr ?_)
  rintro ⟨command, position⟩ member
  exact indexed.lintCommand_eq (List.mem_zipIdx_iff_getElem?.mp member)

theorem findingsAt_eq_nil_iff {position : Nat} {command : Command} :
    d.findingsAt position command = [] ↔ command.aliases ≠ []
      ∧ command.args.filter Argument.isOptional <:+ command.args
      ∧ (∀ arg ∈ command.args, ∃ type ∈ d.types, type.id = arg.type)
      ∧ ∀ name ∈ command.aliases, ∀ i other, i < position → d.command? i = some other →
        name ∉ other.aliases := by
  rw [findingsAt]
  cases aliases : command.aliases with
  | nil => simp
  | cons name more =>
    simp only [List.append_eq_nil_iff, collect_requiredLate_eq_nil_iff,
      collect_undocumented_eq_nil_iff, List.forall_mem_map, List.filterMap_eq_nil_iff,
      declaredBefore_eq_none_iff, ne_eq, List.cons_ne_nil, not_false_eq_true, true_and, and_assoc]

/-- There are no `findings` exactly if `IsTidy` holds. -/
theorem findings_eq_nil_iff : d.findings = [] ↔ d.IsTidy := by
  simp only [findings, List.append_eq_nil_iff, collect_documentedAgain_eq_nil_iff,
    List.flatMap_eq_nil_iff, findingsAt_eq_nil_iff, Prod.forall, List.mem_zipIdx_iff_getElem?]
  constructor
  · rintro ⟨types, quiet⟩
    have held : ∀ command ∈ d.commands, ∃ position, d.commands[position]? = some command :=
      fun _ member => List.mem_iff_getElem?.mp member
    refine ⟨types, fun command member => ?_, fun command member => ?_, fun command member => ?_, ?_⟩
    · obtain ⟨position, holds⟩ := held command member
      exact (quiet command position holds).1
    · obtain ⟨position, holds⟩ := held command member
      exact (quiet command position holds).2.1
    · obtain ⟨position, holds⟩ := held command member
      exact (quiet command position holds).2.2.1
    intro i j command other holds holds' name declared declared'
    rcases Nat.lt_trichotomy i j with before | same | behind
    · exact absurd declared ((quiet other j holds').2.2.2 name declared' i command before holds)
    · exact same
    · exact absurd declared' ((quiet command i holds).2.2.2 name declared j other behind holds')
  · intro tidy
    refine ⟨tidy.types, fun command position holds => ?_⟩
    have member := List.mem_of_getElem? holds
    refine ⟨tidy.named command member, tidy.optional command member,
      tidy.documented command member, ?_⟩
    intro name declared i other before holds' declared'
    exact Nat.ne_of_lt before
      (tidy.own i position other command holds' holds name declared' declared)

/-- Where the index is right, `lint` finds nothing exactly if `IsTidy` holds. -/
theorem IsIndexed.lint_eq_nil_iff (indexed : d.IsIndexed) : d.lint = [] ↔ d.IsTidy := by
  rw [indexed.lint_eq, findings_eq_nil_iff]

/-- An identifier that is documented more than once has one warning `duplicateType` in `lint`,
however often it is. -/
theorem IsIndexed.count_lint (indexed : d.IsIndexed) (id : String) :
    d.lint.count (.duplicateType id)
      = if 2 ≤ (d.types.map ValueType.id).count id then 1 else 0 := by
  have types := count_documentedAgain [] (d.types.map ValueType.id) id
  simp only [List.nil_append, List.count_nil, Nat.zero_le, true_and] at types
  have commands : (d.commands.zipIdx.flatMap (fun (command, position) =>
      d.findingsAt position command)).count (.duplicateType id) = 0 := by
    rw [List.count_eq_zero, List.mem_flatMap]
    rintro ⟨_, -, member⟩
    cases command?_of_mem_findingsAt member
  rw [indexed.lint_eq, findings, List.count_append, commands, Nat.add_zero, types]

end Dictionary

/-- For all registrations, `lint` has the `findings` of the dictionary that they build, in their
order, each `duplicateType` once, and it is empty exactly if the dictionary `IsTidy`. -/
theorem lint_registered (name : String) (entries : List Registration) :
    let d := Dictionary.registered name entries
    d.lint = d.findings
      ∧ (∀ id, d.lint.count (.duplicateType id)
        = if 2 ≤ (d.types.map ValueType.id).count id then 1 else 0)
      ∧ (d.lint = [] ↔ d.IsTidy) := by
  have indexed := Dictionary.isIndexed_registered name entries
  exact ⟨indexed.lint_eq, indexed.count_lint, indexed.lint_eq_nil_iff⟩

end Wordbook
