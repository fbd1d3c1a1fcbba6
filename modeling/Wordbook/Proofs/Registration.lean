import Mathlib.Order.Bounds.Defs
import Wordbook.Proofs.Dictionary

/-!
# What a row of registrations builds

Types and commands are registered in any order, and the dictionary depends on the order of the types
and on the order of the commands only.  The aliases are entered along the way, but what `findIndex`
returns can be told from the commands alone.

## Main Definitions

* `Registration.types`, `Registration.commands` — what a row of registrations registers
* `Dictionary.Declares` — a command declares an alias
* `Dictionary.LeadsToFirst` — an alias leads to the first command that declares it
* `Dictionary.IsRebuilt` — a dictionary is the one of its dialect

## Main Statements

* `Dictionary.IsIndexed.findIndex_eq_some_iff_isLeast` — the look-up finds the least position
* `findIndex_registered` — so it does in dictionaries as they are built
* `Dictionary.IsRebuilt.register` — a registration at the end commutes with building anew
* `registered_determined` — dictionaries as they are built are equal if their parts are

## Design Notes

The index of aliases is not part of a dialect.  That a dictionary is rebuilt from its dialect, index
included, is therefore all that has to be kept by a registration.
-/

namespace Wordbook

namespace Registration

/-- The type that is registered, if it is a type. -/
def type? : Registration → Option ValueType
  | .type entry => some entry
  | .command _ => none

/-- The command that is registered, if it is a command. -/
def command? : Registration → Option Command
  | .type _ => none
  | .command entry => some entry

/-- The types among `entries`. -/
def types (entries : List Registration) : List ValueType := entries.filterMap type?

/-- The commands among `entries`. -/
def commands (entries : List Registration) : List Command := entries.filterMap command?

end Registration

namespace Dictionary

variable {d : Dictionary}

/-! ### The parts of a dictionary -/

/-- The fold of `register` puts the types behind the types and the commands behind the commands. -/
theorem toDialect_foldl_register (d : Dictionary) (entries : List Registration) :
    (entries.foldl register d).toDialect
      = ⟨d.name, d.types ++ Registration.types entries,
        d.commands ++ Registration.commands entries⟩ := by
  induction entries generalizing d with
  | nil =>
    show d.toDialect = ⟨d.name, d.types ++ [], d.commands ++ []⟩
    rw [List.append_nil, List.append_nil]
  | cons entry entries ih =>
    rw [List.foldl_cons, ih]
    cases entry with
    | type type =>
      show Dialect.mk d.name (d.types ++ [type] ++ Registration.types entries) _
        = ⟨d.name, d.types ++ type :: Registration.types entries, _⟩
      rw [List.append_assoc, List.singleton_append]
      rfl
    | command command =>
      show Dialect.mk d.name _ (d.commands ++ [command] ++ Registration.commands entries)
        = ⟨d.name, _, d.commands ++ command :: Registration.commands entries⟩
      rw [List.append_assoc, List.singleton_append]
      rfl

theorem toDialect_registered (name : String) (entries : List Registration) :
    (registered name entries).toDialect
      = ⟨name, Registration.types entries, Registration.commands entries⟩ :=
  toDialect_foldl_register (empty name) entries

/-! ### Where aliases lead -/

/-- The command at `position` declares the alias `name`. -/
def Declares (d : Dictionary) (position : Nat) (name : String) : Prop :=
  ∃ command, d.command? position = some command ∧ name ∈ command.aliases

theorem declares_iff {i : Nat} {name : String} :
    d.Declares i name ↔ ∃ inside : i < d.commands.length, d.commands[i].hasAlias name = true := by
  simp only [Declares, command?, List.getElem?_eq_some_iff, Command.hasAlias, List.contains_iff_mem]
  constructor
  · rintro ⟨command, ⟨inside, rfl⟩, declared⟩
    exact ⟨inside, declared⟩
  · rintro ⟨inside, declared⟩
    exact ⟨d.commands[i], ⟨inside, rfl⟩, declared⟩

/-- The look-up of the alias `name` leads to the first of the commands that declare it. -/
structure LeadsToFirst (d : Dictionary) (name : String) : Prop where
  /-- What is found is the least position of a command that declares the alias. -/
  found : ∀ i, d.findIndex name = some i ↔ IsLeast {j | d.Declares j name} i
  /-- Nothing is found where no command declares it. -/
  missing : d.findIndex name = none ↔ ∀ command ∈ d.commands, name ∉ command.aliases
  /-- At the position that is found there is a command with that alias. -/
  held : ∀ i, d.findIndex name = some i → i < d.size
    ∧ ∃ command, d.command? i = some command ∧ d.find name = some command
      ∧ command.hasAlias name = true

/-- Where `IsIndexed` holds, `findIndex` returns the least position of a command that declares the
alias. -/
theorem IsIndexed.findIndex_eq_some_iff_isLeast (indexed : d.IsIndexed) {name : String} {i : Nat} :
    d.findIndex name = some i ↔ IsLeast {j | d.Declares j name} i := by
  rw [indexed name, List.findIdx?_eq_some_iff_getElem]
  constructor
  · rintro ⟨inside, known, earliest⟩
    refine ⟨declares_iff.mpr ⟨inside, known⟩, fun j declared => ?_⟩
    obtain ⟨_, known'⟩ := declares_iff.mp declared
    exact Nat.le_of_not_lt fun before => earliest j before known'
  · rintro ⟨declared, least⟩
    obtain ⟨inside, known⟩ := declares_iff.mp declared
    refine ⟨inside, known, fun j before known' => ?_⟩
    exact Nat.not_le.mpr before (least (declares_iff.mpr ⟨Nat.lt_trans before inside, known'⟩))

theorem IsIndexed.findIndex_eq_none_iff (indexed : d.IsIndexed) {name : String} :
    d.findIndex name = none ↔ ∀ command ∈ d.commands, name ∉ command.aliases := by
  rw [indexed name, List.findIdx?_eq_none_iff]
  refine forall₂_congr fun command _ => ?_
  rw [← Bool.not_eq_true, Command.hasAlias, List.contains_iff_mem]

/-- Where `IsIndexed` holds, every alias leads to the first command that declares it. -/
theorem IsIndexed.leadsToFirst (indexed : d.IsIndexed) (name : String) : d.LeadsToFirst name where
  found _ := indexed.findIndex_eq_some_iff_isLeast
  missing := indexed.findIndex_eq_none_iff
  held i found := by
    obtain ⟨command, holds, declared⟩ := (indexed.findIndex_eq_some_iff_isLeast.mp found).1
    refine ⟨(List.getElem?_eq_some_iff.mp holds).1, command, holds, ?_,
      List.contains_iff_mem.mpr declared⟩
    rw [find, found, Option.bind_some, holds]

/-! ### Building anew -/

/-- The dictionary `d` is `ofDialect` of its own dialect, which registers the types first. -/
def IsRebuilt (d : Dictionary) : Prop := ofDialect d.toDialect = d

/-- The registration of a type leaves the index alone, so it may come after those of all
`commands`. -/
theorem foldl_addCommand_addType (d : Dictionary) (type : ValueType) (commands : List Command) :
    commands.foldl addCommand (d.addType type) = (commands.foldl addCommand d).addType type := by
  induction commands generalizing d with
  | nil => rfl
  | cons command commands ih => exact ih (d.addCommand command)

theorem ofDialect_concat_type (dialect : Dialect) (type : ValueType) :
    ofDialect { dialect with types := dialect.types ++ [type] }
      = (ofDialect dialect).addType type := by
  rw [ofDialect, List.foldl_append, List.foldl_cons, List.foldl_nil, foldl_addCommand_addType]
  rfl

theorem ofDialect_concat_command (dialect : Dialect) (command : Command) :
    ofDialect { dialect with commands := dialect.commands ++ [command] }
      = (ofDialect dialect).addCommand command := by
  rw [ofDialect, List.foldl_append, List.foldl_cons, List.foldl_nil]
  rfl

theorem isRebuilt_empty (name : String) : (empty name).IsRebuilt := rfl

/-- The property `IsRebuilt` is kept by `register`: what is registered last can as well be
registered after the rest has been built anew. -/
theorem IsRebuilt.register (rebuilt : d.IsRebuilt) (entry : Registration) :
    (d.register entry).IsRebuilt := by
  cases entry with
  | type type =>
    calc ofDialect (d.addType type).toDialect
        = (ofDialect d.toDialect).addType type := ofDialect_concat_type d.toDialect type
      _ = d.addType type := congrArg (addType · type) rebuilt
  | command command =>
    calc ofDialect (d.addCommand command).toDialect
        = (ofDialect d.toDialect).addCommand command :=
          ofDialect_concat_command d.toDialect command
      _ = d.addCommand command := congrArg (addCommand · command) rebuilt

/-- The property `IsRebuilt` holds of every dictionary that was `registered`. -/
theorem isRebuilt_registered (name : String) (entries : List Registration) :
    (registered name entries).IsRebuilt :=
  List.foldlRecOn entries register (isRebuilt_empty name) fun _ rebuilt entry _ =>
    rebuilt.register entry

/-- Dictionaries that were `registered` are equal exactly if their names, types and commands are. -/
theorem registered_eq_registered_iff {name other : String} {entries others : List Registration} :
    registered other others = registered name entries
      ↔ other = name ∧ Registration.types others = Registration.types entries
        ∧ Registration.commands others = Registration.commands entries := by
  rw [← Dialect.mk.injEq, ← toDialect_registered, ← toDialect_registered]
  constructor
  · intro same
    rw [same]
  · intro same
    calc registered other others
        = ofDialect (registered other others).toDialect := (isRebuilt_registered other others).symm
      _ = ofDialect (registered name entries).toDialect := congrArg ofDialect same
      _ = registered name entries := isRebuilt_registered name entries

end Dictionary

/-- For all registrations, the commands of the dictionary are those among `entries`, and `findIndex`
leads from every alias to the first of them that declares it. -/
theorem findIndex_registered (name : String) (entries : List Registration) (other : String) :
    (Dictionary.registered name entries).commands = Registration.commands entries
      ∧ (Dictionary.registered name entries).LeadsToFirst other := by
  have indexed := Dictionary.isIndexed_registered name entries
  exact ⟨congrArg Dialect.commands (Dictionary.toDialect_registered name entries),
    indexed.leadsToFirst other⟩

/-- A dictionary that was `registered` has the types and the commands among `entries`, each in their
order.  It is `ofDialect` of its dialect, and what other registrations build is the same dictionary
exactly if they have the same types and the same commands in the same orders. -/
theorem registered_determined (name : String) (entries : List Registration) :
    let d := Dictionary.registered name entries
    d.toDialect = ⟨name, Registration.types entries, Registration.commands entries⟩
      ∧ Dictionary.ofDialect d.toDialect = d
      ∧ ∀ other others, Dictionary.registered other others = d
        ↔ other = name ∧ Registration.types others = Registration.types entries
          ∧ Registration.commands others = Registration.commands entries := by
  intro d
  exact ⟨Dictionary.toDialect_registered name entries, Dictionary.isRebuilt_registered name entries,
    fun _ _ => Dictionary.registered_eq_registered_iff⟩

end Wordbook
