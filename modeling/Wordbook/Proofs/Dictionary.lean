import Wordbook.Dictionary

/-!
# Dictionaries as they are built

A dictionary is built by registering types and commands one after the other, in any order.  Whatever
is registered, an alias leads to the first command that declares it.

## Main Definitions

* `Registration` — a type or a command that is registered
* `Dictionary.register`, `Dictionary.registered` — one registration, and a row of them
* `Dictionary.IsIndexed` — every alias leads to the first command that declares it

## Main Statements

* `Dictionary.IsIndexed.register` — a registration keeps the index right
* `Dictionary.isIndexed_registered` — the index of a dictionary that was built is right
-/

namespace Wordbook

/-- A type or a command that is registered. -/
inductive Registration where
  /-- A type. -/
  | type (type : ValueType)
  /-- A command. -/
  | command (command : Command)
deriving DecidableEq, Repr

namespace AliasIndex

/-- An alias is entered by `AliasIndex.enter` unless it is there. -/
theorem lookup_enter (index : AliasIndex) (position : Nat) (name other : String) :
    (index.enter position name).lookup other
      = (index.lookup other).or (if other = name then some position else none) := by
  cases held : index.lookup name with
  | none =>
    rw [enter_of_isNone position held, List.lookup_append]
    by_cases same : other = name
    · rw [if_pos same, same, List.lookup_cons_self]
    · rw [if_neg same, List.lookup_cons, beq_false_of_ne same, List.lookup_nil]
  | some first =>
    rw [enter_of_isSome position (by rw [held]; rfl)]
    by_cases same : other = name
    · rw [same, held, Option.some_or]
    · rw [if_neg same, Option.or_none]

/-- The fold over the aliases of a command enters those that are new. -/
theorem lookup_foldl_enter (names : List String) (index : AliasIndex) (position : Nat)
    (other : String) :
    (names.foldl (AliasIndex.enter · position ·) index).lookup other
      = (index.lookup other).or (if other ∈ names then some position else none) := by
  induction names generalizing index with
  | nil => simp
  | cons name names ih =>
    rw [List.foldl_cons, ih, lookup_enter, Option.or_assoc]
    by_cases same : other = name
    · simp [same]
    · simp [same]

end AliasIndex

namespace Dictionary

variable {d : Dictionary}

/-- Registers a type or a command. -/
def register (d : Dictionary) : Registration → Dictionary
  | .type type => d.addType type
  | .command command => d.addCommand command

/-- The dictionary that `entries` build, registered one after the other. -/
def registered (name : String) (entries : List Registration) : Dictionary :=
  entries.foldl register (empty name)

/-- The look-up `findIndex` leads from every alias to the first command that declares it, and from
nothing else anywhere. -/
def IsIndexed (d : Dictionary) : Prop :=
  ∀ name, d.findIndex name = d.commands.findIdx? (·.hasAlias name)

theorem isIndexed_empty (name : String) : (empty name).IsIndexed := fun _ => rfl

theorem findIndex_addCommand (d : Dictionary) (command : Command) (name : String) :
    (d.addCommand command).findIndex name
      = (d.findIndex name).or (if name ∈ command.aliases then some d.commands.length else none) :=
  AliasIndex.lookup_foldl_enter command.aliases d.index d.commands.length name

theorem IsIndexed.addType (indexed : d.IsIndexed) (type : ValueType) :
    (d.addType type).IsIndexed := indexed

theorem IsIndexed.addCommand (indexed : d.IsIndexed) (command : Command) :
    (d.addCommand command).IsIndexed := by
  intro name
  rw [findIndex_addCommand, indexed name, commands_addCommand, List.findIdx?_append,
    List.findIdx?_singleton]
  by_cases declared : name ∈ command.aliases
  · have known : command.hasAlias name = true := List.contains_iff_mem.mpr declared
    rw [if_pos declared, if_pos known, Option.map_some, Nat.zero_add]
  · have unknown : ¬ command.hasAlias name = true := mt List.contains_iff_mem.mp declared
    rw [if_neg declared, if_neg unknown, Option.map_none]

/-- The property `IsIndexed` is kept by `register`. -/
theorem IsIndexed.register (indexed : d.IsIndexed) (entry : Registration) :
    (d.register entry).IsIndexed := by
  cases entry with
  | type type => exact indexed.addType type
  | command command => exact indexed.addCommand command

/-- So it is by several registrations. -/
theorem IsIndexed.foldl_register (indexed : d.IsIndexed) (entries : List Registration) :
    (entries.foldl Dictionary.register d).IsIndexed :=
  List.foldlRecOn entries Dictionary.register indexed fun _ indexed entry _ =>
    indexed.register entry

/-- The property `IsIndexed` holds of every dictionary that was `registered`. -/
theorem isIndexed_registered (name : String) (entries : List Registration) :
    (registered name entries).IsIndexed :=
  (isIndexed_empty name).foldl_register entries

end Dictionary

end Wordbook
