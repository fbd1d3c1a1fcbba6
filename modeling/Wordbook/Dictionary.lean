import Wordbook.Dialect

/-!
# Dictionaries

A dictionary is a dialect that can be searched.  It grows by registering types and commands, and it
keeps, for every alias, the command that declared it first.

## Main Definitions

* `AliasIndex` — the command behind each alias
* `Dictionary` — a dialect with its alias index
* `Dictionary.addType`, `Dictionary.addCommand` — registration
* `Dictionary.findIndex`, `Dictionary.findType` — exact look-up
* `Dictionary.ofDialect` — the dictionary of a dialect document

## Design Notes

Nothing is ever refused: an alias may be declared twice and a type documented twice.  The first
registration wins every look-up, and what is wrong with the rest is for `Wordbook.Lint` to say.
-/

namespace Wordbook

/-- Aliases with the position of the command that declared each of them first. -/
abbrev AliasIndex := List (String × Nat)

namespace AliasIndex

/-- Enters an alias of the command at `position`, unless an earlier command holds it. -/
def enter (index : AliasIndex) (position : Nat) (name : String) : AliasIndex :=
  if (index.lookup name).isSome then index else index ++ [(name, position)]

theorem enter_of_isSome {index : AliasIndex} {name : String} (position : Nat)
    (h : (index.lookup name).isSome = true) : index.enter position name = index := by
  simp [enter, h]

theorem enter_of_isNone {index : AliasIndex} {name : String} (position : Nat)
    (h : index.lookup name = none) :
    index.enter position name = index ++ [(name, position)] := by
  simp [enter, h]

end AliasIndex

/-- A dialect that can be searched by alias. -/
structure Dictionary extends Dialect where
  /-- The command that each alias leads to. -/
  index : AliasIndex := []
deriving DecidableEq, Repr, Inhabited

namespace Dictionary

/-- A dictionary without entries. -/
def empty (name : String) : Dictionary := { name }

/-- Registers a type behind all others. -/
def addType (d : Dictionary) (type : ValueType) : Dictionary :=
  { d with types := d.types ++ [type] }

/-- Registers a command behind all others.  Of its aliases it gets those that no earlier command
holds. -/
def addCommand (d : Dictionary) (command : Command) : Dictionary :=
  { d with
    commands := d.commands ++ [command]
    index := command.aliases.foldl (AliasIndex.enter · d.commands.length ·) d.index }

/-- The dictionary of a dialect: all its types, then all its commands, in order. -/
def ofDialect (dialect : Dialect) : Dictionary :=
  dialect.commands.foldl addCommand (dialect.types.foldl addType (empty dialect.name))

/-- The number of commands. -/
def size (d : Dictionary) : Nat := d.commands.length

/-- No command has been registered. -/
def isEmpty (d : Dictionary) : Bool := d.commands.isEmpty

/-- The command at a position. -/
def command? (d : Dictionary) (position : Nat) : Option Command := d.commands[position]?

/-- The position of the command that an alias leads to. -/
def findIndex (d : Dictionary) (name : String) : Option Nat := d.index.lookup name

/-- The command that an alias leads to. -/
def find (d : Dictionary) (name : String) : Option Command :=
  (d.findIndex name).bind d.command?

/-- The first type registered under an identifier. -/
def findType (d : Dictionary) (id : String) : Option ValueType :=
  d.types.find? (fun type => type.id == id)

/-- The primary aliases of the commands at the given positions, in that order; a position without a
command, or a command without an alias, has none. -/
def primaryAliases (d : Dictionary) (positions : List Nat) : List String :=
  (positions.filterMap d.command?).filterMap Command.primaryAlias

/-! ### What registration does to each part -/

@[simp] theorem name_addType (d : Dictionary) (t : ValueType) : (d.addType t).name = d.name := rfl

@[simp] theorem types_addType (d : Dictionary) (t : ValueType) :
    (d.addType t).types = d.types ++ [t] := rfl

@[simp] theorem commands_addType (d : Dictionary) (t : ValueType) :
    (d.addType t).commands = d.commands := rfl

@[simp] theorem index_addType (d : Dictionary) (t : ValueType) :
    (d.addType t).index = d.index := rfl

@[simp] theorem name_addCommand (d : Dictionary) (c : Command) :
    (d.addCommand c).name = d.name := rfl

@[simp] theorem types_addCommand (d : Dictionary) (c : Command) :
    (d.addCommand c).types = d.types := rfl

@[simp] theorem commands_addCommand (d : Dictionary) (c : Command) :
    (d.addCommand c).commands = d.commands ++ [c] := rfl

@[simp] theorem findIndex_empty (name other : String) : (empty name).findIndex other = none := rfl

end Dictionary

end Wordbook
