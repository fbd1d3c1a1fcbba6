/-!
# Entries

What a wordbook holds: the commands of a scripting dialect and the types of their arguments, each
with its documentation.

## Main Definitions

* `ValueType` — a documented type of argument values
* `Argument` — a parameter of a command, optional if it has a default
* `Command` — a command under all its names
-/

namespace Wordbook

/-- A type that arguments may have, and how its values are written. -/
structure ValueType where
  /-- The name by which arguments refer to the type. -/
  id : String
  /-- What the type is and how its values are written, line by line. -/
  notes : List String := []
deriving DecidableEq, Repr, Inhabited

/-- A parameter of a command. -/
structure Argument where
  /-- The name of the argument's type. -/
  type : String
  /-- The name of the argument. -/
  name : String := ""
  /-- The text that stands in when the argument is left out; an argument without one is required. -/
  default : Option String := none
deriving DecidableEq, Repr, Inhabited

/-- A command of a dialect. -/
structure Command where
  /-- The names of the command, the primary one first. -/
  aliases : List String
  /-- What the command does; may have several lines. -/
  description : String := ""
  /-- The arguments in the order of a call. -/
  args : List Argument := []
deriving DecidableEq, Repr, Inhabited

namespace Argument

/-- An argument that every call gives. -/
def required (type name : String) : Argument := { type, name }

/-- An argument that a call may leave out in favour of a default. -/
def optional (type name default : String) : Argument := { type, name, default := some default }

/-- An argument that a call may leave out. -/
def isOptional (arg : Argument) : Bool := arg.default.isSome

@[simp] theorem isOptional_mk (type name : String) (default : Option String) :
    isOptional ⟨type, name, default⟩ = default.isSome := rfl

end Argument

namespace Command

/-- The name a command is listed under, if it has any. -/
def primaryAlias (command : Command) : Option String := command.aliases.head?

/-- The command goes by the given name. -/
def hasAlias (command : Command) (name : String) : Bool := command.aliases.contains name

/-- How many arguments a call cannot leave out. -/
def requiredArity (command : Command) : Nat :=
  command.args.countP (fun arg => !arg.isOptional)

/-- Adds a name to a list of distinct names unless it is there already. -/
def addName (seen : List String) (name : String) : List String :=
  if seen.contains name then seen else seen ++ [name]

/-- The types of a command's arguments, each once, in the order of first use. -/
def argumentTypes (command : Command) : List String :=
  (command.args.map Argument.type).foldl addName []

theorem addName_of_mem {seen : List String} {name : String} (h : name ∈ seen) :
    addName seen name = seen := by
  simp [addName, h]

theorem addName_of_not_mem {seen : List String} {name : String} (h : name ∉ seen) :
    addName seen name = seen ++ [name] := by
  simp [addName, h]

theorem mem_addName {seen : List String} {name other : String} :
    other ∈ addName seen name ↔ other ∈ seen ∨ other = name := by
  unfold addName
  split <;> simp_all

end Command

end Wordbook
