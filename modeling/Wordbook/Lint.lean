import Wordbook.Dictionary

/-!
# Checking the documentation of a dialect

Any dictionary can be searched, but a reader expects more of it: every command has a name of its
own, optional arguments come last, and every type is documented once.  This module lists where a
dictionary does not keep to that.

## Main Definitions

* `Warning` — a place where a dictionary breaks a convention of its readers
* `Warning.message` — the warning in words
* `Dictionary.lint` — all warnings about a dictionary
-/

namespace Wordbook

/-- A place where a dictionary breaks a convention of its readers. -/
inductive Warning where
  /-- A required argument comes after an optional one. -/
  | requiredAfterOptional (command : Nat) (name argument : String)
  /-- The type of an argument is not documented. -/
  | unknownArgumentType (command : Nat) (name type : String)
  /-- An alias leads to an earlier command. -/
  | sharedAlias (name : String) (first shadowed : Nat)
  /-- A type is documented again. -/
  | duplicateType (id : String)
  /-- A command has no name. -/
  | noAlias (command : Nat)
deriving DecidableEq, Repr

namespace Warning

/-- The warning in words. -/
def message : Warning → String
  | requiredAfterOptional _ name argument =>
    name ++ ": required argument '" ++ argument ++ "' follows an optional one"
  | unknownArgumentType _ name type =>
    name ++ ": argument type '" ++ type ++ "' is not documented"
  | sharedAlias name first shadowed =>
    "alias '" ++ name ++ "' of command #" ++ toString shadowed ++ " is shadowed by command #"
      ++ toString first
  | duplicateType id => "type '" ++ id ++ "' is documented more than once"
  | noAlias command => "command #" ++ toString command ++ " has no alias"

end Warning

namespace Dictionary

/-- The identifiers that occur for the second time in a list, given those that went before. -/
def secondOccurrences (before : List String) : List String → List String
  | [] => []
  | id :: more =>
    if before.count id = 1 then id :: secondOccurrences (id :: before) more
    else secondOccurrences (id :: before) more

/-- The required arguments of a list that come after an optional one; `seen` says that one went
before. -/
def requiredBehind (seen : Bool) : List Argument → List Argument
  | [] => []
  | arg :: more =>
    if arg.isOptional then requiredBehind true more
    else if seen then arg :: requiredBehind seen more
    else requiredBehind seen more

/-- The warnings about the types of a dictionary: one for each identifier that is documented more
than once. -/
def lintTypes (d : Dictionary) : List Warning :=
  (secondOccurrences [] (d.types.map ValueType.id)).map .duplicateType

/-- The alias leads to another command than the one at `position`. -/
def sharedAt (d : Dictionary) (position : Nat) (name : String) : Option Warning :=
  match d.findIndex name with
  | none => none
  | some first => if first = position then none else some (.sharedAlias name first position)

/-- The warnings about the command at `position`. -/
def lintCommand (d : Dictionary) (position : Nat) (command : Command) : List Warning :=
  match command.primaryAlias with
  | none => [.noAlias position]
  | some name =>
    (requiredBehind false command.args).map (.requiredAfterOptional position name ·.name)
      ++ (command.argumentTypes.filter (fun type => (d.findType type).isNone)).map
        (.unknownArgumentType position name ·)
      ++ command.aliases.filterMap (d.sharedAt position)

/-- All warnings about a dictionary: those about its types, then those about its commands in order
of declaration. -/
def lint (d : Dictionary) : List Warning :=
  d.lintTypes
    ++ d.commands.zipIdx.flatMap (fun (command, position) => d.lintCommand position command)

@[simp] theorem secondOccurrences_nil (before : List String) :
    secondOccurrences before [] = [] := rfl

@[simp] theorem requiredBehind_nil (seen : Bool) : requiredBehind seen [] = [] := rfl

end Dictionary

end Wordbook
