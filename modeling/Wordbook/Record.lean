import Wordbook.Tree

/-!
# Reading records

How the parts of a document tree are read as values of known types, and what is said of those that
do not fit.

## Main Definitions

* `Surplus`, `Mismatch`, `Problem` — why a document is refused
* `Tree.asText`, `Tree.asList` — texts and lists
* `Tree.asCount`, `Tree.asCharacter`, `Tree.asPath`, `Tree.asChoice` — other values
* `Record` — the fields of a record and how each is read
* `Record.read` — the record that a part of a document holds

## Design Notes

A record is written as a table, or as a list of its fields in their order.  The parts of a tree are
read in the order of the text, and the first problem met is the one reported.  Members that a record
does not know are passed over, but their text must be sound.
-/

namespace Wordbook

/-- What stands beside a chosen name, where nothing may stand. -/
inductive Surplus where
  /-- A scalar of some type. -/
  | scalar (type : String)
  /-- Tables in a row. -/
  | rows
  /-- A list or a table that is not empty. -/
  | contents
deriving DecidableEq, Repr

/-- Why a part of a well-formed document does not fit. -/
inductive Mismatch where
  /-- A value of another type is expected. -/
  | invalidType (found expected : String)
  /-- A value of the right type is out of range. -/
  | invalidValue (found expected : String)
  /-- A list is too short to be read as a record. -/
  | invalidLength (length : Nat) (expected : String)
  /-- A table lacks a field. -/
  | missingField (field : String)
  /-- A table has a field twice. -/
  | duplicateField (field : String)
  /-- A name is not among the ones to choose from. -/
  | unknownVariant (found : String) (expected : List String)
  /-- A choice is neither a name nor a table with a name. -/
  | notAChoice
  /-- A table with a name has no member or several. -/
  | notOneElement (several : Bool)
  /-- A chosen name comes with a value. -/
  | chosenContent (surplus : Surplus)
deriving DecidableEq, Repr

/-- Why a document is refused. -/
inductive Problem where
  /-- The text is not well-formed. -/
  | malformed
  /-- The text is well-formed, but something in it does not fit. -/
  | mismatch (mismatch : Mismatch)
deriving DecidableEq, Repr

/-- The outcome of reading a part of a document. -/
abbrev Reading (α : Type) := Except Problem α

namespace Mismatch

/-- Names to choose from, in words. -/
def choices : List String → String
  | [] => "there are no variants"
  | [one] => "expected `" ++ one ++ "`"
  | [one, other] => "expected `" ++ one ++ "` or `" ++ other ++ "`"
  | names => "expected one of " ++ ", ".intercalate (names.map (fun name => "`" ++ name ++ "`"))

/-- The mismatch in words. -/
def message : Mismatch → String
  | invalidType found expected => "invalid type: " ++ found ++ ", expected " ++ expected
  | invalidValue found expected => "invalid value: " ++ found ++ ", expected " ++ expected
  | invalidLength length expected =>
    "invalid length " ++ toString length ++ ", expected " ++ expected
  | missingField field => "missing field `" ++ field ++ "`"
  | duplicateField field => "duplicate field `" ++ field ++ "`"
  | unknownVariant found expected =>
    "unknown variant `" ++ found ++ "`, " ++ choices expected
  | notAChoice => "wanted string or table"
  | notOneElement several =>
    "wanted exactly 1 element, " ++ (if several then "more than 1 element" else "found 0 elements")
  | chosenContent .contents => "expected empty table"
  | chosenContent .rows => "expected empty array"
  | chosenContent (.scalar type) => "expected table, found " ++ type

end Mismatch

namespace Tree

/-- The part does not fit where `expected` is expected; if it cannot be read, that comes first. -/
def unexpected {α : Type} (t : Tree) (expected : String) : Reading α :=
  match t.kind with
  | none => .error .malformed
  | some found => .error (.mismatch (.invalidType found expected))

/-- A text. -/
def asText : Tree → Reading String
  | .text s => .ok s
  | t => t.unexpected "a string"

/-- A list, in either form, whose items are read one after the other. -/
def asList {α : Type} (item : Tree → Reading α) : Tree → Reading (List α)
  | .list items whole => do
    let values ← items.mapM item
    if whole then .ok values else .error .malformed
  | .rows tables => tables.mapM item
  | t => t.unexpected "a sequence"

/-- A natural number. -/
def asCount : Tree → Reading Nat
  | .integer (.ofNat n) => .ok n
  | .integer n =>
    .error (.mismatch (.invalidValue ("integer `" ++ toString n ++ "`") "usize"))
  | t => t.unexpected "usize"

/-- A text of one character. -/
def asCharacter : Tree → Reading Char
  | .text s =>
    match s.toList with
    | [c] => .ok c
    | _ => .error (.mismatch (.invalidValue ("string " ++ Text.quoted s) "a character"))
  | t => t.unexpected "a character"

/-- A path. -/
def asPath : Tree → Reading String
  | .text s => .ok s
  | t => t.unexpected "path string"

/-- One of several names. -/
def asName (names : List String) (name : String) : Reading String :=
  if names.contains name then .ok name
  else .error (.mismatch (.unknownVariant name names))

/-- A name takes no value with it: an empty list or table says nothing, all else is too much. -/
def asNothing : Tree → Reading Unit
  | .list [] true => .ok ()
  | .rows [] => .ok ()
  | .table [] true => .ok ()
  | .text _ => .error (.mismatch (.chosenContent (.scalar "string")))
  | .integer _ => .error (.mismatch (.chosenContent (.scalar "integer")))
  | .float _ => .error (.mismatch (.chosenContent (.scalar "float")))
  | .bool _ => .error (.mismatch (.chosenContent (.scalar "boolean")))
  | .moment => .error (.mismatch (.chosenContent (.scalar "datetime")))
  | .rows _ => .error (.mismatch (.chosenContent .rows))
  | _ => .error (.mismatch (.chosenContent .contents))

/-- A choice among names: the name itself, or a table with the name as its only key. -/
def asChoice (names : List String) : Tree → Reading String
  | .text s => asName names s
  | .table [(some key, t)] _ => do
    let name ← asName names key
    t.asNothing
    return name
  | .table members _ => .error (.mismatch (.notOneElement !members.isEmpty))
  | _ => .error (.mismatch .notAChoice)

/-- A value that may be absent. -/
def asOptional {α : Type} (value : Tree → Reading α) : Tree → Reading (Option α)
  | .null => .ok none
  | t => some <$> value t

end Tree

/-- The fields of a record and how each is read. -/
structure Record (α : Type) where
  /-- What messages call the record. -/
  title : String
  /-- The fields in their order. -/
  fields : List String
  /-- The fields that must be there. -/
  required : List String
  /-- The record before any field is read; what is not required has its default here. -/
  blank : α
  /-- Reads the value of a field into the record. -/
  take : String → Tree → α → Reading α

namespace Record

variable {α : Type} (record : Record α)

/-- Reads members one after the other.  Gives the record and the fields that were met. -/
def readMembers (met : List String) (value : α) :
    List (Option String × Tree) → Reading (α × List String)
  | [] => .ok (value, met)
  | (none, _) :: _ => .error .malformed
  | (some key, t) :: more =>
    if record.fields.contains key then
      if met.contains key then .error (.mismatch (.duplicateField key))
      else do readMembers (key :: met) (← record.take key t value) more
    else if t.isSound then readMembers met value more
    else .error .malformed

/-- The first required field that was not met. -/
def missing? (met : List String) : Option String :=
  record.fields.find? (fun field => record.required.contains field && !met.contains field)

/-- The record that the members of a table make. -/
def ofMembers (members : List (Option String × Tree)) (whole : Bool) : Reading α := do
  let (value, met) ← record.readMembers [] record.blank members
  if !whole then .error .malformed
  else
    match record.missing? met with
    | some field => .error (.mismatch (.missingField field))
    | none => .ok value

/-- The record that the items of a list make.  Items beyond the last field are passed over, unless
`strict` refuses them. -/
def ofItems (strict : Bool) (items : List Tree) (whole : Bool) : Reading α := do
  let (value, met) ← record.readMembers [] record.blank ((record.fields.map some).zip items)
  if !whole || (strict && record.fields.length < items.length) then .error .malformed
  else
    match record.missing? met with
    | some field =>
      .error (.mismatch (.invalidLength (record.fields.idxOf field)
        (record.title ++ " with " ++ toString record.fields.length ++ " elements")))
    | none => .ok value

/-- The record that a part of a document holds.  A moment counts as a table without any field. -/
def read (strict : Bool) : Tree → Reading α
  | .table members whole => record.ofMembers members whole
  | .list items whole => record.ofItems strict items whole
  | .rows tables => record.ofItems strict tables true
  | .moment => record.ofMembers [] true
  | t => t.unexpected record.title

@[simp] theorem readMembers_nil (met : List String) (value : α) :
    record.readMembers met value [] = .ok (value, met) := rfl

end Record

end Wordbook
