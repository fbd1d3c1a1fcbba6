import Wordbook.Text.Quoted

/-!
# Document trees

What a document holds, whichever notation it is written in: scalars, lists and tables.

## Main Definitions

* `Tree` — a document, or a part of one
* `Tree.isSound` — the text of the part was read to its end
* `Tree.kind` — what a message calls a part

## Design Notes

A text that goes wrong somewhere still holds what stands before, and a reader that goes through the
tree in the order of the text meets that first.  So the tree of such a text ends where the text goes
wrong: the containers that are open there are marked as cut off, and a member whose value is missing
has a `broken` one.
-/

namespace Wordbook

/-- A document, or a part of one. -/
inductive Tree where
  /-- The absence of a value. -/
  | null
  /-- A truth value. -/
  | bool (b : Bool)
  /-- A whole number. -/
  | integer (n : Int)
  /-- Another number, as messages show it. -/
  | float (shown : String)
  /-- A text. -/
  | text (s : String)
  /-- A date, a time or both. -/
  | moment
  /-- Values in a row; `whole` unless the text goes wrong before the end of the list. -/
  | list (items : List Tree) (whole : Bool)
  /-- Tables in a row, each under a header of its own. -/
  | rows (tables : List Tree)
  /-- Named values in a row; `whole` unless the text goes wrong before the end of the table.  A name
  of the right form may still stand for no text. -/
  | table (members : List (Option String × Tree)) (whole : Bool)
  /-- A scalar of the right form that stands for no value. -/
  | unreadable
  /-- No value: the text goes wrong here. -/
  | broken
deriving Repr, Inhabited

namespace Tree

mutual

/-- The text of the part was read to its end. -/
def isSound : Tree → Bool
  | .list items whole => areSound items && whole
  | .rows tables => areSound tables
  | .table members whole => membersAreSound members && whole
  | .broken => false
  | _ => true

/-- All items are sound. -/
def areSound : List Tree → Bool
  | [] => true
  | t :: more => isSound t && areSound more

/-- All values are sound. -/
def membersAreSound : List (Option String × Tree) → Bool
  | [] => true
  | (_, t) :: more => isSound t && membersAreSound more

end

/-- What a message calls a part.  One that cannot be read has no name. -/
def kind : Tree → Option String
  | .null => some "null"
  | .bool b => some ("boolean `" ++ (if b then "true" else "false") ++ "`")
  | .integer n => some ("integer `" ++ toString n ++ "`")
  | .float shown => some ("floating point `" ++ shown ++ "`")
  | .text s => some ("string " ++ Text.quoted s)
  | .moment => some "map"
  | .list _ _ => some "sequence"
  | .rows _ => some "sequence"
  | .table _ _ => some "map"
  | .unreadable => none
  | .broken => none

end Tree

end Wordbook
