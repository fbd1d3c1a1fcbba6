/-!
# The word at a cursor

A script is a row of commands, each a short lower-case word followed by its arguments, such as
`tx 5` or `sc#f80`.  Wherever the cursor stands in a command or its arguments, the word to look up
is the command's.  This module finds it.

## Main Definitions

* `Word` — a word and the offset at which it starts
* `Word.Landing` — where the search for the start of a word ends
* `Word.find` — the word that a cursor belongs to

## Design Notes

The search only ever goes back, so it works on the text *behind* the cursor: the characters up to
and including the one it looks at, nearest first.  A step back drops the head of that list, what
lies further back is its tail, and the offset of the head is the length of the tail.
-/

namespace Wordbook

/-- A word found in a text: its characters and the offset of the first. -/
structure Word where
  /-- The characters of the word; none if no word was found. -/
  text : String := ""
  /-- The number of characters before the word. -/
  start : Nat := 0
deriving DecidableEq, Repr, Inhabited

namespace Word

/-- The offset just behind a word. -/
def stop (word : Word) : Nat := word.start + word.text.length

/-- No word was found. -/
def isEmpty (word : Word) : Bool := word.text.isEmpty

/-- How often the search may start again unless told otherwise. -/
def defaultPasses : Nat := 10

/-! ### Classes of characters -/

/-- A space or the end of a line: a cursor on it belongs to what stands before. -/
def isBreak (c : Char) : Bool := c == ' ' || c == '\n'

/-- A character at which the search for a word can begin: a lower-case letter, or the end of the
line before. -/
def isAnchor (c : Char) : Bool := c.isLower || c == '\n'

/-- A character that a command shares with the arguments glued to it: a lower-case letter, a digit
or the sign that opens a colour. -/
def isRun (c : Char) : Bool := c.isLower || c.isDigit || c == '#'

/-! ### Going back -/

/-- The offset at which the search begins.  A cursor beyond the text stands on its last character;
one that stands on anything but a break looks at the character after it, if there is one. -/
def entry (text : List Char) (cursor : Nat) : Nat :=
  let here := min cursor (text.length - 1)
  match text[here]? with
  | none => here
  | some c => if isBreak c then here else min (here + 1) (text.length - 1)

/-- The text up to and including the offset at which the search begins, nearest character first. -/
def behind (text : List Char) (cursor : Nat) : List Char :=
  (text.take (entry text cursor + 1)).reverse

/-- The offset of the character that a search looks at. -/
def offset (back : List Char) : Nat := back.length - 1

/-- Goes back to the nearest anchor, or to the first character. -/
def toAnchor : List Char → List Char
  | c :: d :: back => if isAnchor c then c :: d :: back else toAnchor (d :: back)
  | back => back

/-- Goes back to where the run of word characters just before begins. -/
def toRunStart : List Char → List Char
  | c :: d :: back => if isRun d then toRunStart (d :: back) else c :: d :: back
  | back => back

/-- A colour that stands apart from its command: its sign follows a space. -/
def onColour : List Char → Bool
  | '#' :: ' ' :: _ => true
  | _ => false

/-- One pass of the search: to an anchor, and from there to the start of its run. -/
def pass (back : List Char) : List Char := toRunStart (toAnchor back)

/-- Where a search ends. -/
inductive Landing where
  /-- At the start of a run that is not a colour. -/
  | settled (back : List Char)
  /-- Still on a colour, or nowhere yet, when all passes were spent. -/
  | spent (back : List Char)
deriving DecidableEq, Repr

/-- Passes over colours that stand apart until another run is reached, at most `passes` times. -/
def settle : Nat → List Char → Landing
  | 0, back => .spent back
  | passes + 1, back =>
    if onColour (pass back) then settle passes (pass back) else .settled (pass back)

/-- The word that the cursor in `text` belongs to, found in at most `passes` passes: the lower-case
letters at the start of the run reached.  If the passes do not suffice the word is empty. -/
def find (passes : Nat) (text : String) (cursor : Nat) : Word :=
  match settle passes (behind text.toList cursor) with
  | .settled back =>
    ⟨String.ofList ((text.toList.drop (offset back)).takeWhile Char.isLower), offset back⟩
  | .spent back => ⟨"", offset back⟩

/-! ### Small facts -/

@[simp] theorem toAnchor_nil : toAnchor [] = [] := rfl

@[simp] theorem toAnchor_singleton (c : Char) : toAnchor [c] = [c] := rfl

theorem toAnchor_of_isAnchor {c : Char} (back : List Char) (h : isAnchor c = true) :
    toAnchor (c :: back) = c :: back := by
  cases back <;> simp [toAnchor, h]

@[simp] theorem toRunStart_nil : toRunStart [] = [] := rfl

@[simp] theorem toRunStart_singleton (c : Char) : toRunStart [c] = [c] := rfl

@[simp] theorem settle_zero (back : List Char) : settle 0 back = .spent back := rfl

theorem settle_succ (passes : Nat) (back : List Char) :
    settle (passes + 1) back =
      if onColour (pass back) then settle passes (pass back) else .settled (pass back) := rfl

end Word

end Wordbook
