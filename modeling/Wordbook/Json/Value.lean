import Wordbook.Json.Text

/-!
# JSON values

The values that are written as JSON, and how: every part of a container on a line of its own, two
spaces further in.

## Main Definitions

* `Value` — a JSON value
* `Value.write` — the text of a value
-/

namespace Wordbook.Json

/-- A JSON value. -/
inductive Value where
  /-- The absence of a value. -/
  | null
  /-- A truth value. -/
  | bool (b : Bool)
  /-- A natural number. -/
  | number (n : Nat)
  /-- A text. -/
  | string (s : String)
  /-- Values in a row. -/
  | array (items : List Value)
  /-- Named values in a row. -/
  | object (members : List (String × Value))
deriving Repr, Inhabited

/-- A text as a string in quotes. -/
def writeText (s : String) : List Char := '"' :: escaped s.toList ++ ['"']

/-- The end of a line, and the space before the next one. -/
def newline (depth : Nat) : List Char := '\n' :: List.replicate (2 * depth) ' '

namespace Value

mutual

/-- The text of a value that stands `depth` containers deep. -/
def writeAt (depth : Nat) : Value → List Char
  | .null => "null".toList
  | .bool b => (if b then "true" else "false").toList
  | .number n => (toString n).toList
  | .string s => writeText s
  | .array [] => ['[', ']']
  | .array (v :: more) =>
    '[' :: newline (depth + 1) ++ writeAt (depth + 1) v ++ writeItems (depth + 1) more
      ++ newline depth ++ [']']
  | .object [] => ['{', '}']
  | .object ((key, v) :: more) =>
    '{' :: newline (depth + 1) ++ writeText key ++ ':' :: ' ' :: writeAt (depth + 1) v
      ++ writeMembers (depth + 1) more ++ newline depth ++ ['}']

/-- The items of a list behind the first. -/
def writeItems (depth : Nat) : List Value → List Char
  | [] => []
  | v :: more => ',' :: newline depth ++ writeAt depth v ++ writeItems depth more

/-- The members of a table behind the first. -/
def writeMembers (depth : Nat) : List (String × Value) → List Char
  | [] => []
  | (key, v) :: more =>
    ',' :: newline depth ++ writeText key ++ ':' :: ' ' :: writeAt depth v
      ++ writeMembers depth more

end

/-- The text of a value. -/
def write (v : Value) : String := String.ofList (writeAt 0 v)

/-- A list of texts. -/
def strings (texts : List String) : Value := .array (texts.map .string)

/-- A text, or nothing. -/
def optional : Option String → Value
  | none => .null
  | some s => .string s

end Value

end Wordbook.Json
