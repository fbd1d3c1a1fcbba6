import Wordbook.Text.Hex

/-!
# JSON strings

The form of a string between its quotes, and the text it stands for.

## Main Definitions

* `Piece` — a character, or a code unit that is written as an escape
* `lexText` — the pieces of a string up to its closing quote
* `assemble` — the text of a string, if its code units pair up
* `escaped` — a text in the form of a string

## Design Notes

A code unit is half a character if it is a surrogate, so whether a string stands for a text shows
only when its pieces are put together.  A string that is passed over need not stand for any text.
-/

namespace Wordbook.Json

/-- A part of a string. -/
inductive Piece where
  /-- A character that stands for itself or is escaped by a letter. -/
  | char (c : Char)
  /-- A code unit of UTF-16, written with four digits. -/
  | unit (n : Nat)
deriving DecidableEq, Repr

/-- The character behind a backslash stands for this one. -/
def unescape : Char → Option Char
  | '"' => some '"'
  | '\\' => some '\\'
  | '/' => some '/'
  | 'b' => some '\x08'
  | 'f' => some '\x0c'
  | 'n' => some '\n'
  | 'r' => some '\r'
  | 't' => some '\t'
  | _ => none

/-- The pieces of a string up to its closing quote, and what follows the quote.  Control characters
and unknown escapes have no place in a string. -/
def lexText : List Char → Option (List Piece × List Char)
  | [] => none
  | '"' :: rest => some ([], rest)
  | '\\' :: 'u' :: a :: b :: c :: d :: rest =>
    match Text.hexNumber [a, b, c, d], lexText rest with
    | some n, some (pieces, behind) => some (.unit n :: pieces, behind)
    | _, _ => none
  | '\\' :: e :: rest =>
    match unescape e, lexText rest with
    | some c, some (pieces, behind) => some (.char c :: pieces, behind)
    | _, _ => none
  | c :: rest =>
    if c = '\\' ∨ c < ' ' then none
    else
      match lexText rest with
      | some (pieces, behind) => some (.char c :: pieces, behind)
      | none => none

/-- The code unit is the first half of a pair. -/
def isHighSurrogate (n : Nat) : Bool := 0xd800 ≤ n && n < 0xdc00

/-- The code unit is the second half of a pair. -/
def isLowSurrogate (n : Nat) : Bool := 0xdc00 ≤ n && n < 0xe000

/-- The code point of a pair of surrogates, each of which gives its last ten bits. -/
def pairValue (high low : Nat) : Nat := 0x10000 + high % 0x400 * 0x400 + low % 0x400

/-- The text that the pieces of a string stand for; none if a surrogate stands alone. -/
def assemble : List Piece → Option (List Char)
  | [] => some []
  | .char c :: more => (assemble more).map (c :: ·)
  | .unit n :: .unit m :: more =>
    if isHighSurrogate n then
      if isLowSurrogate m then
        match Text.scalar? (pairValue n m), assemble more with
        | some c, some cs => some (c :: cs)
        | _, _ => none
      else none
    else
      match Text.scalar? n, assemble (.unit m :: more) with
      | some c, some cs => some (c :: cs)
      | _, _ => none
  | .unit n :: more =>
    match Text.scalar? n, assemble more with
    | some c, some cs => some (c :: cs)
    | _, _ => none

/-- A character as it is written in a string. -/
def escapedChar (c : Char) : List Char :=
  match c with
  | '"' => ['\\', '"']
  | '\\' => ['\\', '\\']
  | '\x08' => ['\\', 'b']
  | '\x0c' => ['\\', 'f']
  | '\n' => ['\\', 'n']
  | '\r' => ['\\', 'r']
  | '\t' => ['\\', 't']
  | _ => if c < ' ' then '\\' :: 'u' :: Text.hexFour false c.toNat else [c]

/-- A text as it is written in a string, without the quotes. -/
def escaped (text : List Char) : List Char := text.flatMap escapedChar

/-- What follows a string is shorter than the string with what follows it. -/
theorem length_lt_of_lexText {cs : List Char} {pieces : List Piece} {rest : List Char}
    (h : lexText cs = some (pieces, rest)) : rest.length < cs.length := by
  fun_induction lexText cs generalizing pieces rest <;> simp_all <;> grind

end Wordbook.Json
