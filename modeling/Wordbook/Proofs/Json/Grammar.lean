import Wordbook.Proofs.Datum
import Wordbook.Proofs.Text.Spelling

/-!
# The grammar of JSON

Which JSON texts denote a datum, said without any reader.

## Main Definitions

* `IsGap` — white space between the parts of a text
* `NumberText`, `StringText` — the texts of numbers and strings
* `Spells` — a text without white space around it spells a datum
* `Denotes` — a text denotes a datum

## Design Notes

A string denotes a text, that is, characters.  An escape for half of a surrogate pair denotes no
character by itself, so a string with such an escape denotes nothing unless the other half follows.

Numbers denote rational numbers of any size and any precision.
-/

namespace Wordbook.Json

open Wordbook.Text

/-- White space, or nothing. -/
def IsGap (cs : List Char) : Prop := ∀ c ∈ cs, c = ' ' ∨ c = '\n' ∨ c = '\t' ∨ c = '\r'

/-! ### Numbers -/

/-- Decimal digits, at least one. -/
def AreDigits (cs : List Char) : Prop := cs ≠ [] ∧ ∀ c ∈ cs, c.isDigit = true

/-- The digits before the point: a nought, or any digits that do not begin with one. -/
def AreWhole (cs : List Char) : Prop := AreDigits cs ∧ (cs.head? = some '0' → cs = ['0'])

/-- The fraction of a number: nothing, or a point and the given digits. -/
inductive FractionText : List Char → List Char → Prop
  | absent : FractionText [] []
  | present {digits : List Char} (are : AreDigits digits) : FractionText digits ('.' :: digits)

/-- The exponent of a number: nothing, or a letter, a sign and digits. -/
inductive ExponentText : Int → List Char → Prop
  | absent : ExponentText 0 []
  | present {mark : Char} {negative : Bool} {sign digits : List Char}
    (marks : mark = 'e' ∨ mark = 'E') (signed : SignText negative sign) (are : AreDigits digits) :
    ExponentText ((if negative then -1 else 1) * Nat.ofDigitChars 10 digits 0)
      (mark :: sign ++ digits)

/-- The number `n` times a power of ten. -/
def scaled (n : Nat) (exponent : Int) : Rat :=
  Rat.ofScientific n (decide (exponent < 0)) exponent.natAbs

/-- The text of a number without a sign: digits, maybe with a point among them, times a power of
ten. -/
inductive UnsignedText : Rat → List Char → Prop
  | mk {whole behind fraction power : List Char} {exponent : Int} (before : AreWhole whole)
    (point : FractionText behind fraction) (times : ExponentText exponent power) :
    UnsignedText (scaled (Nat.ofDigitChars 10 (whole ++ behind) 0) (exponent - behind.length))
      (whole ++ fraction ++ power)

/-- The text of a number, maybe with a minus. -/
inductive NumberText : Rat → List Char → Prop
  | positive {x : Rat} {cs : List Char} (unsigned : UnsignedText x cs) : NumberText x cs
  | negative {x : Rat} {cs : List Char} (unsigned : UnsignedText x cs) : NumberText (-x) ('-' :: cs)

/-! ### Strings -/

/-- The letters behind a backslash, and the characters they stand for. -/
def shortEscapes : List (Char × Char) :=
  [('"', '"'), ('\\', '\\'), ('/', '/'), ('b', '\x08'), ('f', '\x0c'), ('n', '\n'), ('r', '\r'),
    ('t', '\t')]

/-- A character as it may stand in a string: as it is, behind a backslash, by its code point, or by
the code points of a surrogate pair. -/
inductive CharText : Char → List Char → Prop
  | plain {c : Char} (visible : ' ' ≤ c) (noQuote : c ≠ '"') (noBackslash : c ≠ '\\') :
    CharText c [c]
  | short {e c : Char} (known : (e, c) ∈ shortEscapes) : CharText c ['\\', e]
  | point {c : Char} {digits : List Char} (four : digits.length = 4)
    (names : HexText c.toNat digits) :
    CharText c ('\\' :: 'u' :: digits)
  | pair {c : Char} {high low : Nat} {digits more : List Char} (four : digits.length = 4)
    (first : HexText high digits) (fourMore : more.length = 4) (second : HexText low more)
    (isHigh : 0xd800 ≤ high ∧ high < 0xdc00)
    (isLow : 0xdc00 ≤ low ∧ low < 0xe000)
    (names : c.toNat = 0x10000 + (high - 0xd800) * 0x400 + (low - 0xdc00)) :
    CharText c ('\\' :: 'u' :: digits ++ '\\' :: 'u' :: more)

/-- A text in quotes, each character as `CharText` allows. -/
inductive StringText : String → List Char → Prop
  | mk {s : String} {body : List Char} (spelled : Spelled CharText s.toList body) :
    StringText s ('"' :: body ++ ['"'])

/-- A text without quotes, backslashes and control characters is spelled as it stands. -/
theorem stringText_plain (s : String) (plain : ∀ c ∈ s.toList, ' ' ≤ c ∧ c ≠ '"' ∧ c ≠ '\\') :
    StringText s ('"' :: s.toList ++ ['"']) :=
  .mk (spelled_plain (fun c member =>
    .plain (plain c member).1 (plain c member).2.1 (plain c member).2.2))

/-! ### Data -/

mutual

/-- The characters spell the datum. -/
inductive Spells : Datum → List Char → Prop
  | null : Spells .null "null".toList
  | yes : Spells (.bool true) "true".toList
  | no : Spells (.bool false) "false".toList
  | number {x : Rat} {cs : List Char} (spelled : NumberText x cs) : Spells (.number x) cs
  | text {s : String} {cs : List Char} (spelled : StringText s cs) : Spells (.text s) cs
  | emptyList {gap : List Char} (isGap : IsGap gap) : Spells (.list []) ('[' :: gap ++ [']'])
  | list {items : List Datum} {cs : List Char} (spelled : SpellsItems items cs) :
    Spells (.list items) ('[' :: cs ++ [']'])
  | emptyTable {gap : List Char} (isGap : IsGap gap) : Spells (.table []) ('{' :: gap ++ ['}'])
  | table {members : List (String × Datum)} {cs : List Char} (spelled : SpellsMembers members cs) :
    Spells (.table members) ('{' :: cs ++ ['}'])

/-- The characters spell items of a list, at least one, with commas between them. -/
inductive SpellsItems : List Datum → List Char → Prop
  | last {v : Datum} {before cs behind : List Char} (opens : IsGap before) (spelled : Spells v cs)
    (closes : IsGap behind) : SpellsItems [v] (before ++ cs ++ behind)
  | more {v : Datum} {before cs behind : List Char} {items : List Datum} {ds : List Char}
    (opens : IsGap before) (spelled : Spells v cs) (closes : IsGap behind)
    (others : SpellsItems items ds) :
    SpellsItems (v :: items) (before ++ cs ++ behind ++ ',' :: ds)

/-- The characters spell members of a table, at least one, with commas between them. -/
inductive SpellsMembers : List (String × Datum) → List Char → Prop
  | last {key : String} {v : Datum} {front name gap before cs behind : List Char}
    (leads : IsGap front) (named : StringText key name) (parts : IsGap gap) (opens : IsGap before)
    (spelled : Spells v cs) (closes : IsGap behind) :
    SpellsMembers [(key, v)] (front ++ name ++ gap ++ ':' :: (before ++ cs ++ behind))
  | more {key : String} {v : Datum} {front name gap before cs behind : List Char}
    {members : List (String × Datum)} {ds : List Char} (leads : IsGap front)
    (named : StringText key name) (parts : IsGap gap) (opens : IsGap before)
    (spelled : Spells v cs) (closes : IsGap behind) (others : SpellsMembers members ds) :
    SpellsMembers ((key, v) :: members)
      (front ++ name ++ gap ++ ':' :: (before ++ cs ++ behind) ++ ',' :: ds)

end

/-- The `text` denotes the datum `v`: it spells `v`, maybe with white space around it. -/
def Denotes (text : String) (v : Datum) : Prop :=
  ∃ before cs behind, IsGap before ∧ Spells v cs ∧ IsGap behind
    ∧ text.toList = before ++ cs ++ behind

end Wordbook.Json
