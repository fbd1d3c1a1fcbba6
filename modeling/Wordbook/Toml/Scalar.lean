import Wordbook.Decimal.Shortest
import Wordbook.Text.Hex
import Wordbook.Tree

/-!
# TOML scalars

Truth values, numbers, dates and times: all scalars that are written without quotes.

## Main Definitions

* `integer?`, `float?` — the value of a number
* `isDate`, `isTime`, `isOffset` — the parts of a date and time
* `scalar?` — the value of a word

## Design Notes

What follows a scalar is never a letter, a digit or one of the signs `+ - . : _`.  So a scalar is
first cut out of the document as the longest word of these characters, and the word as a whole has
to be of one of the forms.  Only the space between a date and a time is not part of such a word.
-/

namespace Wordbook.Toml

open Wordbook.Decimal

/-- A character of a scalar that is written without quotes. -/
def isWord (c : Char) : Bool :=
  c.isAlphanum || c == '+' || c == '-' || c == '.' || c == ':' || c == '_'

/-- Digits of the given kind; single underscores may stand between them. -/
def areDigits (isDigit : Char → Bool) : List Char → Bool
  | [] => false
  | [c] => isDigit c
  | c :: '_' :: more => isDigit c && areDigits isDigit more
  | c :: more => isDigit c && areDigits isDigit more

/-- The number that digits in a base stand for; underscores do not count. -/
def number (base : Nat) (digits : List Char) : Nat :=
  (digits.filter (· != '_')).foldl (fun n c => base * n + (Text.hexValue c).getD 0) 0

/-- The sign at the front of a number, negative if set. -/
def sign : List Char → Bool × List Char
  | '+' :: rest => (false, rest)
  | '-' :: rest => (true, rest)
  | cs => (false, cs)

/-- Decimal digits without a nought before others. -/
def isDecimal (cs : List Char) : Bool :=
  areDigits Char.isDigit cs && (cs.length == 1 || cs.head? != some '0')

/-- The base that a letter behind a nought stands for, and which digits it has. -/
def base? : Char → Option (Nat × (Char → Bool))
  | 'x' => some (16, fun c => (Text.hexValue c).isSome)
  | 'o' => some (8, fun c => '0' ≤ c && c ≤ '7')
  | 'b' => some (2, fun c => c == '0' || c == '1')
  | _ => none

/-- A base and digits of that base, from a number that names its base. -/
def prefixed? : List Char → Option (Nat × List Char)
  | '0' :: c :: digits =>
    match base? c with
    | none => none
    | some (base, isDigit) => if areDigits isDigit digits then some (base, digits) else none
  | _ => none

/-- The whole number that a word stands for.  It has to fit into 64 bits. -/
def integer? (word : List Char) : Option Tree :=
  match prefixed? word with
  | some (base, digits) =>
    if number base digits < Nat.pow 2 63 then some (.integer (number base digits)) else none
  | none =>
    let (negative, digits) := sign word
    if !isDecimal digits then none
    else
      let n := number 10 digits
      if negative then if n ≤ Nat.pow 2 63 then some (.integer (-(n : Int))) else none
      else if n < Nat.pow 2 63 then some (.integer n)
      else none

/-- The exponent at the end of a number; nought if there is none. -/
def exponent? : List Char → Option Int
  | [] => some 0
  | c :: more =>
    let (negative, digits) := sign more
    if (c == 'e' || c == 'E') && areDigits Char.isDigit digits then
      let n := number 10 digits
      some (if negative then -(n : Int) else n)
    else none

/-- The digits behind the point of a number, and its exponent.  One of the two must be there. -/
def fraction? : List Char → Option (List Char × Int)
  | [] => none
  | '.' :: more =>
    let digits := more.takeWhile (fun c => c.isDigit || c == '_')
    let rest := more.dropWhile (fun c => c.isDigit || c == '_')
    if areDigits Char.isDigit digits then
      (exponent? rest).map (fun exponent => (digits.filter (· != '_'), exponent))
    else none
  | rest => (exponent? rest).map (fun exponent => ([], exponent))

/-- The number with fraction or exponent that a word stands for.  A positive number must be in
range, a negative one may fall to minus infinity. -/
def float? (word : List Char) : Option Tree :=
  let (negative, cs) := sign word
  let whole := cs.takeWhile (fun c => c.isDigit || c == '_')
  match fraction? (cs.dropWhile (fun c => c.isDigit || c == '_')) with
  | none => none
  | some (fraction, exponent) =>
    if !isDecimal whole then none
    else
      match Binary64.ofDecimal? (number 10 (whole ++ fraction)) (exponent - fraction.length) with
      | some x => some (.float (Layout.plain.write negative x))
      | none => if negative then some (.float "-inf") else none

/-- The infinite and undefined numbers. -/
def special? (word : List Char) : Option Tree :=
  match sign word with
  | (negative, ['i', 'n', 'f']) => some (.float (if negative then "-inf" else "inf"))
  | (_, ['n', 'a', 'n']) => some (.float "NaN")
  | _ => none

/-- The number that two digits stand for, if it lies in the given range. -/
def twoDigits (least greatest : Nat) (a b : Char) : Option Nat :=
  if a.isDigit && b.isDigit && least ≤ number 10 [a, b] && number 10 [a, b] ≤ greatest then
    some (number 10 [a, b])
  else none

/-- The number of days of a month. -/
def daysIn (year month : Nat) : Nat :=
  if month = 2 then
    if year % 4 = 0 && (year % 100 != 0 || year % 400 = 0) then 29 else 28
  else if month = 4 || month = 6 || month = 9 || month = 11 then 30
  else 31

/-- The day exists. -/
def isDay (year : List Char) (month day : Option Nat) : Bool :=
  match month, day with
  | some month, some day => year.all Char.isDigit && day ≤ daysIn (number 10 year) month
  | _, _ => false

/-- A date. -/
def isDate : List Char → Bool
  | [a, b, c, d, '-', e, f, '-', g, h] =>
    isDay [a, b, c, d] (twoDigits 1 12 e f) (twoDigits 1 31 g h)
  | _ => false

/-- What follows the digits of a second: nothing, or a point and digits. -/
def isSecondFraction : List Char → Bool
  | [] => true
  | '.' :: digits => !digits.isEmpty && digits.all Char.isDigit
  | _ => false

/-- A time of day. -/
def isTime : List Char → Bool
  | a :: b :: ':' :: c :: d :: ':' :: e :: f :: rest =>
    (twoDigits 0 23 a b).isSome && (twoDigits 0 59 c d).isSome && (twoDigits 0 60 e f).isSome
      && isSecondFraction rest
  | _ => false

/-- The difference of a local time from the universal one. -/
def isOffset : List Char → Bool
  | ['Z'] => true
  | ['z'] => true
  | [s, a, b, ':', c, d] =>
    (s == '+' || s == '-') && (twoDigits 0 23 a b).isSome && (twoDigits 0 59 c d).isSome
  | _ => false

/-- A time of day, perhaps with an offset. -/
def isTimeWithOffset (word : List Char) : Bool :=
  let isTimeChar (c : Char) : Bool := c.isDigit || c == ':' || c == '.'
  isTime word || (isTime (word.takeWhile isTimeChar) && isOffset (word.dropWhile isTimeChar))

/-- A date, a date with a time behind the letter `T`, or a time. -/
def isMoment (word : List Char) : Bool :=
  isTime word || isDate word
    || (isDate (word.take 10)
      && match word.drop 10 with
        | c :: time => (c == 'T' || c == 't') && isTimeWithOffset time
        | [] => false)

/-- The value that a word stands for. -/
def scalar? (word : List Char) : Option Tree :=
  if word = "true".toList then some (.bool true)
  else if word = "false".toList then some (.bool false)
  else if isMoment word then some .moment
  else ((integer? word).or (float? word)).or (special? word)

/-- The scalar without quotes at the front of a document, and what follows. -/
def lexScalar (cs : List Char) : Option (Tree × List Char) :=
  let word := cs.takeWhile isWord
  match cs.dropWhile isWord with
  | ' ' :: d :: rest =>
    if isDate word && d.isDigit then
      if isTimeWithOffset ((d :: rest).takeWhile isWord) then
        some (.moment, (d :: rest).dropWhile isWord)
      else none
    else (scalar? word).map (·, ' ' :: d :: rest)
  | rest => (scalar? word).map (·, rest)

end Wordbook.Toml
