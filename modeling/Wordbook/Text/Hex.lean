/-!
# Hexadecimal digits

The values of hexadecimal digits, and code points written with four of them.

## Main Definitions

* `hexValue` — the value of a digit
* `hexNumber` — the number that digits stand for
* `hexFour` — a number below 65536 in four digits
-/

namespace Wordbook.Text

/-- The value of a hexadecimal digit of either case. -/
def hexValue (c : Char) : Option Nat :=
  if c.isDigit then some (c.toNat - '0'.toNat)
  else if 'a' ≤ c && c ≤ 'f' then some (c.toNat - 'a'.toNat + 10)
  else if 'A' ≤ c && c ≤ 'F' then some (c.toNat - 'A'.toNat + 10)
  else none

/-- The number that hexadecimal digits stand for, the greatest place first. -/
def hexNumber (digits : List Char) : Option Nat :=
  digits.foldlM (fun n c => (hexValue c).map (fun d => 16 * n + d)) 0

/-- A digit below sixteen, in the given case. -/
def hexDigit (upper : Bool) (d : Nat) : Char :=
  if d < 10 then Char.ofNat ('0'.toNat + d)
  else Char.ofNat ((if upper then 'A' else 'a').toNat + (d - 10))

/-- The last four digits of a number. -/
def hexFour (upper : Bool) (n : Nat) : List Char :=
  [hexDigit upper (n / 4096 % 16), hexDigit upper (n / 256 % 16), hexDigit upper (n / 16 % 16),
    hexDigit upper (n % 16)]

/-- The character of a code point, unless it is half of a surrogate pair or beyond the last one. -/
def scalar? (n : Nat) : Option Char :=
  if h : n.isValidChar then some (Char.ofNatAux n h) else none

end Wordbook.Text
