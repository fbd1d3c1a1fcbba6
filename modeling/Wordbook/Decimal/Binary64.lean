/-!
# Numbers in double precision

Magnitudes as they are kept in 64-bit binary floating point, and the rounding that takes exact
values there.  Everything is computed with natural numbers.

## Main Definitions

* `Ratio` — an exact non-negative value
* `roundQuotient` — the quotient of two numbers, rounded to the nearest, ties to even
* `Binary64` — a magnitude in double precision
* `Binary64.ofRatio?` — the magnitude nearest to an exact value
-/

namespace Wordbook.Decimal

/-- A non-negative value as a quotient of natural numbers; the lower one is positive. -/
structure Ratio where
  /-- The upper number. -/
  num : Nat
  /-- The lower number. -/
  den : Nat
deriving DecidableEq, Repr

namespace Ratio

/-- A natural number as a value. -/
def ofNat (n : Nat) : Ratio := ⟨n, 1⟩

/-- A value times a power of a positive base. -/
def scale (r : Ratio) (base : Nat) (exponent : Int) : Ratio :=
  if 0 ≤ exponent then ⟨r.num * Nat.pow base exponent.toNat, r.den⟩
  else ⟨r.num, r.den * Nat.pow base (-exponent).toNat⟩

/-- The product of two values. -/
def mul (r s : Ratio) : Ratio := ⟨r.num * s.num, r.den * s.den⟩

/-- The quotient of a value by a positive one. -/
def div (r s : Ratio) : Ratio := ⟨r.num * s.den, r.den * s.num⟩

/-- The first value is at most the second. -/
def le (r s : Ratio) : Bool := r.num * s.den ≤ s.num * r.den

/-- The first value is less than the second. -/
def lt (r s : Ratio) : Bool := r.num * s.den < s.num * r.den

end Ratio

/-- The quotient of two natural numbers, rounded to the nearest one; of two equally near, to the
even one. -/
def roundQuotient (num den : Nat) : Nat :=
  let floor := num / den
  let twice := 2 * (num % den)
  if twice < den then floor
  else if den < twice then floor + 1
  else floor + floor % 2

/-- The magnitude `significand * 2 ^ exponent` of a number in double precision.  The significand has
at most 53 bits, and exactly 53 unless the exponent is the least one. -/
structure Binary64 where
  /-- The digits, as a natural number. -/
  significand : Nat
  /-- The place of the last digit. -/
  exponent : Int
deriving DecidableEq, Repr

namespace Binary64

/-- The least significand that uses all its bits. -/
def hiddenBit : Nat := Nat.pow 2 52

/-- The place of the last digit of the smallest numbers. -/
def leastExponent : Int := -1074

/-- The place of the last digit of the greatest numbers. -/
def greatestExponent : Int := 971

/-- Nothing. -/
def zero : Binary64 := ⟨0, leastExponent⟩

/-- The exact value of a magnitude. -/
def toRatio (x : Binary64) : Ratio := (Ratio.ofNat x.significand).scale 2 x.exponent

/-- The place of the last of the 53 digits of a positive value, or the least place there is. -/
def placeOf (r : Ratio) : Int :=
  let guess : Int := (Nat.log2 r.num : Int) - Nat.log2 r.den - 53
  let scaled := r.scale 2 (-guess)
  let place := if 2 * hiddenBit ≤ scaled.num / scaled.den then guess + 1 else guess
  max place leastExponent

/-- The magnitude nearest to an exact value, ties to even; none if the value is too great. -/
def ofRatio? (r : Ratio) : Option Binary64 :=
  if r.num = 0 then some zero
  else
    let place := placeOf r
    let scaled := r.scale 2 (-place)
    let rounded := roundQuotient scaled.num scaled.den
    let x : Binary64 :=
      if rounded = 2 * hiddenBit then ⟨hiddenBit, place + 1⟩ else ⟨rounded, place⟩
    if greatestExponent < x.exponent then none else some x

/-- The product of two magnitudes, rounded; none if it is too great. -/
def mul? (x y : Binary64) : Option Binary64 := ofRatio? (x.toRatio.mul y.toRatio)

/-- The quotient of a magnitude by a positive one, rounded; none if it is too great. -/
def div? (x y : Binary64) : Option Binary64 := ofRatio? (x.toRatio.div y.toRatio)

/-- The magnitude nearest to a decimal `digits * 10 ^ exponent`; none if that is too great.
Decimals far beyond either end of the range are settled by their number of digits alone. -/
def ofDecimal? (digits : Nat) (exponent : Int) : Option Binary64 :=
  let size : Int := (Nat.toDigits 10 digits).length + exponent
  if digits = 0 then some zero
  else if 400 < size then none
  else if size < -400 then some zero
  else ofRatio? ((Ratio.ofNat digits).scale 10 exponent)

end Binary64

end Wordbook.Decimal
