import Wordbook.Decimal.Binary64

/-!
# Shortest decimals

The decimal with the fewest digits that is read back as a given number in double precision, and the
ways to write it down.

## Main Definitions

* `Binary64.rounds` — the values that round to a number
* `Binary64.shortest` — the shortest decimal among them
* `Tie` — which of two equally near decimals is taken
* `Layout` — where positional notation ends, and what an exponent looks like
* `Layout.write` — a number in decimal notation

## Design Notes

For each number of digits the decimals of that many digits form a grid, and if any of its points
rounds to the number then one of the two next to the number does.  So the search tries those two,
for one digit, two digits and so on.  Seventeen digits always suffice.  Both may lie at the same
distance from the number; formats differ in the one they take.
-/

namespace Wordbook.Decimal

/-- The decimal `digits * 10 ^ exponent`. -/
structure Point where
  /-- The digits, as a natural number. -/
  digits : Nat
  /-- The place of the last digit. -/
  exponent : Int
deriving DecidableEq, Repr

namespace Point

/-- The exact value of a decimal. -/
def toRatio (p : Point) : Ratio := (Ratio.ofNat p.digits).scale 10 p.exponent

end Point

/-- Which of two decimals at the same distance from a number is taken. -/
inductive Tie where
  /-- The one with the even last digit. -/
  | even
  /-- The greater one. -/
  | up
deriving DecidableEq, Repr

namespace Tie

/-- The one that is taken of a natural number and its successor. -/
def pick (tie : Tie) (floor : Nat) : Nat :=
  match tie with
  | even => floor + floor % 2
  | up => floor + 1

@[simp] theorem pick_up (floor : Nat) : up.pick floor = floor + 1 := rfl

end Tie

namespace Binary64

/-- The value halfway to the next smaller number.  Below a power of two the numbers lie twice as
close. -/
def halfBelow (x : Binary64) : Ratio :=
  let near := x.significand = hiddenBit ∧ leastExponent < x.exponent
  (Ratio.ofNat (4 * x.significand - (if near then 1 else 2))).scale 2 (x.exponent - 2)

/-- The value halfway to the next greater number. -/
def halfAbove (x : Binary64) : Ratio :=
  (Ratio.ofNat (4 * x.significand + 2)).scale 2 (x.exponent - 2)

/-- The value rounds to the number: it lies between the two halfway values.  These themselves round
to the number with the even significand. -/
def rounds (x : Binary64) (r : Ratio) : Bool :=
  if x.significand % 2 = 0 then x.halfBelow.le r && r.le x.halfAbove
  else x.halfBelow.lt r && r.lt x.halfAbove

/-- The number of digits before the point of a value of at least one; for a smaller value, one less
the number of noughts between the point and the first digit, less one. -/
def pointOf (r : Ratio) : Int :=
  let guess : Int := (Nat.toDigits 10 r.num).length - (Nat.toDigits 10 r.den).length
  if ((Ratio.ofNat 1).scale 10 guess).le r then guess + 1 else guess

/-- The shorter of the distances of a value from a floor and its successor decides. -/
def nearer (tie : Tie) (r : Ratio) (floor : Nat) : Nat :=
  let twice := 2 * (r.num - floor * r.den)
  if twice < r.den then floor
  else if r.den < twice then floor + 1
  else tie.pick floor

/-- The decimal with `count` digits nearest to the number among those that round to it. -/
def atDigits (tie : Tie) (x : Binary64) (count : Nat) : Option Point :=
  let place : Int := pointOf x.toRatio - count
  let scaled := x.toRatio.scale 10 (-place)
  let floor := scaled.num / scaled.den
  let below := x.rounds (Point.toRatio ⟨floor, place⟩)
  let above := x.rounds (Point.toRatio ⟨floor + 1, place⟩)
  match below, above with
  | true, true => some ⟨nearer tie scaled floor, place⟩
  | true, false => some ⟨floor, place⟩
  | false, true => some ⟨floor + 1, place⟩
  | false, false => none

/-- The decimal with the fewest digits that rounds to a positive number, found among those with up
to seventeen. -/
def shortest (tie : Tie) (x : Binary64) : Point :=
  ((List.range 17).findSome? (fun n => x.atDigits tie (n + 1))).getD ⟨x.significand, 0⟩

end Binary64

/-- A way to write numbers: those whose point stands too far from the digits are written with an
exponent. -/
structure Layout where
  /-- The place of the point, counted from before the first digit, may be used without exponent. -/
  positional : Int → Bool
  /-- Of two equally near decimals, the one that is written. -/
  tie : Tie
  /-- What stands before an exponent that is not negative. -/
  plus : List Char

namespace Layout

/-- Takes noughts off the end of the digits. -/
def trim : List Char → Int → List Char × Int
  | '0' :: more, exponent => trim more (exponent + 1)
  | reversed, exponent => (reversed.reverse, exponent)

/-- The digits with the point behind the first `point` of them.  There is always a digit on either
side. -/
def placed (digits : List Char) (point : Int) : List Char :=
  if point ≤ 0 then '0' :: '.' :: (List.replicate (-point).toNat '0' ++ digits)
  else if digits.length ≤ point.toNat then
    digits ++ List.replicate (point.toNat - digits.length) '0' ++ ['.', '0']
  else digits.take point.toNat ++ '.' :: digits.drop point.toNat

/-- The digits with the point behind the first, and an exponent. -/
def scientific (plus digits : List Char) (point : Int) : List Char :=
  let mantissa :=
    match digits with
    | first :: second :: more => first :: '.' :: second :: more
    | _ => digits
  let exponent := point - 1
  mantissa ++ 'e' :: ((if exponent < 0 then [] else plus) ++ (toString exponent).toList)

/-- A number in the given layout, with the fewest digits. -/
def write (layout : Layout) (negative : Bool) (x : Binary64) : String :=
  let sign := if negative then "-" else ""
  if x.significand = 0 then sign ++ "0.0"
  else
    let p := x.shortest layout.tie
    let (digits, exponent) := trim (Nat.toDigits 10 p.digits).reverse p.exponent
    let point := digits.length + exponent
    sign ++ String.ofList
      (if layout.positional point then placed digits point
       else scientific layout.plus digits point)

/-- Without exponents; a tie goes up. -/
def plain : Layout := ⟨fun _ => true, .up, []⟩

/-- With an exponent, which always has a sign, from ten to the sixteenth on and below a hundred
thousandth; a tie goes to the even digit. -/
def compact : Layout := ⟨fun point => -5 < point && point ≤ 16, .even, ['+']⟩

end Layout

end Wordbook.Decimal
