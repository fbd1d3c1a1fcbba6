import Wordbook.Decimal.Shortest
import Wordbook.Tree

/-!
# JSON numbers

The form of a number, and the value it stands for.

## Main Definitions

* `Literal` — the parts of a number as it is written
* `Literal.lex` — the number at the front of a text
* `Literal.tree` — the value of a number

## Design Notes

A number without fraction and exponent is a whole number while it fits into 64 bits.  All others are
kept in double precision, computed the quick way: the leading digits that fit into 64 bits are
rounded to a double, and that is multiplied or divided by a power of ten, itself rounded.  So the
last digit may differ from the nearest double's.
-/

namespace Wordbook.Json

open Wordbook.Decimal

/-- The parts of a number as it is written. -/
structure Literal where
  /-- A minus sign stands in front. -/
  negative : Bool
  /-- The digits before the point. -/
  whole : List Char
  /-- The digits behind the point; none if there is no point. -/
  fraction : List Char
  /-- The sign of the exponent, negative if set, and its digits. -/
  exponent : Option (Bool × List Char)
deriving DecidableEq, Repr

/-- The digits at the front of a text, and what follows. -/
def lexDigits (cs : List Char) : List Char × List Char :=
  (cs.takeWhile Char.isDigit, cs.dropWhile Char.isDigit)

/-- The digits before the point: a nought, or any digits that do not begin with one. -/
def lexWhole (cs : List Char) : Option (List Char × List Char) :=
  match lexDigits cs with
  | ([], _) => none
  | ('0' :: _ :: _, _) => none
  | (digits, rest) => some (digits, rest)

/-- The digits behind the point, if there is one. -/
def lexFraction (cs : List Char) : Option (List Char × List Char) :=
  match cs with
  | '.' :: more =>
    match lexDigits more with
    | ([], _) => none
    | (digits, rest) => some (digits, rest)
  | _ => some ([], cs)

/-- The sign at the front of an exponent, negative if set. -/
def lexSign (cs : List Char) : Bool × List Char :=
  match cs with
  | '+' :: rest => (false, rest)
  | '-' :: rest => (true, rest)
  | _ => (false, cs)

/-- The exponent, if there is one. -/
def lexExponent (cs : List Char) : Option (Option (Bool × List Char) × List Char) :=
  match cs with
  | c :: more =>
    if c = 'e' ∨ c = 'E' then
      match lexDigits (lexSign more).2 with
      | ([], _) => none
      | (digits, rest) => some (some ((lexSign more).1, digits), rest)
    else some (none, cs)
  | [] => some (none, cs)

namespace Literal

/-- The unsigned number at the front of a text, and what follows. -/
def lexUnsigned (negative : Bool) (cs : List Char) : Option (Literal × List Char) := do
  let (whole, rest) ← lexWhole cs
  let (fraction, rest) ← lexFraction rest
  let (exponent, rest) ← lexExponent rest
  some (⟨negative, whole, fraction, exponent⟩, rest)

/-- The number at the front of a text, and what follows. -/
def lex (cs : List Char) : Option (Literal × List Char) :=
  match cs with
  | '-' :: rest => lexUnsigned true rest
  | _ => lexUnsigned false cs

/-- The greatest number that fits into 64 bits. -/
def greatest : Nat := Nat.pow 2 64 - 1

/-- The value of a digit. -/
def digitValue (c : Char) : Nat := c.toNat - '0'.toNat

/-- The number that digits stand for. -/
def natural (digits : List Char) : Nat := digits.foldl (fun n c => 10 * n + digitValue c) 0

/-- Appends digits to a number while it fits into 64 bits.  Gives the number and how many digits
were left over. -/
def gather : Nat → List Char → Nat × Nat
  | n, [] => (n, 0)
  | n, c :: more =>
    if 10 * n + digitValue c ≤ greatest then gather (10 * n + digitValue c) more
    else (n, more.length + 1)

/-- The greatest power of ten that is in range. -/
def farthest : Nat := 308

/-- Ten to a power, rounded. -/
def powerOfTen (n : Nat) : Binary64 := (Binary64.ofRatio? (.ofNat (Nat.pow 10 n))).getD .zero

/-- A number divided so many times by the greatest power of ten in range. -/
def lowerFar : Nat → Binary64 → Option Binary64
  | 0, x => some x
  | steps + 1, x =>
    if x.significand = 0 then some x else (x.div? (powerOfTen farthest)).bind (lowerFar steps)

/-- A number divided by ten to a power.  Powers out of range are taken in steps. -/
def lower (x : Binary64) (n : Nat) : Option Binary64 :=
  (lowerFar (n / farthest) x).bind (fun y => y.div? (powerOfTen (n % farthest)))

/-- A number times ten to a power; none if that is out of range. -/
def raise (x : Binary64) (n : Nat) : Option Binary64 :=
  if x.significand = 0 then some x
  else if n ≤ farthest then x.mul? (powerOfTen n)
  else none

/-- The magnitude of a number in double precision; none if it is out of range. -/
def magnitude (l : Literal) : Option Binary64 :=
  let (start, dropped) := gather 0 l.whole
  let (digits, unread) := gather start l.fraction
  let behind : Int := (l.fraction.length : Int) - unread
  let written : Int :=
    match l.exponent with
    | none => 0
    | some (negative, digits) => if negative then -(natural digits : Int) else natural digits
  let exponent := dropped - behind + written
  match Binary64.ofRatio? (.ofNat digits) with
  | none => none
  | some x => if 0 ≤ exponent then raise x exponent.toNat else lower x (-exponent).toNat

/-- The number is written without point and exponent. -/
def isWhole (l : Literal) : Bool := l.fraction.isEmpty && l.exponent.isNone

/-- The value of a number that is written without point and exponent, if it fits into 64 bits.  A
nought with a sign does not. -/
def integer? (l : Literal) : Option Int :=
  let n := natural l.whole
  if !l.isWhole then none
  else if l.negative then if 0 < n && n ≤ Nat.pow 2 63 then some (-(n : Int)) else none
  else if n ≤ greatest then some n else none

/-- The value of a number.  A number out of range stands for no value. -/
def tree (l : Literal) : Tree :=
  match l.integer? with
  | some n => .integer n
  | none =>
    match l.magnitude with
    | none => .unreadable
    | some x => .float (Layout.compact.write l.negative x)

end Literal

/-! ### What follows is shorter -/

theorem length_lexDigits (cs : List Char) :
    (lexDigits cs).1.length + (lexDigits cs).2.length = cs.length := by
  rw [← List.length_append]
  simp only [lexDigits, List.takeWhile_append_dropWhile]

theorem length_lt_of_lexWhole {cs digits rest : List Char}
    (h : lexWhole cs = some (digits, rest)) : rest.length < cs.length := by
  have total := length_lexDigits cs
  unfold lexWhole at h
  split at h
  · simp at h
  · simp at h
  · rename_i found left nonempty _ eq
    simp only [Option.some.injEq, Prod.mk.injEq] at h
    obtain ⟨rfl, rfl⟩ := h
    have positive : found.length ≠ 0 := fun zero => nonempty (List.length_eq_zero_iff.mp zero)
    rw [eq] at total
    simp only at total
    omega

theorem length_le_of_lexFraction {cs digits rest : List Char}
    (h : lexFraction cs = some (digits, rest)) : rest.length ≤ cs.length := by
  unfold lexFraction at h
  split at h
  · rename_i more
    have split := length_lexDigits more
    split at h
    · simp at h
    · rename_i eq
      simp only [Option.some.injEq, Prod.mk.injEq] at h
      obtain ⟨rfl, rfl⟩ := h
      simp only [eq] at split
      simp only [List.length_cons]
      omega
  · simp_all

theorem length_lexSign (cs : List Char) : (lexSign cs).2.length ≤ cs.length := by
  unfold lexSign
  split <;> simp

theorem length_le_of_lexExponent {cs rest : List Char} {exponent : Option (Bool × List Char)}
    (h : lexExponent cs = some (exponent, rest)) : rest.length ≤ cs.length := by
  unfold lexExponent at h
  split at h
  · rename_i c more
    have sign := length_lexSign more
    have split := length_lexDigits (lexSign more).2
    split at h
    · split at h
      · simp at h
      · rename_i eq
        simp only [Option.some.injEq, Prod.mk.injEq] at h
        obtain ⟨-, rfl⟩ := h
        simp only [eq] at split
        simp only [List.length_cons]
        omega
    · simp_all
  · simp_all

theorem Literal.length_lt_of_lexUnsigned {negative : Bool} {cs rest : List Char} {l : Literal}
    (h : lexUnsigned negative cs = some (l, rest)) : rest.length < cs.length := by
  simp only [lexUnsigned, Option.bind_eq_bind, Option.bind_eq_some_iff, Prod.exists] at h
  obtain ⟨_, _, whole, _, _, fraction, _, _, exponent, h⟩ := h
  simp only [Option.some.injEq, Prod.mk.injEq] at h
  obtain ⟨-, rfl⟩ := h
  have := length_lt_of_lexWhole whole
  have := length_le_of_lexFraction fraction
  have := length_le_of_lexExponent exponent
  omega

/-- What follows a number is shorter than the number with what follows it. -/
theorem Literal.length_lt_of_lex {cs rest : List Char} {l : Literal}
    (h : lex cs = some (l, rest)) : rest.length < cs.length := by
  unfold lex at h
  split at h
  · have := length_lt_of_lexUnsigned h
    simp only [List.length_cons]
    omega
  · exact length_lt_of_lexUnsigned h

end Wordbook.Json
