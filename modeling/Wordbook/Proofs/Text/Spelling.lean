import Mathlib.Algebra.Group.Nat.Defs
import Wordbook.Text.Hex

/-!
# How texts are spelled in documents

What the two notations have in common: characters one after the other, signs and digits.  A control
character is written as the four hexadecimal digits of its code point, and any digits are read as
the number they stand for.

## Main Definitions

* `Spelled` — characters, each spelled in some way
* `SignText` — a sign in front of a number
* `IsHexDigit`, `HexText` — hexadecimal digits and the numbers they stand for

## Main Statements

* `hexNumber_hexFour` — four digits stand for the number they were made from
* `hexNumber_of_hexText` — digits are read as the number they stand for
* `exists_hexText` — a number has digits
* `scalar?_toNat` — the code point of a character stands for that character
-/

namespace Wordbook.Text

/-- The characters of a text one after the other, each spelled in one of the ways that `CharText`
allows. -/
inductive Spelled (CharText : Char → List Char → Prop) : List Char → List Char → Prop
  | nil : Spelled CharText [] []
  | cons {c : Char} {text cs body : List Char} (first : CharText c cs)
    (others : Spelled CharText text body) : Spelled CharText (c :: text) (cs ++ body)

/-- A text is spelled by itself if `CharText` allows each of its characters as it is. -/
theorem spelled_plain {CharText : Char → List Char → Prop} {text : List Char}
    (plain : ∀ c ∈ text, CharText c [c]) : Spelled CharText text text := by
  induction text with
  | nil => exact .nil
  | cons c more ih =>
    rw [List.forall_mem_cons] at plain
    exact .cons plain.1 (ih plain.2)

/-- A sign in front of a number, or none.  The number is negative if the first argument is
`true`. -/
inductive SignText : Bool → List Char → Prop
  | absent : SignText false []
  | plus : SignText false ['+']
  | minus : SignText true ['-']

/-! ### Hexadecimal digits -/

/-- The digit `hexDigit upper d` has the value `d`, in either case. -/
theorem hexValue_hexDigit : ∀ (upper : Bool) (d : Nat), d < 16 →
    hexValue (hexDigit upper d) = some d := by
  decide

/-- The four digits `hexFour upper n` stand for `n`, which is below 65536. -/
theorem hexNumber_hexFour (upper : Bool) {n : Nat} (small : n < 65536) :
    hexNumber (hexFour upper n) = some n := by
  have digit : ∀ m, hexValue (hexDigit upper (m % 16)) = some (m % 16) := by
    intro m
    exact hexValue_hexDigit upper (m % 16) (Nat.mod_lt m (by decide))
  simp only [hexNumber, hexFour, List.foldlM_cons, List.foldlM_nil, digit, Option.map_some,
    Option.bind_eq_bind, Option.bind_some, Option.pure_def, Option.some.injEq]
  omega

/-- The code point of a character stands for that character. -/
theorem scalar?_toNat (c : Char) : scalar? c.toNat = some c := by
  have valid : c.toNat.isValidChar := c.valid
  rw [scalar?, dif_pos valid]
  rfl

/-- The character `c` is a hexadecimal digit of value `d`, in either case. -/
def IsHexDigit (d : Nat) (c : Char) : Prop :=
  "0123456789abcdef".toList[d]? = some c ∨ "0123456789ABCDEF".toList[d]? = some c

/-- Hexadecimal digits of a number, the greatest place first. -/
inductive HexText : Nat → List Char → Prop
  | nil : HexText 0 []
  | snoc {n d : Nat} {c : Char} {digits : List Char} (front : HexText n digits)
    (last : IsHexDigit d c) : HexText (16 * n + d) (digits ++ [c])

/-- A hexadecimal digit has its value by `hexValue`. -/
theorem hexValue_of_isHexDigit {d : Nat} {c : Char} (is : IsHexDigit d c) :
    hexValue c = some d := by
  have known : ∀ upper : Bool, ∀ e < 16, ((if upper then "0123456789ABCDEF"
      else "0123456789abcdef").toList[e]?).bind hexValue = some e := by decide
  rcases is with there | there
  · have found := known false d (List.getElem?_eq_some_iff.mp there).1
    rwa [if_neg Bool.false_ne_true, there, Option.bind_some] at found
  · have found := known true d (List.getElem?_eq_some_iff.mp there).1
    rwa [if_pos rfl, there, Option.bind_some] at found

/-- Digits are read by `hexNumber` as the number they stand for. -/
theorem hexNumber_of_hexText {n : Nat} {digits : List Char} (spelled : HexText n digits) :
    hexNumber digits = some n := by
  induction spelled with
  | nil => rfl
  | snoc _ last ih =>
    rw [hexNumber] at ih ⊢
    simp only [List.foldlM_append, ih, List.foldlM_cons, List.foldlM_nil,
      hexValue_of_isHexDigit last, Option.bind_eq_bind, Option.bind_some, Option.map_some,
      Option.pure_def]

/-- A number below `16 ^ places` has hexadecimal digits for so many places. -/
theorem exists_hexText (places n : Nat) (small : n < 16 ^ places) :
    ∃ digits, digits.length = places ∧ HexText n digits := by
  induction places generalizing n with
  | zero =>
    obtain rfl : n = 0 := Nat.lt_one_iff.mp small
    exact ⟨[], rfl, .nil⟩
  | succ places ih =>
    rw [Nat.pow_succ, Nat.mul_comm] at small
    obtain ⟨digits, length, front⟩ := ih (n / 16) (Nat.div_lt_of_lt_mul small)
    have inside : n % 16 < "0123456789abcdef".toList.length := Nat.mod_lt n (by decide)
    have last := front.snoc (Or.inl (List.getElem?_eq_getElem inside))
    rw [Nat.div_add_mod] at last
    exact ⟨_, by rw [List.length_append, length, List.length_singleton], last⟩

end Wordbook.Text
