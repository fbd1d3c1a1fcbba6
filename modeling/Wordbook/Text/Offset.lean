/-!
# Offsets

A place in a text is named in two ways: by the number of characters before it, and by the number
of bytes before it when the text is written in UTF-8.  This module converts between the two.

## Main Definitions

* `charOffset` — the characters that start before a byte offset
* `byteOffset` — the bytes before a character offset

## Design Notes

Both conversions are total.  A byte offset inside a character counts that character as passed, and
an offset beyond the end, of either kind, is read as the end.
-/

namespace Wordbook.Text

/-- The number of characters of a text that start before the byte offset `b`. -/
def charOffset : List Char → Nat → Nat
  | [], _ => 0
  | c :: rest, b => if b = 0 then 0 else charOffset rest (b - c.utf8Size) + 1

/-- The number of bytes before the character with offset `n`, or of the whole text if there is no
such character. -/
def byteOffset : List Char → Nat → Nat
  | [], _ => 0
  | _ :: _, 0 => 0
  | c :: rest, n + 1 => byteOffset rest n + c.utf8Size

/-- The number of bytes of a text. -/
def byteLength (text : List Char) : Nat :=
  byteOffset text text.length

@[simp] theorem charOffset_nil (b : Nat) : charOffset [] b = 0 := rfl

@[simp] theorem charOffset_zero (text : List Char) : charOffset text 0 = 0 := by
  cases text <;> simp [charOffset]

theorem charOffset_cons (c : Char) (rest : List Char) {b : Nat} (pos : 0 < b) :
    charOffset (c :: rest) b = charOffset rest (b - c.utf8Size) + 1 := by
  simp [charOffset, Nat.pos_iff_ne_zero.mp pos]

@[simp] theorem byteOffset_nil (n : Nat) : byteOffset [] n = 0 := by
  cases n <;> rfl

@[simp] theorem byteOffset_zero (text : List Char) : byteOffset text 0 = 0 := by
  cases text <;> rfl

@[simp] theorem byteOffset_cons_succ (c : Char) (rest : List Char) (n : Nat) :
    byteOffset (c :: rest) (n + 1) = byteOffset rest n + c.utf8Size := rfl

end Wordbook.Text
