/-!
# Blanks

The white space of Unicode, and texts without it at their ends.

## Main Definitions

* `isBlank` — a character is white space
* `trimLeft`, `trimRight`, `trim` — a text without the blanks at its ends
-/

namespace Wordbook.Text

/-- The character has the property `White_Space`. -/
def isBlank (c : Char) : Bool :=
  let n := c.toNat
  (0x9 ≤ n && n ≤ 0xd) || n == 0x20 || n == 0x85 || n == 0xa0 || n == 0x1680
    || (0x2000 ≤ n && n ≤ 0x200a) || n == 0x2028 || n == 0x2029 || n == 0x202f || n == 0x205f
    || n == 0x3000

/-- A text without the blanks before it. -/
def trimLeft (text : List Char) : List Char := text.dropWhile isBlank

/-- A text without the blanks behind it. -/
def trimRight (text : List Char) : List Char := (trimLeft text.reverse).reverse

/-- A text without the blanks at either end. -/
def trim (text : List Char) : List Char := trimRight (trimLeft text)

end Wordbook.Text
