/-!
# Painted text

Text that a terminal shows in a style of its own, and the same text where there is no terminal.

## Main Definitions

* `Style` — the styles, named for what they tell the reader
* `Style.paint` — a text in a style
-/

namespace Wordbook

/-- How a text is set off from the text around it. -/
inductive Style where
  /-- The name of the program. -/
  | title
  /-- All is well, or a heading. -/
  | good
  /-- Something to be careful about. -/
  | caution
  /-- Something is wrong. -/
  | alarm
  /-- Something is missing. -/
  | gap
  /-- A text that only suggests. -/
  | faint
deriving DecidableEq, Repr

namespace Style

/-- The numbers by which a terminal knows the style. -/
def codes : Style → String
  | title => "1;94"
  | good => "92"
  | caution => "93"
  | alarm => "91"
  | gap => "33"
  | faint => "2"

/-- What begins text of the style. -/
def start (style : Style) : List Char := '\x1b' :: '[' :: style.codes.toList ++ ['m']

/-- What ends text of any style. -/
def reset : List Char := ['\x1b', '[', '0', 'm']

/-- A text that begins the style again wherever the text itself ends all styles. -/
def resume (style : Style) : List Char → List Char
  | '\x1b' :: '[' :: '0' :: 'm' :: rest => reset ++ style.start ++ style.resume rest
  | c :: rest => c :: style.resume rest
  | [] => []

/-- A text in a style, or the text alone if nothing is coloured. -/
def paint (style : Style) (coloured : Bool) (text : String) : String :=
  if coloured then String.ofList (style.start ++ style.resume text.toList ++ reset) else text

@[simp] theorem resume_nil (style : Style) : style.resume [] = [] := by
  simp [resume]

@[simp] theorem paint_false (style : Style) (text : String) : style.paint false text = text := rfl

end Style

end Wordbook
