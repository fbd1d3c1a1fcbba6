/-!
# Space in TOML

The characters of a TOML document, and what may stand between its parts: blanks, comments and the
ends of lines.

## Main Definitions

* `isBlank`, `isPlain`, `isBareKey` — classes of characters
* `skipBlanks` — a text without the blanks before it
* `skipSpace` — a text without the blanks, comments and line ends before it
* `lineEnd` — what follows the rest of a line that holds no more
-/

namespace Wordbook.Toml

/-- A space or a tab. -/
def isBlank (c : Char) : Bool := c == ' ' || c == '\t'

/-- A character that may stand in comments and strings: a tab, or any that is no control character
of ASCII. -/
def isPlain (c : Char) : Bool := c == '\t' || (' ' ≤ c && c != '\x7f')

/-- A character that a key may have without quotes. -/
def isBareKey (c : Char) : Bool := c.isAlphanum || c == '_' || c == '-'

/-- A text without the blanks before it. -/
def skipBlanks (cs : List Char) : List Char := cs.dropWhile isBlank

/-- What follows the end of a line, a line feed alone or behind a carriage return. -/
def newline? : List Char → Option (List Char)
  | '\n' :: rest => some rest
  | '\r' :: '\n' :: rest => some rest
  | _ => none

/-- A text without the comment before it. -/
def skipComment : List Char → List Char
  | '#' :: rest => rest.dropWhile isPlain
  | cs => cs

/-- What follows a line of which only blanks and a comment are left. -/
def lineEnd (cs : List Char) : Option (List Char) :=
  match skipComment (skipBlanks cs) with
  | [] => some []
  | rest => newline? rest

/-- A text without the blanks, comments and line ends before it.  `comment` says that it begins
inside of a comment. -/
def skipSpaceFrom (comment : Bool) : List Char → List Char
  | [] => []
  | '\r' :: '\n' :: rest => skipSpaceFrom false rest
  | c :: rest =>
    if comment && isPlain c then skipSpaceFrom true rest
    else if isBlank c || c == '\n' then skipSpaceFrom false rest
    else if c == '#' then skipSpaceFrom true rest
    else c :: rest

/-- A text without the blanks, comments and line ends before it. -/
def skipSpace (cs : List Char) : List Char := skipSpaceFrom false cs

@[simp] theorem skipBlanks_nil : skipBlanks [] = [] := rfl

@[simp] theorem lineEnd_newline (rest : List Char) : lineEnd ('\n' :: rest) = some rest := by
  simp [lineEnd, skipBlanks, skipComment, newline?, isBlank]

end Wordbook.Toml
