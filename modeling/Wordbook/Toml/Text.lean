import Wordbook.Text.Hex
import Wordbook.Toml.Space

/-!
# TOML strings

The four forms of a string, how each is read, and which of them a text is written in.

## Main Definitions

* `lexString` — the text of the string at the front of a document
* `Form` — the forms of a string
* `Form.of` — the form that suits a text
* `writeText` — a text as a string

## Design Notes

A text is written without escapes if any form allows it, and on one line if it has only one.  Of the
forms that are left, quotes go before apostrophes.
-/

namespace Wordbook.Toml

/-! ### Reading -/

/-- The character behind a backslash stands for this one. -/
def unescape : Char → Option Char
  | '"' => some '"'
  | '\\' => some '\\'
  | 'b' => some '\x08'
  | 'f' => some '\x0c'
  | 'n' => some '\n'
  | 'r' => some '\r'
  | 't' => some '\t'
  | _ => none

/-- The character with the code point that hexadecimal digits name. -/
def escapedScalar (digits : List Char) : Option Char := (Text.hexNumber digits).bind Text.scalar?

/-- Puts a character before a text that was read, if both are there. -/
def push (c : Option Char) (found : Option (List Char × List Char)) :
    Option (List Char × List Char) :=
  match c, found with
  | some c, some (text, rest) => some (c :: text, rest)
  | _, _ => none

/-- The text up to the closing quote, and what follows the quote. -/
def lexBasic : List Char → Option (List Char × List Char)
  | [] => none
  | '"' :: rest => some ([], rest)
  | '\\' :: 'u' :: a :: b :: c :: d :: rest => push (escapedScalar [a, b, c, d]) (lexBasic rest)
  | '\\' :: 'U' :: a :: b :: c :: d :: e :: f :: g :: h :: rest =>
    push (escapedScalar [a, b, c, d, e, f, g, h]) (lexBasic rest)
  | '\\' :: c :: rest => push (unescape c) (lexBasic rest)
  | c :: rest => if isPlain c && c != '\\' then push (some c) (lexBasic rest) else none

/-- The text up to the closing apostrophe, and what follows the apostrophe. -/
def lexLiteral : List Char → Option (List Char × List Char)
  | [] => none
  | '\'' :: rest => some ([], rest)
  | c :: rest => if isPlain c then push (some c) (lexLiteral rest) else none

/-- A line ends here, but for blanks. -/
def endsLine (cs : List Char) : Bool := (newline? (skipBlanks cs)).isSome

/-- The text up to three closing quotes, and what follows them.  Up to two quotes may stand before
the closing ones.  A backslash at the end of a line takes all space away up to the next character;
`folding` says that this goes on. -/
def lexMultiBasic (folding : Bool) : List Char → Option (List Char × List Char)
  | [] => none
  | '"' :: '"' :: '"' :: '"' :: '"' :: rest => some (['"', '"'], rest)
  | '"' :: '"' :: '"' :: '"' :: rest => some (['"'], rest)
  | '"' :: '"' :: '"' :: rest => some ([], rest)
  | '\n' :: rest =>
    if folding then lexMultiBasic true rest else push (some '\n') (lexMultiBasic false rest)
  | '\r' :: '\n' :: rest =>
    if folding then lexMultiBasic true rest else push (some '\n') (lexMultiBasic false rest)
  | '\\' :: 'u' :: a :: b :: c :: d :: rest =>
    push (escapedScalar [a, b, c, d]) (lexMultiBasic false rest)
  | '\\' :: 'U' :: a :: b :: c :: d :: e :: f :: g :: h :: rest =>
    push (escapedScalar [a, b, c, d, e, f, g, h]) (lexMultiBasic false rest)
  | '\\' :: c :: rest =>
    if endsLine (c :: rest) then lexMultiBasic true (c :: rest)
    else push (unescape c) (lexMultiBasic false rest)
  | c :: rest =>
    if folding && isBlank c then lexMultiBasic true rest
    else if isPlain c && c != '\\' then push (some c) (lexMultiBasic false rest)
    else none

/-- The text up to three closing apostrophes, and what follows them.  Up to two apostrophes may
stand before the closing ones. -/
def lexMultiLiteral : List Char → Option (List Char × List Char)
  | [] => none
  | '\'' :: '\'' :: '\'' :: '\'' :: '\'' :: rest => some (['\'', '\''], rest)
  | '\'' :: '\'' :: '\'' :: '\'' :: rest => some (['\''], rest)
  | '\'' :: '\'' :: '\'' :: rest => some ([], rest)
  | '\n' :: rest => push (some '\n') (lexMultiLiteral rest)
  | '\r' :: '\n' :: rest => push (some '\n') (lexMultiLiteral rest)
  | c :: rest => if isPlain c then push (some c) (lexMultiLiteral rest) else none

/-- A text without the line end before it. -/
def dropNewline (cs : List Char) : List Char := (newline? cs).getD cs

/-- The text of the string of one line at the front of a document, and what follows. -/
def lexLine : List Char → Option (List Char × List Char)
  | '"' :: rest => lexBasic rest
  | '\'' :: rest => lexLiteral rest
  | _ => none

/-- The text of the string at the front of a document, and what follows. -/
def lexString : List Char → Option (List Char × List Char)
  | '"' :: '"' :: '"' :: rest => lexMultiBasic false (dropNewline rest)
  | '\'' :: '\'' :: '\'' :: rest => lexMultiLiteral (dropNewline rest)
  | cs => lexLine cs

/-! ### Writing -/

/-- The forms of a string. -/
inductive Form where
  /-- In quotes, with escapes. -/
  | basic
  /-- In apostrophes, as it stands. -/
  | literal
  /-- In three quotes, with escapes. -/
  | multiBasic
  /-- In three apostrophes, as it stands. -/
  | multiLiteral
deriving DecidableEq, Repr

/-- The length of the longest run of a character in a text that follows a run of `run`. -/
def longestRun (c : Char) (run : Nat) : List Char → Nat
  | [] => run
  | d :: more => if d = c then longestRun c (run + 1) more else max run (longestRun c 0 more)

/-- A control character of ASCII that no form shows as it stands: all but the tab and the line
feed. -/
def isControl (c : Char) : Bool := (c < ' ' && c != '\t' && c != '\n') || c == '\x7f'

namespace Form

/-- The form that suits a text. -/
def of (text : List Char) : Form :=
  let controls := text.any isControl
  let backslash := text.contains '\\'
  let lines := text.contains '\n'
  let quotes := longestRun '"' 0 text
  let apostrophes := longestRun '\'' 0 text
  if !controls && !backslash && quotes = 0 && !lines then basic
  else if !controls && apostrophes = 0 && !lines then literal
  else if !controls && !backslash && quotes ≤ 2 then multiBasic
  else if !controls && apostrophes ≤ 2 then multiLiteral
  else if lines then multiBasic
  else basic

/-- The sign at either end of a string. -/
def delimiter : Form → List Char
  | basic => ['"']
  | literal => ['\'']
  | multiBasic => ['"', '"', '"']
  | multiLiteral => ['\'', '\'', '\'']

/-- What stands between the opening sign and the text: a line end, where it would be taken for part
of the sign. -/
def opening : Form → List Char → List Char
  | multiBasic, text => if text.contains '\n' then ['\n'] else []
  | multiLiteral, text => if text.contains '\n' then ['\n'] else []
  | _, _ => []

end Form

/-- A character other than a quote as it stands in quotes. -/
def escapedChar (multi : Bool) (c : Char) : List Char :=
  match c with
  | '\\' => ['\\', '\\']
  | '\x08' => ['\\', 'b']
  | '\t' => ['\\', 't']
  | '\n' => if multi then ['\n'] else ['\\', 'n']
  | '\x0c' => ['\\', 'f']
  | '\r' => ['\\', 'r']
  | _ => if isControl c then '\\' :: 'u' :: Text.hexFour true c.toNat else [c]

/-- A text as it stands in quotes.  In three quotes, the third of a row of quotes is escaped, and in
one, every quote is; `row` counts the quotes just before. -/
def escapedFrom (multi : Bool) (row : Nat) : List Char → List Char
  | [] => []
  | '"' :: more =>
    if multi && row < 2 then '"' :: escapedFrom multi (row + 1) more
    else '\\' :: '"' :: escapedFrom multi 0 more
  | c :: more => escapedChar multi c ++ escapedFrom multi 0 more

/-- A text between the signs of a form. -/
def body : Form → List Char → List Char
  | .basic, text => escapedFrom false 0 text
  | .multiBasic, text => escapedFrom true 0 text
  | _, text => text

/-- A text as a string. -/
def writeText (text : List Char) : List Char :=
  let form := Form.of text
  form.delimiter ++ form.opening text ++ body form text ++ form.delimiter

end Wordbook.Toml
