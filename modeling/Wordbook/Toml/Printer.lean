import Wordbook.Toml.Text

/-!
# Writing TOML

A TOML document of texts, lists of texts and rows of tables.

## Main Definitions

* `Content` — what is written behind a key
* `Block` — a table of a row, with its entries
* `writeBlocks` — the text of a document

## Design Notes

A list of up to one text stands on the line of its key.  A longer one has a line for each text, four
spaces in, and a comma behind each.
-/

namespace Wordbook.Toml

/-- What is written behind a key. -/
inductive Content where
  /-- A text. -/
  | text (s : String)
  /-- A list of texts. -/
  | texts (items : List String)
deriving DecidableEq, Repr

/-- Entries under the header of a row of tables, or before any header if there is no path. -/
structure Block where
  /-- The path of the row of tables. -/
  path : List String
  /-- The entries of the table. -/
  entries : List (String × Content)
deriving DecidableEq, Repr

namespace Content

/-- An item of a list that has a line for each. -/
def itemLine (s : String) : List Char :=
  "    ".toList ++ writeText s.toList ++ [',', '\n']

/-- What stands behind the sign of equality. -/
def write : Content → List Char
  | text s => writeText s.toList
  | texts [] => ['[', ']']
  | texts [s] => '[' :: writeText s.toList ++ [']']
  | texts items => '[' :: '\n' :: items.flatMap itemLine ++ [']']

end Content

namespace Block

/-- A line of an entry. -/
def entryLine (entry : String × Content) : List Char :=
  entry.1.toList ++ " = ".toList ++ entry.2.write ++ ['\n']

/-- The line of a header, after an empty line. -/
def headerLine (path : List String) : List Char :=
  if path.isEmpty then []
  else "\n[[".toList ++ (".".intercalate path).toList ++ "]]\n".toList

/-- The text of a block. -/
def write (block : Block) : List Char := headerLine block.path ++ block.entries.flatMap entryLine

end Block

/-- The text of a document. -/
def writeBlocks (blocks : List Block) : String := String.ofList (blocks.flatMap Block.write)

end Wordbook.Toml
