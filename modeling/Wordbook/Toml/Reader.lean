import Wordbook.Toml.Value

/-!
# Reading TOML

A TOML document as a row of statements, and the tree that the statements make.

## Main Definitions

* `Statement` — a line of a document that says something
* `statements` — the statements of a document
* `Section` — a header with the entries below it
* `read` — the tree of a document

## Design Notes

A document is refused as a whole if any line of it goes wrong or does not fit the lines before it.
-/

namespace Wordbook.Toml

/-- What a header opens. -/
inductive Header where
  /-- The document itself, before any header. -/
  | root
  /-- A table. -/
  | table (path : List String) (key : String)
  /-- The next of a row of tables. -/
  | element (path : List String) (key : String)
deriving DecidableEq, Repr

/-- A line of a document that says something. -/
inductive Statement where
  /-- A header. -/
  | header (header : Header)
  /-- A key with its value. -/
  | entry (entry : Entry)
deriving Repr

/-- What follows a header or an entry is the end of its line; what comes then. -/
def finishLine (statement : Statement) (cs : List Char) : Option (Option Statement × List Char) :=
  (lineEnd cs).map (fun rest => (some statement, rest))

/-- Reads one line: what it says, if anything, and what follows it. -/
def lexStatement (cs : List Char) : Option (Option Statement × List Char) :=
  match lineEnd cs with
  | some rest => some (none, rest)
  | none =>
    match skipBlanks cs with
    | '[' :: '[' :: rest =>
      match lexKey rest with
      | some (path, key, ']' :: ']' :: rest) => finishLine (.header (.element path key)) rest
      | _ => none
    | '[' :: rest =>
      match lexKey rest with
      | some (path, key, ']' :: rest) => finishLine (.header (.table path key)) rest
      | _ => none
    | start =>
      match lexEntry (lexValue (levels - 1)) start with
      | some (entry, rest) => finishLine (.entry entry) rest
      | none => none

/-- The statements of a document. -/
def statements (cs : List Char) : Option (List Statement) :=
  match cs with
  | [] => some []
  | c :: more =>
    match lexStatement (c :: more) with
    | none => none
    | some (found, rest) =>
      if rest.length < (c :: more).length then
        match statements rest with
        | none => none
        | some later => some (found.toList ++ later)
      else none
termination_by cs.length
decreasing_by assumption

/-- A header with the entries below it. -/
structure Section where
  /-- The header. -/
  header : Header
  /-- The entries. -/
  entries : List Entry
deriving Repr

/-- Statements by headers; the entries before the first one belong to `header`. -/
def sections (header : Header) : List Statement → List Section
  | [] => [⟨header, []⟩]
  | .header next :: more => ⟨header, []⟩ :: sections next more
  | .entry entry :: more =>
    match sections header more with
    | [] => [⟨header, [entry]⟩]
    | first :: later => ⟨first.header, entry :: first.entries⟩ :: later

/-- Adds a section to a document. -/
def addSection (document : Members) (part : Section) : Option Members :=
  match part.header with
  | .root => addEntries document part.entries
  | .table path key => openTable document path key part.entries
  | .element path key => openElement document path key part.entries

/-- The tree that the sections of a document make; none if they do not fit together. -/
def assemble (parts : List Section) : Option Tree :=
  (parts.foldlM addSection []).map (fun document => .table (memberTrees document) true)

/-- A document without the mark of its byte order. -/
def skipMark : List Char → List Char
  | '\ufeff' :: rest => rest
  | cs => cs

/-- The tree of a document; none if the document is not well-formed. -/
def read (text : String) : Option Tree :=
  match statements (skipMark text.toList) with
  | none => none
  | some found => assemble (sections .root found)

@[simp] theorem statements_nil : statements [] = some [] := by
  rw [statements]

@[simp] theorem sections_nil (header : Header) : sections header [] = [⟨header, []⟩] := rfl

@[simp] theorem sections_header (header next : Header) (more : List Statement) :
    sections header (.header next :: more) = ⟨header, []⟩ :: sections next more := rfl

end Wordbook.Toml
