import Wordbook.Proofs.Text.Spelling
import Wordbook.Proofs.Toml.Layout

/-!
# The grammar of TOML

Which TOML documents denote a datum, said without any reader.

## Main Definitions

* `SpaceText` — blanks, comments and line ends
* `StringText`, `KeyText`, `IntegerText` — strings, dotted keys and whole numbers
* `ValueText` — the text of a value
* `Line`, `DocumentText` — the lines of a document
* `Denotes` — a document denotes a datum

## Design Notes

The data are those that documents without dates and without fractions denote: tables, lists, texts,
truth values and whole numbers that fit into 64 bits.

Values may be nested to any depth, and keys may have any number of parts.  The grammar counts both:
`limit` is what a document keeps to.

In a string of several lines a backslash at the end of a line takes away all white space up to the
next character, so a text is spelled only if that is no white space.  For the same reason a string
that begins with a line end has one more, which does not count.
-/

namespace Wordbook.Toml

open Wordbook.Text

/-! ### Space -/

/-- Spaces and tabs, or nothing. -/
def AreBlanks (cs : List Char) : Prop := ∀ c ∈ cs, c = ' ' ∨ c = '\t'

/-- The end of a line. -/
def IsNewline (cs : List Char) : Prop := cs = ['\n'] ∨ cs = ['\r', '\n']

/-- A character that comments and strings may show: a tab, or any that is no control character. -/
def IsShown (c : Char) : Prop := c = '\t' ∨ (' ' ≤ c ∧ c ≠ '\x7f')

/-- A comment, or nothing. -/
inductive CommentText : List Char → Prop
  | absent : CommentText []
  | present {cs : List Char} (shown : ∀ c ∈ cs, IsShown c) : CommentText ('#' :: cs)

/-- Blanks and line ends, or nothing. -/
inductive WhiteText : List Char → Prop
  | nil : WhiteText []
  | blank {c : Char} {cs : List Char} (isBlank : c = ' ' ∨ c = '\t') (others : WhiteText cs) :
    WhiteText (c :: cs)
  | line {newline cs : List Char} (ends : IsNewline newline) (others : WhiteText cs) :
    WhiteText (newline ++ cs)

/-- Blanks, comments and line ends, or nothing.  A comment has the end of its line. -/
inductive SpaceText : List Char → Prop
  | nil : SpaceText []
  | blank {c : Char} {cs : List Char} (isBlank : c = ' ' ∨ c = '\t') (others : SpaceText cs) :
    SpaceText (c :: cs)
  | line {comment newline cs : List Char} (noted : CommentText comment) (ends : IsNewline newline)
    (others : SpaceText cs) : SpaceText (comment ++ newline ++ cs)

/-! ### Strings -/

/-- The letters behind a backslash, and the characters they stand for. -/
def shortEscapes : List (Char × Char) :=
  [('"', '"'), ('\\', '\\'), ('b', '\x08'), ('f', '\x0c'), ('n', '\n'), ('r', '\r'), ('t', '\t')]

/-- A character behind a backslash, by a letter or by its code point. -/
inductive EscapeText : Char → List Char → Prop
  | short {e c : Char} (known : (e, c) ∈ shortEscapes) : EscapeText c ['\\', e]
  | four {c : Char} {digits : List Char} (length : digits.length = 4)
    (names : HexText c.toNat digits) : EscapeText c ('\\' :: 'u' :: digits)
  | eight {c : Char} {digits : List Char} (length : digits.length = 8)
    (names : HexText c.toNat digits) : EscapeText c ('\\' :: 'U' :: digits)

/-- A character in quotes. -/
inductive QuotedText : Char → List Char → Prop
  | plain {c : Char} (shown : IsShown c) (noQuote : c ≠ '"') (noBackslash : c ≠ '\\') :
    QuotedText c [c]
  | escape {c : Char} {cs : List Char} (escaped : EscapeText c cs) : QuotedText c cs

/-- A text on one line, in quotes or in apostrophes. -/
inductive LineStringText : String → List Char → Prop
  | basic {s : String} {body : List Char} (spelled : Spelled QuotedText s.toList body) :
    LineStringText s ('"' :: body ++ ['"'])
  | literal {s : String} (shown : ∀ c ∈ s.toList, IsShown c ∧ c ≠ '\'') :
    LineStringText s ('\'' :: s.toList ++ ['\''])

/-- A text without quotes, backslashes and control characters is spelled as it stands. -/
theorem lineStringText_plain (s : String)
    (plain : ∀ c ∈ s.toList, ' ' ≤ c ∧ c ≠ '\x7f' ∧ c ≠ '"' ∧ c ≠ '\\') :
    LineStringText s ('"' :: s.toList ++ ['"']) := by
  refine .basic (spelled_plain (fun c member => ?_))
  obtain ⟨visible, noDelete, noQuote, noBackslash⟩ := plain c member
  exact .plain (Or.inr ⟨visible, noDelete⟩) noQuote noBackslash

/-- A text in three quotes that begins with `n` quotes.  No more than two may stand in a row. -/
inductive MultiBasicText : Nat → List Char → List Char → Prop
  | nil : MultiBasicText 0 [] []
  | quote {n : Nat} {text body : List Char} (short : n < 2) (others : MultiBasicText n text body) :
    MultiBasicText (n + 1) ('"' :: text) ('"' :: body)
  | char {n : Nat} {c : Char} {text cs body : List Char} (spelled : QuotedText c cs)
    (others : MultiBasicText n text body) : MultiBasicText 0 (c :: text) (cs ++ body)
  | line {n : Nat} {text newline body : List Char} (ends : IsNewline newline)
    (others : MultiBasicText n text body) : MultiBasicText 0 ('\n' :: text) (newline ++ body)
  | fold {n : Nat} {text blanks newline white body : List Char} (areBlanks : AreBlanks blanks)
    (ends : IsNewline newline) (isWhite : WhiteText white)
    (visible : ∀ c ∈ body.head?, c ≠ ' ' ∧ c ≠ '\t' ∧ c ≠ '\n' ∧ c ≠ '\r')
    (others : MultiBasicText n text body) :
    MultiBasicText 0 text ('\\' :: blanks ++ newline ++ white ++ body)

/-- A text in three apostrophes that begins with `n` apostrophes.  No more than two may stand in a
row. -/
inductive MultiLiteralText : Nat → List Char → List Char → Prop
  | nil : MultiLiteralText 0 [] []
  | apostrophe {n : Nat} {text body : List Char} (short : n < 2)
    (others : MultiLiteralText n text body) :
    MultiLiteralText (n + 1) ('\'' :: text) ('\'' :: body)
  | char {n : Nat} {c : Char} {text body : List Char} (shown : IsShown c) (noSign : c ≠ '\'')
    (others : MultiLiteralText n text body) : MultiLiteralText 0 (c :: text) (c :: body)
  | line {n : Nat} {text newline body : List Char} (ends : IsNewline newline)
    (others : MultiLiteralText n text body) : MultiLiteralText 0 ('\n' :: text) (newline ++ body)

/-- What stands before the text of a string of several lines: a line end, or nothing if `body` does
not begin with one. -/
def OpensLines (opening body : List Char) : Prop :=
  IsNewline opening ∨ (opening = [] ∧ ∀ c ∈ body.head?, c ≠ '\n' ∧ c ≠ '\r')

/-- A text in one of the four forms of a string. -/
inductive StringText : String → List Char → Prop
  | line {s : String} {cs : List Char} (spelled : LineStringText s cs) : StringText s cs
  | multiBasic {s : String} {n : Nat} {opening body : List Char} (opens : OpensLines opening body)
    (spelled : MultiBasicText n s.toList body) :
    StringText s ('"' :: '"' :: '"' :: (opening ++ body) ++ ['"', '"', '"'])
  | multiLiteral {s : String} {n : Nat} {opening body : List Char}
    (opens : OpensLines opening body) (spelled : MultiLiteralText n s.toList body) :
    StringText s ('\'' :: '\'' :: '\'' :: (opening ++ body) ++ ['\'', '\'', '\''])

/-! ### Keys -/

/-- A part of a key: letters, digits, underscores and hyphens, or a string of one line. -/
inductive PartText : String → List Char → Prop
  | bare {s : String} (some : s.toList ≠ [])
    (bare : ∀ c ∈ s.toList, c.isAlphanum = true ∨ c = '_' ∨ c = '-') : PartText s s.toList
  | quoted {s : String} {cs : List Char} (spelled : LineStringText s cs) : PartText s cs

/-- The parts of a key, with points between them. -/
inductive KeyText : List String → List Char → Prop
  | one {part : String} {cs : List Char} (spelled : PartText part cs) : KeyText [part] cs
  | more {part : String} {parts : List String} {cs before behind ds : List Char}
    (spelled : PartText part cs) (opens : AreBlanks before) (closes : AreBlanks behind)
    (others : KeyText parts ds) : KeyText (part :: parts) (cs ++ before ++ '.' :: (behind ++ ds))

/-! ### Whole numbers -/

/-- Characters of which `IsDigit` holds, where single underscores may stand between two. -/
inductive GroupedText (IsDigit : Char → Prop) : List Char → List Char → Prop
  | one {c : Char} (digit : IsDigit c) : GroupedText IsDigit [c] [c]
  | more {c : Char} {digits cs : List Char} (digit : IsDigit c)
    (others : GroupedText IsDigit digits cs) : GroupedText IsDigit (c :: digits) (c :: cs)
  | apart {c : Char} {digits cs : List Char} (digit : IsDigit c)
    (others : GroupedText IsDigit digits cs) : GroupedText IsDigit (c :: digits) (c :: '_' :: cs)

/-- A whole number, in decimal digits without a nought before others, or in another base. -/
inductive IntegerText : Int → List Char → Prop
  | decimal {negative : Bool} {sign digits cs : List Char} (signed : SignText negative sign)
    (grouped : GroupedText (fun c => c.isDigit = true) digits cs)
    (nought : digits.head? = some '0' → digits = ['0']) :
    IntegerText ((if negative then -1 else 1) * Nat.ofDigitChars 10 digits 0) (sign ++ cs)
  | hexadecimal {n : Nat} {digits cs : List Char} (names : HexText n digits)
    (grouped : GroupedText (fun c => ∃ d, IsHexDigit d c) digits cs) :
    IntegerText n ('0' :: 'x' :: cs)
  | octal {digits cs : List Char}
    (grouped : GroupedText (fun c => '0' ≤ c ∧ c ≤ '7') digits cs) :
    IntegerText (Nat.ofDigitChars 8 digits 0) ('0' :: 'o' :: cs)
  | binary {digits cs : List Char} (grouped : GroupedText (fun c => c = '0' ∨ c = '1') digits cs) :
    IntegerText (Nat.ofDigitChars 2 digits 0) ('0' :: 'b' :: cs)

/-- The number fits into 64 bits with its sign. -/
def Fits (n : Int) : Prop := -9223372036854775808 ≤ n ∧ n < 9223372036854775808

/-! ### Values -/

mutual

/-- The characters spell the value, in which no more than `depth` levels are nested and no key has
more than `limit` parts. -/
inductive ValueText (limit : Nat) : Nat → Datum → List Char → Prop
  | text {depth : Nat} {s : String} {cs : List Char} (spelled : StringText s cs) :
    ValueText limit depth (.text s) cs
  | integer {depth : Nat} {n : Int} {cs : List Char} (spelled : IntegerText n cs) (fits : Fits n) :
    ValueText limit depth (.number n) cs
  | yes {depth : Nat} : ValueText limit depth (.bool true) "true".toList
  | no {depth : Nat} : ValueText limit depth (.bool false) "false".toList
  | list {depth : Nat} {items : List Datum} {cs : List Char}
    (spelled : ItemsText limit depth items cs) :
    ValueText limit (depth + 1) (.list items) ('[' :: cs ++ [']'])
  | emptyTable {depth : Nat} {gap : List Char} (areBlanks : AreBlanks gap) :
    ValueText limit (depth + 1) (.table []) ('{' :: gap ++ ['}'])
  | table {depth : Nat} {entries : List (List String × Datum)} {members : List (String × Datum)}
    {cs : List Char} (spelled : EntriesText limit depth entries cs)
    (made : Makes (entries.map Piece.ofEntry) members) :
    ValueText limit (depth + 1) (.table members) ('{' :: cs ++ ['}'])

/-- The text spells items of a list, with commas between them and maybe behind the last one. -/
inductive ItemsText (limit : Nat) : Nat → List Datum → List Char → Prop
  | nil {depth : Nat} {gap : List Char} (isSpace : SpaceText gap) : ItemsText limit depth [] gap
  | last {depth : Nat} {v : Datum} {before cs behind : List Char} (opens : SpaceText before)
    (spelled : ValueText limit depth v cs) (closes : SpaceText behind) :
    ItemsText limit depth [v] (before ++ cs ++ behind)
  | more {depth : Nat} {v : Datum} {items : List Datum} {before cs behind ds : List Char}
    (opens : SpaceText before) (spelled : ValueText limit depth v cs) (closes : SpaceText behind)
    (others : ItemsText limit depth items ds) :
    ItemsText limit depth (v :: items) (before ++ cs ++ behind ++ ',' :: ds)

/-- The characters spell a key and its value. -/
inductive EntryText (limit : Nat) : Nat → List String × Datum → List Char → Prop
  | mk {depth : Nat} {keys : List String} {v : Datum} {name before behind cs : List Char}
    (named : KeyText keys name) (short : keys.length ≤ limit) (opens : AreBlanks before)
    (closes : AreBlanks behind) (spelled : ValueText limit depth v cs) :
    EntryText limit depth (keys, v) (name ++ before ++ '=' :: (behind ++ cs))

/-- The characters spell entries, at least one, with commas between them. -/
inductive EntriesText (limit : Nat) : Nat → List (List String × Datum) → List Char → Prop
  | last {depth : Nat} {entry : List String × Datum} {before cs behind : List Char}
    (opens : AreBlanks before) (spelled : EntryText limit depth entry cs)
    (closes : AreBlanks behind) : EntriesText limit depth [entry] (before ++ cs ++ behind)
  | more {depth : Nat} {entry : List String × Datum} {entries : List (List String × Datum)}
    {before cs behind ds : List Char} (opens : AreBlanks before)
    (spelled : EntryText limit depth entry cs) (closes : AreBlanks behind)
    (others : EntriesText limit depth entries ds) :
    EntriesText limit depth (entry :: entries) (before ++ cs ++ behind ++ ',' :: ds)

end

/-! ### Documents -/

/-- What a line of a document says. -/
inductive Line where
  /-- Nothing. -/
  | blank
  /-- A key has a value. -/
  | entry (entry : List String × Datum)
  /-- A table begins here. -/
  | table (keys : List String)
  /-- The next of a row of tables begins here. -/
  | element (keys : List String)

/-- The text of a line, without its end. -/
inductive LineText (limit : Nat) : Line → List Char → Prop
  | blank {before comment : List Char} (opens : AreBlanks before) (noted : CommentText comment) :
    LineText limit .blank (before ++ comment)
  | entry {entry : List String × Datum} {before cs behind comment : List Char}
    (opens : AreBlanks before) (spelled : EntryText limit limit entry cs)
    (closes : AreBlanks behind) (noted : CommentText comment) :
    LineText limit (.entry entry) (before ++ cs ++ behind ++ comment)
  | table {keys : List String} {before inside name after behind comment : List Char}
    (opens : AreBlanks before) (parts : AreBlanks inside) (named : KeyText keys name)
    (short : keys.length ≤ limit) (ends : AreBlanks after) (closes : AreBlanks behind)
    (noted : CommentText comment) :
    LineText limit (.table keys)
      (before ++ '[' :: (inside ++ name ++ after ++ ']' :: (behind ++ comment)))
  | element {keys : List String} {before inside name after behind comment : List Char}
    (opens : AreBlanks before) (parts : AreBlanks inside) (named : KeyText keys name)
    (short : keys.length ≤ limit) (ends : AreBlanks after) (closes : AreBlanks behind)
    (noted : CommentText comment) :
    LineText limit (.element keys)
      (before ++ '[' :: '[' :: (inside ++ name ++ after ++ ']' :: ']' :: (behind ++ comment)))

/-- The text of a document, line by line. -/
inductive DocumentText (limit : Nat) : List Line → List Char → Prop
  | last {line : Line} {cs : List Char} (spelled : LineText limit line cs) :
    DocumentText limit [line] cs
  | more {line : Line} {lines : List Line} {cs newline ds : List Char}
    (spelled : LineText limit line cs) (ends : IsNewline newline)
    (others : DocumentText limit lines ds) :
    DocumentText limit (line :: lines) (cs ++ newline ++ ds)

/-- The entries before the first header, and the headers with the entries below them. -/
def gather : List Line → List (List String × Datum) × List Piece
  | [] => ([], [])
  | .blank :: more => gather more
  | .entry entry :: more => (entry :: (gather more).1, (gather more).2)
  | .table keys :: more => ([], ⟨keys, .table (gather more).1⟩ :: (gather more).2)
  | .element keys :: more => ([], ⟨keys, .element (gather more).1⟩ :: (gather more).2)

/-- The `text` denotes the datum `v`, and it keeps to the `limit` for the levels of its values and
the parts of its keys. -/
def Denotes (limit : Nat) (text : String) (v : Datum) : Prop :=
  ∃ lines members, DocumentText limit lines text.toList
    ∧ Makes ((gather lines).1.map Piece.ofEntry ++ (gather lines).2) members ∧ v = .table members

end Wordbook.Toml
