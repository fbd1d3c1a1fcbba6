import Wordbook.Proofs.Toml.Value
import Wordbook.Toml.Reader

/-!
# TOML documents read back line by line

The lines that the printer writes for blocks are read as the headers and entries of the blocks, and
these fall into one section for each block.

## Main Definitions

* `Block.IsBare` — all keys of a block can be written without quotes
* `Block.statements` — what the lines of a block say
* `Block.part` — a block as the section of a document

## Main Statements

* `statements_flatMap_write` — the lines of blocks say what the blocks say
* `sections_flatMap_statements` — what blocks say falls into their sections
-/

namespace Wordbook.Toml

/-! ### Lines -/

/-- Where `lexStatement` reads a line, `statements` goes on with the lines behind it. -/
theorem statements_of_lexStatement {cs rest : List Char} {found : Option Statement}
    (line : lexStatement cs = some (found, rest)) (shorter : rest.length < cs.length) :
    statements cs = (statements rest).map (fun later => found.toList ++ later) := by
  cases cs with
  | nil => cases shorter
  | cons c more =>
    rw [statements]
    simp only [line, if_pos shorter]
    cases statements rest <;> rfl

/-- An empty line says nothing. -/
theorem statements_newline (rest : List Char) : statements ('\n' :: rest) = statements rest := by
  have line : lexStatement ('\n' :: rest) = some (none, rest) := by
    rw [lexStatement, lineEnd_newline]
  rw [statements_of_lexStatement line (Nat.lt_succ_self _)]
  cases statements rest <;> rfl

/-- The line of a header of a row of tables is read by `lexStatement`. -/
theorem lexStatement_header {path : List String} {key : String}
    (bare : ∀ part ∈ path ++ [key], isBare part = true) (short : path.length + 1 < levels)
    (rest : List Char) :
    lexStatement ('[' :: '[' :: (dotted (path ++ [key]) ++ ']' :: ']' :: '\n' :: rest))
      = some (some (.header (.element path key)), rest) := by
  have named := lexKey_dotted bare short (endsKey_cons (']' :: '\n' :: rest) (c := ']') rfl)
    (by rw [skipBlanks_of_visible _ rfl, List.head?_cons]; decide)
  rw [skipBlanks_of_visible _ rfl] at named
  have noEnd : ∀ behind, lineEnd ('[' :: behind) = none := fun _ => rfl
  rw [lexStatement, noEnd, skipBlanks_of_visible _ rfl]
  simp only [named, finishLine, lineEnd_newline, Option.map_some]

/-- A character of a bare key ends no line. -/
theorem lineEnd_of_isBareKey {c : Char} (bare : isBareKey c = true) (rest : List Char) :
    lineEnd (c :: rest) = none := by
  have noComment : skipComment (c :: rest) = c :: rest := by
    unfold skipComment
    split
    case h_1 equal => exact absurd (List.cons.inj equal).1 (ne_of_isBareKey bare rfl)
    case h_2 => rfl
  rw [lineEnd, skipBlanks_of_visible _ (isBlank_of_isBareKey bare), noComment]
  show newline? (c :: rest) = none
  exact newline?_eq_none rest (ne_of_isBareKey bare rfl) (ne_of_isBareKey bare rfl)

/-- The line of an entry with a bare key is read by `lexStatement`. -/
theorem lexStatement_entryLine {entry : String × Content} (bare : isBare entry.1 = true)
    (rest : List Char) :
    lexStatement (Block.entryLine entry ++ rest)
      = some (some (.entry (Entry.ofContent entry)), rest) := by
  have read := lexEntry_entryLine (levels - 2) bare rest
  have depth : levels - 2 + 1 = levels - 1 := rfl
  rw [depth] at read
  obtain ⟨c, more, shape, first⟩ := eq_cons_of_isBare bare
  obtain ⟨behind, line⟩ : ∃ behind, Block.entryLine entry ++ rest = c :: behind := by
    refine ⟨more ++ " = ".toList ++ entry.2.write ++ ['\n'] ++ rest, ?_⟩
    rw [Block.entryLine, shape]
    rfl
  have visible : skipBlanks (Block.entryLine entry ++ rest) = Block.entryLine entry ++ rest := by
    have key : Block.entryLine entry ++ rest
        = entry.1.toList ++ (" = ".toList ++ entry.2.write ++ ['\n'] ++ rest) := by
      simp only [Block.entryLine, List.append_assoc]
    rw [key, skipBlanks_bare bare]
  have noEnd : lineEnd (Block.entryLine entry ++ rest) = none := by
    rw [line]
    exact lineEnd_of_isBareKey first behind
  rw [lexStatement, noEnd, visible]
  simp only
  split
  case h_1 equal =>
    rw [line] at equal
    exact absurd (List.cons.inj equal).1 (ne_of_isBareKey first rfl)
  case h_2 equal =>
    rw [line] at equal
    exact absurd (List.cons.inj equal).1 (ne_of_isBareKey first rfl)
  case h_3 =>
    simp only [read, finishLine, lineEnd_newline, Option.map_some]

/-! ### Blocks -/

/-- All keys of `block` can be written without quotes, and its path is short enough for a key. -/
structure Block.IsBare (block : Block) : Prop where
  /-- The parts of the path can be written without quotes. -/
  path : ∀ part ∈ block.path, Toml.isBare part = true
  /-- The path is short enough. -/
  short : block.path.length < levels
  /-- The keys of the entries can be written without quotes. -/
  keys : ∀ entry ∈ block.entries, Toml.isBare entry.1 = true

/-- What the lines of entries say. -/
def entryStatements (entries : List (String × Content)) : List Statement :=
  entries.map (fun entry => .entry (Entry.ofContent entry))

/-- What the header of a block opens: the document, or the next of a row of tables. -/
def Block.header (path : List String) : Header :=
  match path.getLast? with
  | none => .root
  | some key => .element path.dropLast key

/-- What the line of a header says; the document has none. -/
def headerStatements (path : List String) : List Statement :=
  if path.isEmpty then [] else [.header (Block.header path)]

/-- What the lines of a block say. -/
def Block.statements (block : Block) : List Statement :=
  headerStatements block.path ++ entryStatements block.entries

/-- The lines of entries are read by `statements` as `entryStatements`. -/
theorem statements_entryLines {entries : List (String × Content)}
    (bare : ∀ entry ∈ entries, isBare entry.1 = true) (rest : List Char) :
    statements (entries.flatMap Block.entryLine ++ rest)
      = (statements rest).map (fun later => entryStatements entries ++ later) := by
  induction entries with
  | nil =>
    rw [List.flatMap_nil, List.nil_append]
    cases statements rest <;> rfl
  | cons entry more ih =>
    rw [List.forall_mem_cons] at bare
    have line := lexStatement_entryLine bare.1 (more.flatMap Block.entryLine ++ rest)
    have shorter : (more.flatMap Block.entryLine ++ rest).length
        < (Block.entryLine entry ++ (more.flatMap Block.entryLine ++ rest)).length := by
      simp only [Block.entryLine, List.length_append, List.length_cons]
      omega
    rw [List.flatMap_cons, List.append_assoc, statements_of_lexStatement line shorter,
      ih bare.2]
    cases statements rest <;> rfl

/-- The line of a header is read by `statements` as `headerStatements`. -/
theorem statements_headerLine {path : List String} (bare : ∀ part ∈ path, isBare part = true)
    (short : path.length < levels) (rest : List Char) :
    statements (Block.headerLine path ++ rest)
      = (statements rest).map (fun later => headerStatements path ++ later) := by
  rcases List.eq_nil_or_concat path with rfl | ⟨init, key, rfl⟩
  · have none : Block.headerLine [] ++ rest = rest := rfl
    rw [none]
    cases statements rest <;> rfl
  · rw [List.concat_eq_append] at bare short ⊢
    have some : (init ++ [key]).isEmpty = false := by cases init <;> rfl
    have lines : Block.headerLine (init ++ [key]) ++ rest
        = '\n' :: '[' :: '[' :: (dotted (init ++ [key]) ++ ']' :: ']' :: '\n' :: rest) := by
      have opening : "\n[[".toList = ['\n', '[', '['] := rfl
      have closing : "]]\n".toList = [']', ']', '\n'] := rfl
      simp only [Block.headerLine, some, Bool.false_eq_true, if_false, opening, closing,
        toList_intercalate_eq_dotted, List.append_assoc, List.cons_append, List.nil_append]
    rw [List.length_append, List.length_singleton] at short
    have line := lexStatement_header bare short rest
    have shorter : rest.length
        < ('[' :: '[' :: (dotted (init ++ [key]) ++ ']' :: ']' :: '\n' :: rest)).length := by
      simp only [List.length_cons, List.length_append]
      omega
    have said : headerStatements (init ++ [key]) = [.header (.element init key)] := by
      rw [headerStatements, some, if_neg Bool.false_ne_true, Block.header, List.getLast?_concat,
        List.dropLast_concat]
    rw [lines, statements_newline, statements_of_lexStatement line shorter, said]
    rfl

/-- The lines of blocks that are `IsBare` are read as `Block.statements`. -/
theorem statements_flatMap_write {blocks : List Block} (bare : ∀ block ∈ blocks, block.IsBare) :
    statements (blocks.flatMap Block.write) = some (blocks.flatMap Block.statements) := by
  induction blocks with
  | nil => exact statements_nil
  | cons block more ih =>
    rw [List.forall_mem_cons] at bare
    rw [List.flatMap_cons, Block.write, List.append_assoc,
      statements_headerLine bare.1.path bare.1.short, statements_entryLines bare.1.keys,
      ih bare.2, List.flatMap_cons, Block.statements, List.append_assoc]
    rfl

/-! ### Sections -/

/-- A block as the section of a document. -/
def Block.part (block : Block) : Section :=
  ⟨Block.header block.path, block.entries.map Entry.ofContent⟩

/-- Entries belong to the section that is open. -/
theorem sections_entryStatements {header : Header} {more : List Statement} {later : List Section}
    (behind : sections header more = ⟨header, []⟩ :: later) (entries : List (String × Content)) :
    sections header (entryStatements entries ++ more)
      = ⟨header, entries.map Entry.ofContent⟩ :: later := by
  induction entries with
  | nil => exact behind
  | cons entry others ih =>
    have split : entryStatements (entry :: others) ++ more
        = .entry (Entry.ofContent entry) :: (entryStatements others ++ more) := rfl
    rw [split, sections, ih]
    rfl

/-- What blocks with a header say falls into their sections, behind the one that is open. -/
theorem sections_flatMap_statements (header : Header) {rows : List Block}
    (headed : ∀ row ∈ rows, row.path ≠ []) :
    sections header (rows.flatMap Block.statements) = ⟨header, []⟩ :: rows.map Block.part := by
  induction rows generalizing header with
  | nil => rfl
  | cons row more ih =>
    rw [List.forall_mem_cons] at headed
    have some : row.path.isEmpty = false := List.isEmpty_eq_false_iff.mpr headed.1
    have split : (row :: more).flatMap Block.statements
        = .header (Block.header row.path)
          :: (entryStatements row.entries ++ more.flatMap Block.statements) := by
      rw [List.flatMap_cons, Block.statements, headerStatements, some,
        if_neg Bool.false_ne_true, List.append_assoc, List.singleton_append]
    rw [split, sections_header,
      sections_entryStatements (ih _ headed.2) row.entries]
    rfl

/-- What begins with another character has no mark of its byte order. -/
theorem skipMark_of_ne {c : Char} (rest : List Char) (other : c ≠ '\ufeff') :
    skipMark (c :: rest) = c :: rest := by
  unfold skipMark
  split
  case h_1 equal => exact absurd (List.cons.inj equal).1 other
  case h_2 => rfl

/-- A document that begins with an entry has no mark of its byte order. -/
theorem skipMark_write {entry : String × Content} (bare : isBare entry.1 = true)
    (rest : List Char) :
    skipMark (Block.entryLine entry ++ rest) = Block.entryLine entry ++ rest := by
  obtain ⟨c, more, shape, first⟩ := eq_cons_of_isBare bare
  rw [Block.entryLine, shape]
  simp only [List.cons_append]
  exact skipMark_of_ne _ (ne_of_isBareKey first (by decide))

/-- What `writeBlocks` writes is read as what its sections make by `addSection`: entries before any
header, then rows of tables. -/
theorem read_writeBlocks {entry : String × Content} {entries : List (String × Content)}
    {rows : List Block} (bare : ∀ block ∈ ⟨[], entry :: entries⟩ :: rows, block.IsBare)
    (headed : ∀ row ∈ rows, row.path ≠ []) :
    read (writeBlocks (⟨[], entry :: entries⟩ :: rows))
      = assemble ((⟨[], entry :: entries⟩ :: rows).map Block.part) := by
  have first : isBare entry.1 = true :=
    (bare _ List.mem_cons_self).keys entry List.mem_cons_self
  have front : (⟨[], entry :: entries⟩ :: rows : List Block).flatMap Block.write
      = Block.entryLine entry
        ++ (entries.flatMap Block.entryLine ++ rows.flatMap Block.write) := by
    have noHeader : Block.headerLine [] = [] := rfl
    simp only [List.flatMap_cons, Block.write, noHeader, List.nil_append, List.append_assoc]
  have said := statements_flatMap_write bare
  rw [read, writeBlocks, String.toList_ofList, front, skipMark_write first, ← front, said]
  have behind : sections .root (rows.flatMap Block.statements)
      = ⟨.root, []⟩ :: rows.map Block.part := sections_flatMap_statements .root headed
  have all := sections_entryStatements behind (entry :: entries)
  simp only [List.flatMap_cons, List.map_cons]
  rw [Block.statements]
  exact congrArg assemble all

end Wordbook.Toml
