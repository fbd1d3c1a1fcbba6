import Wordbook.Proofs.Toml.Text
import Wordbook.Toml.Printer
import Wordbook.Toml.Value

/-!
# TOML keys and values read back

What the printer writes for a key, a text, a list of texts and an entry is read as that.

## Main Definitions

* `isBare` — a key that is written without quotes
* `Content.tree` — the tree of what is written behind a key

## Main Statements

* `lexKeyParts_dotted` — a dotted key of bare parts is read as its parts
* `lexValue_write` — a written text or list of texts is read as its tree
* `lexEntry_entryLine` — a written entry is read as that entry
-/

namespace Wordbook.Toml

/-! ### Space -/

theorem skipBlanks_of_visible {c : Char} (rest : List Char) (visible : isBlank c = false) :
    skipBlanks (c :: rest) = c :: rest := by
  rw [skipBlanks, List.dropWhile_cons_of_neg (Bool.eq_false_iff.mp visible)]

/-- A character that begins neither space nor a comment nor a line end. -/
def isVisible (c : Char) : Bool := !isBlank c && c != '\n' && c != '\r' && c != '#'

theorem skipSpace_of_isVisible {c : Char} (rest : List Char) (visible : isVisible c = true) :
    skipSpace (c :: rest) = c :: rest := by
  simp only [isVisible, Bool.and_eq_true, Bool.not_eq_true', bne_iff_ne] at visible
  obtain ⟨⟨⟨noBlank, noFeed⟩, noReturn⟩, noSign⟩ := visible
  have noSpace : ¬ (isBlank c || c == '\n') = true := by
    rw [noBlank, Bool.false_or, beq_iff_eq]
    exact noFeed
  have noComment : ¬ (c == '#') = true := by
    rw [beq_iff_eq]
    exact noSign
  have notInside : ¬ (false && isPlain c) = true := Bool.false_ne_true
  rw [skipSpace, skipSpaceFrom, if_neg notInside, if_neg noSpace, if_neg noComment]
  intro _ equal _
  exact noReturn equal

theorem skipSpace_newline (rest : List Char) : skipSpace ('\n' :: rest) = skipSpace rest := by
  rw [skipSpace, skipSpaceFrom]
  · rfl
  · intro _ equal _
    cases equal

theorem skipSpace_space (rest : List Char) : skipSpace (' ' :: rest) = skipSpace rest := by
  rw [skipSpace, skipSpaceFrom]
  · rfl
  · intro _ equal _
    cases equal

/-! ### Values -/

/-- What `writeText` writes begins with the sign of its form. -/
theorem writeText_eq_cons (text : List Char) :
    ∃ sign more, writeText text = sign :: more ∧ (sign = '"' ∨ sign = '\'') := by
  rw [writeText]
  cases Form.of text with
  | basic => exact ⟨'"', _, rfl, Or.inl rfl⟩
  | literal => exact ⟨'\'', _, rfl, Or.inr rfl⟩
  | multiBasic => exact ⟨'"', _, rfl, Or.inl rfl⟩
  | multiLiteral => exact ⟨'\'', _, rfl, Or.inr rfl⟩

theorem endsText_cons {c : Char} (rest : List Char) (noSign : c ≠ '"' ∧ c ≠ '\'') :
    EndsText (c :: rest) := by
  constructor
  · intro equal
    exact noSign.1 (Option.some.inj equal)
  · intro equal
    exact noSign.2 (Option.some.inj equal)

/-- What `writeText` writes is read by `lexValue`, however many levels are left. -/
theorem lexValue_writeText (depth : Nat) (s : String) {rest : List Char} (ends : EndsText rest) :
    lexValue depth (writeText s.toList ++ rest) = some (.text s, rest) := by
  have read := lexString_writeText s.toList ends
  obtain ⟨sign, more, shape, kind⟩ := writeText_eq_cons s.toList
  rw [shape, List.cons_append] at read ⊢
  have simple : lexValue depth (sign :: (more ++ rest)) = lexSimple (sign :: (more ++ rest)) := by
    rcases kind with rfl | rfl <;> cases depth <;> rfl
  rw [simple, lexSimple, read]
  simp only [String.ofList_toList]

/-- The end of a list without further items. -/
theorem lexItems_end (item : List Char → Option (Tree × List Char)) {cs rest : List Char}
    (start : skipSpace cs = ']' :: rest) : lexItems item cs = some ([], rest) := by
  rw [lexItems, start]
  rfl

/-- The last item of a list. -/
theorem lexItems_last {item : List Char → Option (Tree × List Char)}
    {cs start behind rest : List Char} {t : Tree} (here : skipSpace cs = start)
    (goesOn : start.head? ≠ some ']') (found : item start = some (t, behind))
    (close : skipSpace behind = ']' :: rest) : lexItems item cs = some ([t], rest) := by
  subst here
  rw [lexItems]
  -- The end of the list would be tried first.
  split
  · rename_i shape
    rw [shape] at goesOn
    exact absurd rfl goesOn
  · rw [found]
    simp only [close]

/-- An item of a list before a comma. -/
theorem lexItems_cons {item : List Char → Option (Tree × List Char)}
    {cs start behind rest : List Char} {t : Tree} (here : skipSpace cs = start)
    (goesOn : start.head? ≠ some ']') (found : item start = some (t, behind))
    (comma : skipSpace behind = ',' :: rest) (shorter : rest.length < cs.length) :
    lexItems item cs = (lexItems item rest).map (fun found => (t :: found.1, found.2)) := by
  subst here
  rw [lexItems]
  split
  · rename_i shape
    rw [shape] at goesOn
    exact absurd rfl goesOn
  · rw [found]
    simp only [comma, if_pos shorter]
    cases lexItems item rest <;> rfl

/-- The tree of what is written behind a key. -/
def Content.tree : Content → Tree
  | .text s => .text s
  | .texts items => .list (items.map .text) true

/-- What `writeText` writes does not begin with the end of a list. -/
theorem head?_writeText_ne (text rest : List Char) :
    (writeText text ++ rest).head? ≠ some ']' := by
  obtain ⟨sign, more, shape, kind⟩ := writeText_eq_cons text
  rw [shape, List.cons_append, List.head?_cons]
  rcases kind with rfl | rfl <;> decide

/-- What `writeText` writes begins with no space. -/
theorem skipSpace_writeText (text rest : List Char) :
    skipSpace (writeText text ++ rest) = writeText text ++ rest := by
  obtain ⟨sign, more, shape, kind⟩ := writeText_eq_cons text
  rw [shape, List.cons_append]
  rcases kind with rfl | rfl <;> exact skipSpace_of_isVisible _ rfl

/-- The lines of a list are read by `lexItems` as its texts, up to the end of the list. -/
theorem lexItems_itemLines (depth : Nat) (items : List String) (rest : List Char) :
    lexItems (lexValue depth) ('\n' :: (items.flatMap Content.itemLine ++ ']' :: rest))
      = some (items.map .text, rest) := by
  -- Each line ends in a comma and a line feed, so what is left before an item opens with one too.
  induction items with
  | nil =>
    apply lexItems_end
    rw [List.flatMap_nil, List.nil_append, skipSpace_newline, skipSpace_of_isVisible _ rfl]
  | cons s more ih =>
    have lines : (s :: more).flatMap Content.itemLine ++ ']' :: rest
        = ' ' :: ' ' :: ' ' :: ' ' :: (writeText s.toList ++ ',' :: '\n'
          :: (more.flatMap Content.itemLine ++ ']' :: rest)) := by
      have indent : "    ".toList = [' ', ' ', ' ', ' '] := rfl
      simp only [List.flatMap_cons, Content.itemLine, indent, List.append_assoc, List.cons_append,
        List.nil_append]
    have here : skipSpace ('\n' :: ((s :: more).flatMap Content.itemLine ++ ']' :: rest))
        = writeText s.toList ++ ',' :: '\n'
          :: (more.flatMap Content.itemLine ++ ']' :: rest) := by
      rw [lines, skipSpace_newline, skipSpace_space, skipSpace_space, skipSpace_space,
        skipSpace_space, skipSpace_writeText]
    have found := lexValue_writeText depth s
      (endsText_cons ('\n' :: (more.flatMap Content.itemLine ++ ']' :: rest))
        (by decide : ',' ≠ '"' ∧ ',' ≠ '\''))
    rw [lexItems_cons here (head?_writeText_ne _ _) found (skipSpace_of_isVisible _ rfl),
      ih]
    · rfl
    · rw [lines]
      simp only [List.length_cons, List.length_append]
      omega

/-- What `Content.write` writes is read by `lexValue` as its tree. -/
theorem lexValue_write (depth : Nat) (content : Content) {rest : List Char}
    (ends : EndsText rest) :
    lexValue (depth + 1) (content.write ++ rest) = some (content.tree, rest) := by
  match content with
  | .text s => exact lexValue_writeText (depth + 1) s ends
  | .texts [] =>
    have items : lexItems (lexValue depth) (']' :: rest) = some ([], rest) :=
      lexItems_end _ (skipSpace_of_isVisible _ rfl)
    rw [Content.write, List.cons_append, List.cons_append, List.nil_append, lexValue, items]
    rfl
  | .texts [s] =>
    have found := lexValue_writeText depth s
      (endsText_cons rest (by decide : ']' ≠ '"' ∧ ']' ≠ '\''))
    have items := lexItems_last (skipSpace_writeText s.toList (']' :: rest))
      (head?_writeText_ne _ _) found (skipSpace_of_isVisible _ rfl)
    rw [Content.write, List.cons_append, List.cons_append, List.append_assoc,
      List.singleton_append, lexValue, items]
    rfl
  | .texts (s :: next :: more) =>
    have items := lexItems_itemLines depth (s :: next :: more) rest
    rw [Content.write, List.append_assoc, List.singleton_append, List.cons_append,
      List.cons_append, lexValue, items]
    · rfl
    · exact nofun
    · exact nofun

/-- What `Content.write` writes begins with no blank. -/
theorem Content.write_eq_cons (content : Content) :
    ∃ c more, content.write = c :: more ∧ isBlank c = false := by
  match content with
  | .text s =>
    obtain ⟨sign, more, shape, kind⟩ := writeText_eq_cons s.toList
    refine ⟨sign, more, shape, ?_⟩
    rcases kind with rfl | rfl <;> rfl
  | .texts [] => exact ⟨'[', _, rfl, rfl⟩
  | .texts [_] => exact ⟨'[', _, rfl, rfl⟩
  | .texts (_ :: _ :: _) => exact ⟨'[', _, rfl, rfl⟩

/-! ### Keys -/

/-- A key that is written without quotes. -/
def isBare (key : String) : Bool := !key.toList.isEmpty && key.toList.all isBareKey

/-- A bare key begins with a character of which `isBareKey` holds. -/
theorem eq_cons_of_isBare {key : String} (bare : isBare key = true) :
    ∃ c more, key.toList = c :: more ∧ isBareKey c = true := by
  rw [isBare, Bool.and_eq_true, Bool.not_eq_true'] at bare
  cases shape : key.toList with
  | nil =>
    rw [shape] at bare
    cases bare.1
  | cons c more =>
    rw [shape, List.all_cons, Bool.and_eq_true] at bare
    exact ⟨c, more, rfl, bare.2.1⟩

/-- A character of a bare key differs from each that is none. -/
theorem ne_of_isBareKey {c d : Char} (bare : isBareKey c = true) (other : isBareKey d = false) :
    c ≠ d := by
  rintro rfl
  rw [bare] at other
  cases other

/-- A character of a bare key is no blank. -/
theorem isBlank_of_isBareKey {c : Char} (bare : isBareKey c = true) : isBlank c = false := by
  apply Bool.eq_false_iff.mpr
  intro blank
  simp only [isBlank, Bool.or_eq_true, beq_iff_eq] at blank
  rcases blank with rfl | rfl <;> cases bare

/-- No character at the front of `rest` carries a bare key on. -/
def EndsKey (rest : List Char) : Prop := ∀ c ∈ rest.head?, isBareKey c = false

theorem endsKey_cons {c : Char} (rest : List Char) (other : isBareKey c = false) :
    EndsKey (c :: rest) := by
  intro d head
  cases head
  exact other

/-- The characters that `takeWhile` takes end where no further one belongs to them. -/
theorem takeWhile_append_of_ends {p : Char → Bool} {run rest : List Char}
    (all : ∀ c ∈ run, p c = true) (ends : ∀ c ∈ rest.head?, p c = false) :
    (run ++ rest).takeWhile p = run := by
  rw [List.takeWhile_append_of_pos all]
  cases rest with
  | nil => rw [List.takeWhile_nil, List.append_nil]
  | cons c more =>
    rw [List.takeWhile_cons_of_neg (Bool.eq_false_iff.mp (ends c rfl)), List.append_nil]

/-- What `dropWhile` leaves begins where they end. -/
theorem dropWhile_append_of_ends {p : Char → Bool} {run rest : List Char}
    (all : ∀ c ∈ run, p c = true) (ends : ∀ c ∈ rest.head?, p c = false) :
    (run ++ rest).dropWhile p = rest := by
  rw [List.dropWhile_append_of_pos all]
  cases rest with
  | nil => rfl
  | cons c more => rw [List.dropWhile_cons_of_neg (Bool.eq_false_iff.mp (ends c rfl))]

/-- A bare key is read by `lexKeyPart` as a part of a key. -/
theorem lexKeyPart_bare {key : String} (bare : isBare key = true) {rest : List Char}
    (ends : EndsKey rest) : lexKeyPart (key.toList ++ rest) = some (key.toList, rest) := by
  obtain ⟨c, more, shape, first⟩ := eq_cons_of_isBare bare
  have noLine : lexLine (key.toList ++ rest) = none := by
    rw [shape, List.cons_append, lexLine]
    · exact fun _ equal => ne_of_isBareKey first rfl (List.cons.inj equal).1
    · exact fun _ equal => ne_of_isBareKey first rfl (List.cons.inj equal).1
  have all : ∀ d ∈ key.toList, isBareKey d = true := by
    rw [isBare, Bool.and_eq_true, List.all_eq_true] at bare
    exact bare.2
  rw [lexKeyPart, noLine]
  simp only [takeWhile_append_of_ends all ends, dropWhile_append_of_ends all ends]
  rw [shape]

/-- The parts of a key, with points between them. -/
def dotted (parts : List String) : List Char := ['.'].intercalate (parts.map String.toList)

theorem toList_intercalate_eq_dotted (parts : List String) :
    (".".intercalate parts).toList = dotted parts := String.toList_intercalate

theorem dotted_cons_cons (part next : String) (more : List String) :
    dotted (part :: next :: more) = part.toList ++ '.' :: dotted (next :: more) := by
  simp only [dotted, List.map_cons, List.intercalate_cons_cons, List.append_assoc,
    List.singleton_append]

/-- No blank stands before a bare key. -/
theorem skipBlanks_bare {key : String} (bare : isBare key = true) (rest : List Char) :
    skipBlanks (key.toList ++ rest) = key.toList ++ rest := by
  obtain ⟨c, more, shape, first⟩ := eq_cons_of_isBare bare
  rw [shape, List.cons_append, skipBlanks_of_visible _ (isBlank_of_isBareKey first)]

/-- A dotted key of bare parts is read by `lexKeyParts` as its parts, up to the blanks behind it. -/
theorem lexKeyParts_dotted {part : String} {more : List String}
    (bare : ∀ key ∈ part :: more, isBare key = true) {rest : List Char} (ends : EndsKey rest)
    (noPoint : (skipBlanks rest).head? ≠ some '.') :
    lexKeyParts (dotted (part :: more) ++ rest) = some (part :: more, skipBlanks rest) := by
  induction more generalizing part with
  | nil =>
    have first := bare part List.mem_cons_self
    have shape : dotted [part] = part.toList := List.append_nil _
    rw [shape, lexKeyParts, skipBlanks_bare first, lexKeyPart_bare first ends]
    simp only
    split
    · rename_i point
      rw [point] at noPoint
      exact absurd rfl noPoint
    · rw [String.ofList_toList]
  | cons next others ih =>
    have first := bare part List.mem_cons_self
    have later := ih (fun key member => bare key (List.mem_cons_of_mem _ member))
    have point : skipBlanks ('.' :: (dotted (next :: others) ++ rest))
        = '.' :: (dotted (next :: others) ++ rest) := skipBlanks_of_visible _ rfl
    have shorter : (dotted (next :: others) ++ rest).length
        < (part.toList ++ '.' :: (dotted (next :: others) ++ rest)).length := by
      simp only [List.length_append, List.length_cons]
      omega
    rw [dotted_cons_cons, List.append_assoc, List.cons_append, lexKeyParts, skipBlanks_bare first,
      lexKeyPart_bare first (endsKey_cons _ rfl)]
    simp only [point, if_pos shorter, later, String.ofList_toList]

/-- A dotted key of fewer parts than `levels` is read by `lexKey` as its path and its last part. -/
theorem lexKey_dotted {path : List String} {key : String}
    (bare : ∀ part ∈ path ++ [key], isBare part = true) (short : path.length + 1 < levels)
    {rest : List Char} (ends : EndsKey rest) (noPoint : (skipBlanks rest).head? ≠ some '.') :
    lexKey (dotted (path ++ [key]) ++ rest) = some (path, key, skipBlanks rest) := by
  have parts : lexKeyParts (dotted (path ++ [key]) ++ rest)
      = some (path ++ [key], skipBlanks rest) := by
    cases path with
    | nil => exact lexKeyParts_dotted bare ends noPoint
    | cons first others => exact lexKeyParts_dotted bare ends noPoint
  rw [lexKey, parts]
  simp only [List.getLast?_append, List.getLast?_singleton, Option.some_or, List.length_append,
    List.length_singleton, if_pos short, List.dropLast_concat]

/-! ### Entries -/

/-- An entry of the printer as the reader has it. -/
def Entry.ofContent (entry : String × Content) : Entry := ⟨[], entry.1, entry.2.tree⟩

/-- The line of an entry with a bare key is read by `lexEntry` as that entry, up to the end of the
line. -/
theorem lexEntry_entryLine (depth : Nat) {entry : String × Content}
    (bare : isBare entry.1 = true) (rest : List Char) :
    lexEntry (lexValue (depth + 1)) (Block.entryLine entry ++ rest)
      = some (Entry.ofContent entry, '\n' :: rest) := by
  obtain ⟨key, content⟩ := entry
  have line : Block.entryLine (key, content) ++ rest
      = dotted ([] ++ [key]) ++ ' ' :: '=' :: ' ' :: (content.write ++ '\n' :: rest) := by
    have sign : " = ".toList = [' ', '=', ' '] := rfl
    have shape : dotted [key] = key.toList := List.append_nil _
    simp only [Block.entryLine, sign, shape, List.append_assoc, List.cons_append, List.nil_append]
  have behind : skipBlanks (' ' :: '=' :: ' ' :: (content.write ++ '\n' :: rest))
      = '=' :: ' ' :: (content.write ++ '\n' :: rest) := rfl
  have named : lexKey (dotted ([] ++ [key]) ++ ' ' :: '=' :: ' ' :: (content.write ++ '\n' :: rest))
      = some ([], key, '=' :: ' ' :: (content.write ++ '\n' :: rest)) := by
    rw [lexKey_dotted, behind]
    · intro part member
      rw [List.mem_singleton.mp member]
      exact bare
    · decide
    · exact endsKey_cons _ rfl
    · rw [behind, List.head?_cons]
      decide
  have visible : skipBlanks (' ' :: (content.write ++ '\n' :: rest))
      = content.write ++ '\n' :: rest := by
    obtain ⟨c, more, shape, noBlank⟩ := content.write_eq_cons
    have space : skipBlanks (' ' :: (content.write ++ '\n' :: rest))
        = skipBlanks (content.write ++ '\n' :: rest) := rfl
    rw [space, shape, List.cons_append, skipBlanks_of_visible _ noBlank]
  have read := lexValue_write depth content
    (endsText_cons rest (by decide : '\n' ≠ '"' ∧ '\n' ≠ '\''))
  rw [line, lexEntry, named]
  simp only [visible, read]
  rfl

end Wordbook.Toml
