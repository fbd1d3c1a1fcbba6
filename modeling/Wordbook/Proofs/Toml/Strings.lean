import Wordbook.Proofs.Toml.Grammar
import Wordbook.Proofs.Toml.Text

/-!
# TOML strings read by the grammar

A string in any of the four forms is read as the text it spells, however it spells it.

## Main Definitions

* `ReadsQuoted` — what the forms in quotes have in common: they read a character as it is spelled

## Main Statements

* `lexLine_of_lineStringText` — a string of one line is read as its text
* `lexMultiBasic_of_multiBasicText`, `lexMultiLiteral_of_multiLiteralText` — a text of several lines
  is read up to its end
* `lexString_of_stringText` — a string is read as its text

## Design Notes

The inductions over a text of several lines are those for a written one: they speak of the text
behind a row of up to two signs, which are still to be read.  The grammar counts the signs that a
text begins with, so that the row and these are no more than two together.
-/

namespace Wordbook.Toml

open Wordbook.Text

/-! ### Characters -/

theorem isPlain_of_isShown {c : Char} (shown : IsShown c) : isPlain c = true := by
  rw [isPlain, Bool.or_eq_true, beq_iff_eq, Bool.and_eq_true, decide_eq_true_eq, bne_iff_ne]
  exact shown

theorem isBlank_of_areBlanks {blanks : List Char} (areBlanks : AreBlanks blanks) :
    ∀ c ∈ blanks, isBlank c = true := by
  intro c member
  rcases areBlanks c member with rfl | rfl <;> rfl

/-- A short escape is read by `unescape` as the character it stands for. -/
theorem unescape_of_mem {e c : Char} (known : (e, c) ∈ shortEscapes) : unescape e = some c := by
  have all : ∀ escape ∈ shortEscapes, unescape escape.1 = some escape.2 := by decide
  exact all (e, c) known

/-- Digits that name the code point of a character stand for it. -/
theorem escapedScalar_of_hexText {c : Char} {digits : List Char} (names : HexText c.toNat digits) :
    escapedScalar digits = some c := by
  rw [escapedScalar, hexNumber_of_hexText names, Option.bind_some, scalar?_toNat]

/-- In quotes, the text of a character begins with a backslash, or with the character as it
stands. -/
theorem eq_cons_of_quotedText {c : Char} {cs : List Char} (spelled : QuotedText c cs) :
    ∃ d more, cs = d :: more ∧ isPlain d = true ∧ d ≠ '"' := by
  cases spelled with
  | plain shown noQuote _ => exact ⟨c, [], rfl, isPlain_of_isShown shown, noQuote⟩
  | escape escaped => cases escaped <;> exact ⟨'\\', _, rfl, rfl, by decide⟩

/-- The reader `lex` of a form in quotes reads a character as it is spelled. -/
def ReadsQuoted (lex : List Char → Option (List Char × List Char)) : Prop :=
  ∀ {c : Char} {cs : List Char}, QuotedText c cs →
    ∀ rest, lex (cs ++ rest) = pushAll [c] (lex rest)

/-- A reader with `ReadsEscapes` reads characters as they are spelled, if it reads code points. -/
theorem ReadsEscapes.readsQuoted {multi : Bool}
    {lex : List Char → Option (List Char × List Char)} (reads : ReadsEscapes multi lex)
    (four : ∀ a b c d rest, lex ('\\' :: 'u' :: a :: b :: c :: d :: rest)
      = push (escapedScalar [a, b, c, d]) (lex rest))
    (eight : ∀ a b c d e f g h rest,
      lex ('\\' :: 'U' :: a :: b :: c :: d :: e :: f :: g :: h :: rest)
        = push (escapedScalar [a, b, c, d, e, f, g, h]) (lex rest)) : ReadsQuoted lex := by
  intro c cs spelled rest
  cases spelled with
  | plain shown noQuote noBackslash =>
    exact reads.plain rest (isPlain_of_isShown shown) noQuote noBackslash
  | escape escaped =>
    cases escaped with
    | short known => exact reads.escape rest (unescape_of_mem known)
    | @four _ digits length names =>
      have named := escapedScalar_of_hexText names
      match digits, length with
      | [_, _, _, _], _ => exact (four _ _ _ _ rest).trans (by rw [named, push_some])
    | @eight _ digits length names =>
      have named := escapedScalar_of_hexText names
      match digits, length with
      | [_, _, _, _, _, _, _, _], _ =>
        exact (eight _ _ _ _ _ _ _ _ rest).trans (by rw [named, push_some])

theorem readsQuoted_lexBasic : ReadsQuoted lexBasic := by
  apply readsEscapes_lexBasic.readsQuoted
  · intro a b c d rest
    rw [lexBasic]
  · intro a b c d e f g h rest
    rw [lexBasic]

theorem readsQuoted_lexMultiBasic : ReadsQuoted (lexMultiBasic false) := by
  apply readsEscapes_lexMultiBasic.readsQuoted
  · intro a b c d rest
    rw [lexMultiBasic]
  · intro a b c d e f g h rest
    rw [lexMultiBasic]

/-! ### One line -/

/-- Characters in quotes are read by `lexBasic` up to the closing quote. -/
theorem lexBasic_of_spelled {text body : List Char} (spelled : Spelled QuotedText text body)
    (rest : List Char) : lexBasic (body ++ '"' :: rest) = some (text, rest) := by
  induction spelled with
  | nil => rw [List.nil_append, lexBasic]
  | cons first _ ih =>
    rw [List.append_assoc, readsQuoted_lexBasic first, ih, pushAll_some,
      List.singleton_append]

/-- What is in quotes does not begin with a quote. -/
theorem eq_nil_or_of_spelled {text body : List Char} (spelled : Spelled QuotedText text body) :
    body = [] ∨ ∃ d more, body = d :: more ∧ d ≠ '"' := by
  cases spelled with
  | nil => exact Or.inl rfl
  | cons first _ =>
    obtain ⟨d, more, rfl, -, noQuote⟩ := eq_cons_of_quotedText first
    exact Or.inr ⟨d, _, rfl, noQuote⟩

/-- A string of one line is read by `lexLine` as its text. -/
theorem lexLine_of_lineStringText {s : String} {cs : List Char} (spelled : LineStringText s cs)
    (rest : List Char) : lexLine (cs ++ rest) = some (s.toList, rest) := by
  cases spelled with
  | basic spelled =>
    rw [List.append_assoc, List.cons_append, List.singleton_append, lexLine,
      lexBasic_of_spelled spelled]
  | literal shown =>
    rw [List.append_assoc, List.cons_append, List.singleton_append, lexLine]
    exact lexLiteral_append rest
      (fun c member => ⟨isPlain_of_isShown (shown c member).1, (shown c member).2⟩)

/-- A string of one line is not taken by `lexString` for one of several lines. -/
theorem lexString_of_lineStringText {s : String} {cs rest : List Char}
    (spelled : LineStringText s cs) (ends : EndsText rest) :
    lexString (cs ++ rest) = some (s.toList, rest) := by
  rw [← lexLine_of_lineStringText spelled rest]
  -- Two more signs would open several lines; behind an empty text there is only the closing one.
  cases spelled with
  | basic spelled =>
    rw [List.append_assoc, List.cons_append, List.singleton_append]
    apply lexString_eq_lexLine
    intro more equal
    rcases eq_nil_or_of_spelled spelled with rfl | ⟨d, behind, rfl, noQuote⟩
    · exact ne_cons_of_head?_ne ends.1 more (List.cons.inj equal).2
    · exact noQuote (List.cons.inj equal).1
  | literal shown =>
    rw [List.append_assoc, List.cons_append, List.singleton_append]
    apply lexString_eq_lexLine
    intro more equal
    cases text : s.toList with
    | nil =>
      rw [text] at equal
      exact ne_cons_of_head?_ne ends.2 more (List.cons.inj equal).2
    | cons c others =>
      rw [text] at equal shown
      exact (shown c List.mem_cons_self).2 (List.cons.inj equal).1

/-! ### Several lines -/

/-- Blanks before white space are white space. -/
theorem whiteText_append {blanks white : List Char} (areBlanks : AreBlanks blanks)
    (isWhite : WhiteText white) : WhiteText (blanks ++ white) := by
  induction blanks with
  | nil => exact isWhite
  | cons c more ih =>
    rw [AreBlanks, List.forall_mem_cons] at areBlanks
    exact .blank areBlanks.1 (ih areBlanks.2)

theorem MultiBasicText.le_two {n : Nat} {text body : List Char}
    (spelled : MultiBasicText n text body) : n ≤ 2 := by
  cases spelled <;> omega

theorem MultiLiteralText.le_two {n : Nat} {text body : List Char}
    (spelled : MultiLiteralText n text body) : n ≤ 2 := by
  cases spelled <;> omega

/-- A line end that `lexMultiBasic` reads stands for a line feed. -/
theorem lexMultiBasic_newline {newline : List Char} (ends : IsNewline newline) (rest : List Char) :
    lexMultiBasic false (newline ++ rest) = pushAll ['\n'] (lexMultiBasic false rest) := by
  rcases ends with rfl | rfl
  · exact readsEscapes_lexMultiBasic.newline rest rfl
  · rw [List.cons_append, List.singleton_append, lexMultiBasic, if_neg Bool.false_ne_true,
      push_some]

/-- Behind a backslash at the end of a line, white space is dropped. -/
theorem lexMultiBasic_white {white : List Char} (isWhite : WhiteText white) (rest : List Char) :
    lexMultiBasic true (white ++ rest) = lexMultiBasic true rest := by
  induction isWhite with
  | nil => rfl
  | blank isBlank _ ih =>
    rcases isBlank with rfl | rfl
    · rw [List.cons_append, lexMultiBasic.eq_def]
      exact ih
    · rw [List.cons_append, lexMultiBasic.eq_def]
      exact ih
  | line ends _ ih =>
    rw [List.append_assoc]
    rcases ends with rfl | rfl
    · rw [List.singleton_append, lexMultiBasic, if_pos rfl, ih]
    · rw [List.cons_append, List.singleton_append, lexMultiBasic, if_pos rfl, ih]

/-- At a character that is no white space, the text goes on. -/
theorem lexMultiBasic_visible {rest : List Char}
    (visible : ∀ c ∈ rest.head?, c ≠ ' ' ∧ c ≠ '\t' ∧ c ≠ '\n' ∧ c ≠ '\r') :
    lexMultiBasic true rest = lexMultiBasic false rest := by
  rw [lexMultiBasic.eq_def true rest, lexMultiBasic.eq_def false rest]
  split
  case h_5 => exact absurd rfl (visible _ rfl).2.2.1
  case h_6 => exact absurd rfl (visible _ rfl).2.2.2
  case h_10 c _ _ _ _ _ _ _ _ _ =>
    have noBlank : isBlank c = false := by
      obtain ⟨noSpace, noTab, -⟩ := visible c rfl
      rw [isBlank, Bool.or_eq_false_iff, beq_eq_false_iff_ne, beq_eq_false_iff_ne]
      exact ⟨noSpace, noTab⟩
    simp only [noBlank, Bool.and_false]
  all_goals rfl

/-- A backslash at the end of a line takes away the white space up to the next character. -/
theorem lexMultiBasic_fold {blanks newline white rest : List Char} (areBlanks : AreBlanks blanks)
    (ends : IsNewline newline) (isWhite : WhiteText white)
    (visible : ∀ c ∈ rest.head?, c ≠ ' ' ∧ c ≠ '\t' ∧ c ≠ '\n' ∧ c ≠ '\r') :
    lexMultiBasic false ('\\' :: (blanks ++ (newline ++ (white ++ rest))))
      = lexMultiBasic false rest := by
  have endsHere : endsLine (blanks ++ (newline ++ (white ++ rest))) = true := by
    rw [endsLine, skipBlanks, List.dropWhile_append_of_pos (isBlank_of_areBlanks areBlanks)]
    rcases ends with rfl | rfl <;> rfl
  have skipped : lexMultiBasic true (blanks ++ (newline ++ (white ++ rest)))
      = lexMultiBasic false rest := by
    have allWhite := whiteText_append areBlanks (.line ends isWhite)
    rw [← List.append_assoc newline, ← List.append_assoc blanks, lexMultiBasic_white allWhite,
      lexMultiBasic_visible visible]
  -- No letter of an escape begins a blank or a line end.
  obtain ⟨c, more, shape, noUnit, noLong⟩ : ∃ c more,
      blanks ++ (newline ++ (white ++ rest)) = c :: more ∧ c ≠ 'u' ∧ c ≠ 'U' := by
    cases blanks with
    | nil => rcases ends with rfl | rfl <;> exact ⟨_, _, rfl, by decide, by decide⟩
    | cons c more =>
      refine ⟨c, _, rfl, ?_⟩
      rcases areBlanks c List.mem_cons_self with rfl | rfl <;> exact ⟨by decide, by decide⟩
  rw [shape] at endsHere skipped ⊢
  rw [lexMultiBasic, if_pos endsHere, skipped]
  · intro _ _ _ _ _ equal _
    exact noUnit equal
  · intro _ _ _ _ _ _ _ _ _ equal _
    exact noLong equal

/-- A row of up to two signs before a text that is read belongs to the text. -/
theorem ClosesBy.row_of_eq_some {sign : Char} {lex : List Char → Option (List Char × List Char)}
    (closes : ClosesBy sign lex) {n : Nat} (short : n ≤ 2) {d : Char}
    {more text rest : List Char} (other : d ≠ sign) (read : lex (d :: more) = some (text, rest)) :
    lex (List.replicate n sign ++ d :: more) = some (List.replicate n sign ++ text, rest) := by
  rw [closes.row short more other, read, pushAll_some]

/-- What is spelled behind a row of up to two signs belongs to the text as what it stands for. -/
theorem ClosesBy.row_append {sign : Char} {lex : List Char → Option (List Char × List Char)}
    (closes : ClosesBy sign lex) {n : Nat} (short : n ≤ 2) {d : Char}
    {more stands behind text rest : List Char} (other : d ≠ sign)
    (reads : lex (d :: more ++ behind) = pushAll stands (lex behind))
    (next : lex behind = some (text, rest)) :
    lex (List.replicate n sign ++ (d :: more ++ behind))
      = some (List.replicate n sign ++ (stands ++ text), rest) := by
  rw [next, pushAll_some] at reads
  exact closes.row_of_eq_some short other reads

theorem eq_cons_of_isNewline {newline : List Char} (ends : IsNewline newline) :
    ∃ c more, newline = c :: more ∧ (c = '\n' ∨ c = '\r') := by
  rcases ends with rfl | rfl
  · exact ⟨'\n', [], rfl, Or.inl rfl⟩
  · exact ⟨'\r', ['\n'], rfl, Or.inr rfl⟩

/-- A text in three quotes, behind a `row` of quotes that are still to be read, is read up to the
closing quotes. -/
theorem lexMultiBasic_of_multiBasicText {n row : Nat} {text body rest : List Char}
    (spelled : MultiBasicText n text body) (short : n + row ≤ 2)
    (ends : rest.head? ≠ some '"') :
    lexMultiBasic false (List.replicate row '"' ++ (body ++ '"' :: '"' :: '"' :: rest))
      = some (List.replicate row '"' ++ text, rest) := by
  induction spelled generalizing row with
  | nil =>
    rw [Nat.zero_add] at short
    rw [List.nil_append, closesBy_lexMultiBasic.close short ends, List.append_nil]
  | quote _ _ ih =>
    rw [List.cons_append, replicate_append_cons, ih (by omega),
      replicate_append_cons]
  | char spelled others ih =>
    rw [Nat.zero_add] at short
    have read := readsQuoted_lexMultiBasic spelled
    obtain ⟨d, more, rfl, -, other⟩ := eq_cons_of_quotedText spelled
    rw [List.append_assoc]
    exact closesBy_lexMultiBasic.row_append short other (read _)
      (@ih 0 others.le_two)
  | line newlineEnds others ih =>
    rw [Nat.zero_add] at short
    have read := lexMultiBasic_newline newlineEnds
    obtain ⟨d, more, rfl, kind⟩ := eq_cons_of_isNewline newlineEnds
    have other : d ≠ '"' := by rcases kind with rfl | rfl <;> decide
    rw [List.append_assoc]
    exact closesBy_lexMultiBasic.row_append short other (read _)
      (@ih 0 others.le_two)
  | @fold n text blanks newline white body areBlanks newlineEnds isWhite visible others
      ih =>
    rw [Nat.zero_add] at short
    have next : lexMultiBasic false (body ++ '"' :: '"' :: '"' :: rest) = some (text, rest) :=
      @ih 0 others.le_two
    have shown : ∀ c ∈ (body ++ '"' :: '"' :: '"' :: rest).head?,
        c ≠ ' ' ∧ c ≠ '\t' ∧ c ≠ '\n' ∧ c ≠ '\r' := by
      cases body with
      | nil =>
        intro c head
        cases head
        decide
      | cons d more => exact visible
    have read := lexMultiBasic_fold areBlanks newlineEnds isWhite shown
    rw [next] at read
    simp only [List.cons_append, List.append_assoc]
    exact closesBy_lexMultiBasic.row_of_eq_some short (by decide) read

/-- In three apostrophes a line end stands for a line feed. -/
theorem lexMultiLiteral_newline {newline : List Char} (ends : IsNewline newline)
    (rest : List Char) :
    lexMultiLiteral (newline ++ rest) = pushAll ['\n'] (lexMultiLiteral rest) := by
  rcases ends with rfl | rfl
  · rw [List.singleton_append, lexMultiLiteral, push_some]
  · rw [List.cons_append, List.singleton_append, lexMultiLiteral, push_some]

/-- A text in three apostrophes, behind a `row` of apostrophes that are still to be read, is read up
to the closing apostrophes. -/
theorem lexMultiLiteral_of_multiLiteralText {n row : Nat} {text body rest : List Char}
    (spelled : MultiLiteralText n text body) (short : n + row ≤ 2)
    (ends : rest.head? ≠ some '\'') :
    lexMultiLiteral (List.replicate row '\'' ++ (body ++ '\'' :: '\'' :: '\'' :: rest))
      = some (List.replicate row '\'' ++ text, rest) := by
  induction spelled generalizing row with
  | nil =>
    rw [Nat.zero_add] at short
    rw [List.nil_append, closesBy_lexMultiLiteral.close short ends, List.append_nil]
  | apostrophe _ _ ih =>
    rw [List.cons_append, replicate_append_cons, ih (by omega),
      replicate_append_cons]
  | @char n c text body shown noSign others ih =>
    rw [Nat.zero_add] at short
    have read : lexMultiLiteral ([c] ++ (body ++ '\'' :: '\'' :: '\'' :: rest))
        = pushAll [c] (lexMultiLiteral (body ++ '\'' :: '\'' :: '\'' :: rest)) :=
      lexMultiLiteral_cons (isPlain_of_isShown shown) (fun sign => absurd sign noSign)
    exact closesBy_lexMultiLiteral.row_append short noSign read
      (@ih 0 others.le_two)
  | line newlineEnds others ih =>
    rw [Nat.zero_add] at short
    have read := lexMultiLiteral_newline newlineEnds
    obtain ⟨d, more, rfl, kind⟩ := eq_cons_of_isNewline newlineEnds
    have other : d ≠ '\'' := by rcases kind with rfl | rfl <;> decide
    rw [List.append_assoc]
    exact closesBy_lexMultiLiteral.row_append short other (read _)
      (@ih 0 others.le_two)

/-! ### Strings -/

/-- The line end that opens a form of several lines is taken off by `dropNewline`, and nothing else
is. -/
theorem dropNewline_of_opensLines {opening body : List Char} (opens : OpensLines opening body)
    {sign : Char} (rest : List Char) (noLine : sign ≠ '\n' ∧ sign ≠ '\r') :
    dropNewline (opening ++ (body ++ sign :: rest)) = body ++ sign :: rest := by
  rcases opens with (rfl | rfl) | ⟨rfl, first⟩
  · rfl
  · rfl
  · obtain ⟨d, more, shape, noFeed, noReturn⟩ : ∃ d more, body ++ sign :: rest = d :: more
        ∧ d ≠ '\n' ∧ d ≠ '\r' := by
      cases body with
      | nil => exact ⟨sign, rest, rfl, noLine⟩
      | cons d more => exact ⟨d, _, rfl, first d rfl⟩
    rw [List.nil_append, shape, dropNewline, newline?_eq_none more noFeed noReturn,
      Option.getD_none]

/-- A string in any of the four forms is read by `lexString` as its text. -/
theorem lexString_of_stringText {s : String} {cs rest : List Char} (spelled : StringText s cs)
    (ends : EndsText rest) : lexString (cs ++ rest) = some (s.toList, rest) := by
  cases spelled with
  | line spelled => exact lexString_of_lineStringText spelled ends
  | multiBasic opens spelled =>
    have read := @lexMultiBasic_of_multiBasicText _ 0 _ _ _ spelled spelled.le_two ends.1
    simp only [List.append_assoc, List.cons_append, List.nil_append]
    rw [lexString, dropNewline_of_opensLines opens _ (by decide)]
    exact read
  | multiLiteral opens spelled =>
    have read := @lexMultiLiteral_of_multiLiteralText _ 0 _ _ _ spelled spelled.le_two ends.2
    simp only [List.append_assoc, List.cons_append, List.nil_append]
    rw [lexString, dropNewline_of_opensLines opens _ (by decide)]
    exact read

end Wordbook.Toml
