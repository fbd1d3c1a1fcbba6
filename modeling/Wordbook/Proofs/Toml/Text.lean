import Wordbook.Proofs.Text.Spelling
import Wordbook.Toml.Text

/-!
# TOML strings read back

A text that is written as a string is read as that text, in whichever of the four forms it is
written.

## Main Definitions

* `ReadsEscapes` — what the forms in quotes have in common: how they read a written character
* `ClosesBy` — what the forms of several lines have in common: how they end

## Main Statements

* `lexBasic_escapedFrom`, `lexLiteral_append`, `lexMultiBasic_escapedFrom`,
  `lexMultiLiteral_append` — each form read up to its end
* `lexString_writeText` — a written text is read as that text

## Design Notes

In the forms of several lines up to two signs stand for themselves and three end the text, so a
sign can only be read together with those before it.  The inductions carry these along: they speak
of a text behind a row of up to two signs, which are still to be read.
-/

namespace Wordbook.Toml

open Wordbook.Text

/-! ### Characters -/

/-- Of the characters that are shown as they stand only the line feed is not plain. -/
theorem isPlain_of_not_isControl {c : Char} (shown : isControl c = false) (noLine : c ≠ '\n') :
    isPlain c = true := by
  simp only [isControl, Bool.or_eq_false_iff, Bool.and_eq_false_iff, bne_eq_false_iff_eq,
    decide_eq_false_iff_not, beq_eq_false_iff_ne] at shown
  simp only [isPlain, Bool.or_eq_true, Bool.and_eq_true, beq_iff_eq, bne_iff_ne,
    decide_eq_true_eq]
  obtain ⟨(visible | tab) | line, noDelete⟩ := shown
  · exact Or.inr ⟨Char.not_lt.mp visible, noDelete⟩
  · exact Or.inl tab
  · exact absurd line noLine

theorem ne_newline_of_isPlain {c : Char} (plain : isPlain c = true) : c ≠ '\n' := by
  rintro rfl
  cases plain

theorem ne_return_of_isPlain {c : Char} (plain : isPlain c = true) : c ≠ '\r' := by
  rintro rfl
  cases plain

/-- Puts `text` before a text that was read. -/
def pushAll (text : List Char) (found : Option (List Char × List Char)) :
    Option (List Char × List Char) :=
  found.map (fun found => (text ++ found.1, found.2))

theorem push_some (c : Char) (found : Option (List Char × List Char)) :
    push (some c) found = pushAll [c] found := by
  cases found <;> rfl

@[simp] theorem pushAll_some (text more rest : List Char) :
    pushAll text (some (more, rest)) = some (text ++ more, rest) := rfl

theorem pushAll_nil (found : Option (List Char × List Char)) : pushAll [] found = found := by
  cases found <;> rfl

theorem pushAll_pushAll (text more : List Char) (found : Option (List Char × List Char)) :
    pushAll text (pushAll more found) = pushAll (text ++ more) found := by
  cases found with
  | none => rfl
  | some found => simp only [pushAll, Option.map_some, List.append_assoc]

/-! ### Escapes -/

/-- The reader `lex` of a form in quotes undoes what `escapedChar` does to a single character. -/
structure ReadsEscapes (multi : Bool) (lex : List Char → Option (List Char × List Char)) :
    Prop where
  /-- An escape of one letter stands for its character. -/
  escape : ∀ {e c : Char} (rest : List Char), unescape e = some c →
    lex ('\\' :: e :: rest) = pushAll [c] (lex rest)
  /-- Four digits stand for the character they name. -/
  digits : ∀ {c : Char} (rest : List Char), c.toNat < 65536 →
    lex ('\\' :: 'u' :: hexFour true c.toNat ++ rest) = pushAll [c] (lex rest)
  /-- All but the quote and the backslash stand for themselves. -/
  plain : ∀ {c : Char} (rest : List Char), isPlain c = true → c ≠ '"' → c ≠ '\\' →
    lex (c :: rest) = pushAll [c] (lex rest)
  /-- So does the line feed in a form of several lines. -/
  newline : ∀ rest : List Char, multi = true → lex ('\n' :: rest) = pushAll ['\n'] (lex rest)

/-- A control character has a code point of four digits. -/
theorem toNat_lt_of_isControl {c : Char} (control : isControl c = true) : c.toNat < 65536 := by
  simp only [isControl, Bool.or_eq_true, Bool.and_eq_true, decide_eq_true_eq, beq_iff_eq] at control
  rcases control with ⟨⟨low, -⟩, -⟩ | rfl
  · have below : c.toNat < 32 := low
    omega
  · decide

/-- What `escapedChar` writes of a character is read as that character. -/
theorem ReadsEscapes.escapedChar {multi : Bool} {lex : List Char → Option (List Char × List Char)}
    (reads : ReadsEscapes multi lex) {c : Char} (rest : List Char) (noQuote : c ≠ '"') :
    lex (escapedChar multi c ++ rest) = pushAll [c] (lex rest) := by
  unfold Toml.escapedChar
  -- The line feed, and then the characters that have no escape of one letter.
  split
  case h_4 =>
    cases multi with
    | false => exact reads.escape rest rfl
    | true => exact reads.newline rest rfl
  case h_7 noEscape _ _ noLine _ _ =>
    by_cases control : isControl c = true
    · rw [if_pos control]
      exact reads.digits rest (toNat_lt_of_isControl control)
    · rw [if_neg control]
      have shown : isControl c = false := Bool.eq_false_iff.mpr control
      exact reads.plain rest (isPlain_of_not_isControl shown noLine) noQuote noEscape
  all_goals exact reads.escape rest rfl

/-- What `escapedChar` writes begins with a backslash, or with the character as it stands. -/
theorem escapedChar_eq_cons (multi : Bool) (c : Char) :
    ∃ d more, escapedChar multi c = d :: more ∧ (d = '\\' ∨ (d = c ∧ isControl c = false)) := by
  unfold escapedChar
  split
  case h_4 =>
    cases multi with
    | false => exact ⟨'\\', ['n'], rfl, Or.inl rfl⟩
    | true => exact ⟨'\n', [], rfl, Or.inr ⟨rfl, rfl⟩⟩
  case h_7 =>
    by_cases control : isControl c = true
    · exact ⟨'\\', _, if_pos control, Or.inl rfl⟩
    · exact ⟨c, [], if_neg control, Or.inr ⟨rfl, Bool.eq_false_iff.mpr control⟩⟩
  all_goals exact ⟨'\\', _, rfl, Or.inl rfl⟩

/-! ### One line -/

/-- An escape of one letter is none of those that name a code point. -/
theorem ne_of_unescape {e c : Char} (known : unescape e = some c) : e ≠ 'u' ∧ e ≠ 'U' := by
  constructor
  · rintro rfl
    cases known
  · rintro rfl
    cases known

/-- The digits of a code point name its character. -/
theorem escapedScalar_hexFour {c : Char} (small : c.toNat < 65536) :
    escapedScalar (hexFour true c.toNat) = some c := by
  rw [escapedScalar, hexNumber_hexFour true small, Option.bind_some, scalar?_toNat]

theorem readsEscapes_lexBasic : ReadsEscapes false lexBasic where
  escape := by
    intro e c rest known
    obtain ⟨noUnit, noLong⟩ := ne_of_unescape known
    -- What is left are the escapes that the reader tries first.
    rw [lexBasic, known, push_some]
    · intro _ _ _ _ _ equal _
      exact noUnit equal
    · intro _ _ _ _ _ _ _ _ _ equal _
      exact noLong equal
  digits := by
    intro c rest small
    have named := escapedScalar_hexFour small
    simp only [hexFour, List.cons_append, List.nil_append] at named ⊢
    rw [lexBasic, named, push_some]
  plain := by
    intro c rest plain noQuote noEscape
    have stands : (isPlain c && c != '\\') = true := by
      rw [plain, Bool.true_and, bne_iff_ne]
      exact noEscape
    rw [lexBasic, if_pos stands, push_some]
    · exact noQuote
    · intro _ _ _ _ _ equal _
      exact noEscape equal
    · intro _ _ _ _ _ _ _ _ _ equal _
      exact noEscape equal
    · intro _ _ equal _
      exact noEscape equal
  newline := by
    intro rest multi
    cases multi

/-- A character other than the quote is written by `escapedFrom` as it is by itself. -/
theorem escapedFrom_cons (multi : Bool) (row : Nat) {c : Char} (more : List Char)
    (noQuote : c ≠ '"') :
    escapedFrom multi row (c :: more) = escapedChar multi c ++ escapedFrom multi 0 more := by
  rw [escapedFrom]
  exact noQuote

/-- In one quote every quote of the text is escaped. -/
theorem escapedFrom_quote (row : Nat) (more : List Char) :
    escapedFrom false row ('"' :: more) = '\\' :: '"' :: escapedFrom false 0 more := by
  rw [escapedFrom]
  rfl

/-- What `escapedFrom` writes is read by `lexBasic` up to the closing quote. -/
theorem lexBasic_escapedFrom (row : Nat) (text rest : List Char) :
    lexBasic (escapedFrom false row text ++ '"' :: rest) = some (text, rest) := by
  induction text generalizing row with
  | nil => rw [escapedFrom, List.nil_append, lexBasic]
  | cons c more ih =>
    by_cases quote : c = '"'
    · subst quote
      rw [escapedFrom_quote, List.cons_append, List.cons_append,
        readsEscapes_lexBasic.escape _ rfl, ih, pushAll_some,
        List.singleton_append]
    · rw [escapedFrom_cons false row more quote, List.append_assoc,
        readsEscapes_lexBasic.escapedChar _ quote, ih, pushAll_some,
        List.singleton_append]

/-- A text in apostrophes is read by `lexLiteral` up to the closing apostrophe. -/
theorem lexLiteral_append {text : List Char} (rest : List Char)
    (plain : ∀ c ∈ text, isPlain c = true ∧ c ≠ '\'') :
    lexLiteral (text ++ '\'' :: rest) = some (text, rest) := by
  induction text with
  | nil => rw [List.nil_append, lexLiteral]
  | cons c more ih =>
    rw [List.forall_mem_cons] at plain
    rw [List.cons_append, lexLiteral, if_pos plain.1.1, ih plain.2, push_some,
      pushAll_some, List.singleton_append]
    exact plain.1.2

/-! ### Several lines -/

/-- The reader `lex` of a form that three signs close: up to two signs may stand before the closing
ones, and up to two anywhere else. -/
structure ClosesBy (sign : Char) (lex : List Char → Option (List Char × List Char)) : Prop where
  /-- A sign that is not one of three stands for itself. -/
  alone : ∀ rest : List Char, (∀ more, rest ≠ sign :: sign :: more) →
    lex (sign :: rest) = pushAll [sign] (lex rest)
  /-- Three signs close the text. -/
  three : ∀ rest : List Char, rest.head? ≠ some sign →
    lex (sign :: sign :: sign :: rest) = some ([], rest)
  /-- Of four signs the last three do. -/
  four : ∀ rest : List Char, rest.head? ≠ some sign →
    lex (sign :: sign :: sign :: sign :: rest) = some ([sign], rest)
  /-- Of five signs the last three do. -/
  five : ∀ rest : List Char,
    lex (sign :: sign :: sign :: sign :: sign :: rest) = some ([sign, sign], rest)

namespace ClosesBy

variable {sign : Char} {lex : List Char → Option (List Char × List Char)}
  (closes : ClosesBy sign lex)

include closes

/-- A row of up to two signs before another character stands for itself. -/
theorem row {n : Nat} (short : n ≤ 2) {d : Char} (more : List Char) (other : d ≠ sign) :
    lex (List.replicate n sign ++ d :: more)
      = pushAll (List.replicate n sign) (lex (d :: more)) := by
  have one : lex (sign :: d :: more) = pushAll [sign] (lex (d :: more)) := by
    apply closes.alone
    intro rest equal
    exact other (List.cons.inj equal).1
  match n, short with
  | 0, _ => exact (pushAll_nil _).symm
  | 1, _ => exact one
  | 2, _ =>
    have two : lex (sign :: sign :: d :: more) = pushAll [sign] (lex (sign :: d :: more)) := by
      apply closes.alone
      intro rest equal
      exact other (List.cons.inj (List.cons.inj equal).2).1
    have split : List.replicate 2 sign ++ d :: more = sign :: sign :: d :: more := rfl
    rw [split, two, one, pushAll_pushAll]
    rfl

/-- A row of up to two signs before the closing ones belongs to the text. -/
theorem close {n : Nat} (short : n ≤ 2) {rest : List Char} (ends : rest.head? ≠ some sign) :
    lex (List.replicate n sign ++ sign :: sign :: sign :: rest)
      = some (List.replicate n sign, rest) := by
  match n, short with
  | 0, _ => exact closes.three rest ends
  | 1, _ => exact closes.four rest ends
  | 2, _ => exact closes.five rest

end ClosesBy

/-- One more sign behind a row lengthens the row. -/
theorem replicate_append_cons (n : Nat) (sign : Char) (more : List Char) :
    List.replicate n sign ++ sign :: more = List.replicate (n + 1) sign ++ more := by
  rw [List.replicate_succ', List.append_assoc, List.singleton_append]

/-- Where `rest` begins with another character, it does not begin with `sign`. -/
theorem ne_cons_of_head?_ne {sign : Char} {rest : List Char} (ends : rest.head? ≠ some sign)
    (more : List Char) : rest ≠ sign :: more := by
  rintro rfl
  exact ends rfl

/-- In three quotes all but the backslash stand for themselves, a quote if it is not one of
three. -/
theorem lexMultiBasic_cons {c : Char} {rest : List Char} (plain : isPlain c = true)
    (noEscape : c ≠ '\\') (alone : c = '"' → ∀ more, rest ≠ '"' :: '"' :: more) :
    lexMultiBasic false (c :: rest) = pushAll [c] (lexMultiBasic false rest) := by
  have stands : (isPlain c && c != '\\') = true := by
    rw [plain, Bool.true_and, bne_iff_ne]
    exact noEscape
  have noFolding : ¬ (false && isBlank c) = true := Bool.false_ne_true
  rw [lexMultiBasic, if_neg noFolding, if_pos stands, push_some]
  · intro _ quote equal
    exact alone quote _ equal
  · intro _ quote equal
    exact alone quote _ equal
  · intro _ quote equal
    exact alone quote _ equal
  · exact ne_newline_of_isPlain plain
  · intro _ equal _
    exact ne_return_of_isPlain plain equal
  · intro _ _ _ _ _ equal _
    exact noEscape equal
  · intro _ _ _ _ _ _ _ _ _ equal _
    exact noEscape equal
  · intro _ _ equal _
    exact noEscape equal

theorem closesBy_lexMultiBasic : ClosesBy '"' (lexMultiBasic false) where
  alone := by
    intro rest lone
    exact lexMultiBasic_cons rfl (by decide) (fun _ => lone)
  three := by
    intro rest ends
    rw [lexMultiBasic]
    · exact fun more => ne_cons_of_head?_ne ends ('"' :: more)
    · exact fun more => ne_cons_of_head?_ne ends more
  four := by
    intro rest ends
    rw [lexMultiBasic]
    exact fun more => ne_cons_of_head?_ne ends more
  five := by
    intro rest
    rw [lexMultiBasic]

/-- A letter behind a backslash is no end of a line. -/
theorem endsLine_of_unescape {e c : Char} (rest : List Char) (known : unescape e = some c) :
    endsLine (e :: rest) = false := by
  unfold unescape at known
  split at known
  case h_8 => cases known
  all_goals rfl

theorem readsEscapes_lexMultiBasic : ReadsEscapes true (lexMultiBasic false) where
  escape := by
    intro e c rest known
    obtain ⟨noUnit, noLong⟩ := ne_of_unescape known
    rw [lexMultiBasic, endsLine_of_unescape rest known, if_neg Bool.false_ne_true, known,
      push_some]
    · intro _ _ _ _ _ equal _
      exact noUnit equal
    · intro _ _ _ _ _ _ _ _ _ equal _
      exact noLong equal
  digits := by
    intro c rest small
    have named := escapedScalar_hexFour small
    simp only [hexFour, List.cons_append, List.nil_append] at named ⊢
    rw [lexMultiBasic, named, push_some]
  plain := by
    intro c rest plain noQuote noEscape
    exact lexMultiBasic_cons plain noEscape (fun quote => absurd quote noQuote)
  newline := by
    intro rest _
    rw [lexMultiBasic, if_neg Bool.false_ne_true, push_some]

/-- In three quotes a quote is escaped if two stand just before it. -/
theorem escapedFrom_quote_multi (row : Nat) (more : List Char) :
    escapedFrom true row ('"' :: more)
      = if row < 2 then '"' :: escapedFrom true (row + 1) more
        else '\\' :: '"' :: escapedFrom true 0 more := by
  rw [escapedFrom, Bool.true_and]
  by_cases short : row < 2
  · rw [decide_eq_true short, if_pos rfl, if_pos short]
  · rw [decide_eq_false short, if_neg Bool.false_ne_true, if_neg short]

/-- What `escapedFrom` writes, behind a `row` of quotes that are still to be read, is read by
`lexMultiBasic` up to the closing quotes. -/
theorem lexMultiBasic_escapedFrom {row : Nat} (short : row ≤ 2) (text : List Char)
    {rest : List Char} (ends : rest.head? ≠ some '"') :
    lexMultiBasic false (List.replicate row '"'
        ++ (escapedFrom true row text ++ '"' :: '"' :: '"' :: rest))
      = some (List.replicate row '"' ++ text, rest) := by
  induction text generalizing row with
  | nil =>
    rw [escapedFrom, List.nil_append, closesBy_lexMultiBasic.close short ends, List.append_nil]
  | cons c more ih =>
    by_cases quote : c = '"'
    · subst quote
      rw [escapedFrom_quote_multi]
      -- A quote that is not escaped joins the row before it, and nothing is read yet.
      by_cases pending : row < 2
      · rw [if_pos pending, List.cons_append, replicate_append_cons,
          ih (by omega), replicate_append_cons]
      · have next := ih (Nat.zero_le 2)
        rw [List.replicate_zero, List.nil_append, List.nil_append] at next
        rw [if_neg pending, List.cons_append, List.cons_append,
          closesBy_lexMultiBasic.row short _ (by decide), readsEscapes_lexMultiBasic.escape _ rfl,
          next, pushAll_some, pushAll_some, List.singleton_append]
    · have next := ih (Nat.zero_le 2)
      rw [List.replicate_zero, List.nil_append, List.nil_append] at next
      -- The row ends before any other character, which does not begin with a quote either.
      obtain ⟨d, others, shape, kind⟩ := escapedChar_eq_cons true c
      have other : d ≠ '"' := by
        rcases kind with rfl | ⟨rfl, -⟩
        · decide
        · exact quote
      have read := readsEscapes_lexMultiBasic.escapedChar
        (escapedFrom true 0 more ++ '"' :: '"' :: '"' :: rest) quote
      rw [shape, List.cons_append] at read
      rw [escapedFrom_cons true row more quote, List.append_assoc, shape, List.cons_append,
        closesBy_lexMultiBasic.row short _ other, read, next, pushAll_some, pushAll_some,
        List.singleton_append]

/-- In three apostrophes every character stands for itself, an apostrophe if it is not one of
three. -/
theorem lexMultiLiteral_cons {c : Char} {rest : List Char} (plain : isPlain c = true)
    (alone : c = '\'' → ∀ more, rest ≠ '\'' :: '\'' :: more) :
    lexMultiLiteral (c :: rest) = pushAll [c] (lexMultiLiteral rest) := by
  rw [lexMultiLiteral, if_pos plain, push_some]
  · intro _ sign equal
    exact alone sign _ equal
  · intro _ sign equal
    exact alone sign _ equal
  · intro _ sign equal
    exact alone sign _ equal
  · exact ne_newline_of_isPlain plain
  · intro _ equal _
    exact ne_return_of_isPlain plain equal

theorem closesBy_lexMultiLiteral : ClosesBy '\'' lexMultiLiteral where
  alone := by
    intro rest lone
    exact lexMultiLiteral_cons rfl (fun _ => lone)
  three := by
    intro rest ends
    rw [lexMultiLiteral]
    · exact fun more => ne_cons_of_head?_ne ends ('\'' :: more)
    · exact fun more => ne_cons_of_head?_ne ends more
  four := by
    intro rest ends
    rw [lexMultiLiteral]
    exact fun more => ne_cons_of_head?_ne ends more
  five := by
    intro rest
    rw [lexMultiLiteral]

/-- A text in three apostrophes, behind a `row` of apostrophes that are still to be read, is read by
`lexMultiLiteral` up to the closing apostrophes, if no row in it is longer than two. -/
theorem lexMultiLiteral_append {row : Nat} {text : List Char}
    (shown : ∀ c ∈ text, isControl c = false) (runs : longestRun '\'' row text ≤ 2)
    {rest : List Char} (ends : rest.head? ≠ some '\'') :
    lexMultiLiteral (List.replicate row '\'' ++ (text ++ '\'' :: '\'' :: '\'' :: rest))
      = some (List.replicate row '\'' ++ text, rest) := by
  induction text generalizing row with
  | nil =>
    rw [longestRun] at runs
    rw [List.nil_append, closesBy_lexMultiLiteral.close runs ends, List.append_nil]
  | cons c more ih =>
    rw [List.forall_mem_cons] at shown
    by_cases sign : c = '\''
    · subst sign
      rw [longestRun, if_pos rfl] at runs
      rw [List.cons_append, replicate_append_cons, ih shown.2 runs,
        replicate_append_cons]
    · rw [longestRun, if_neg sign, Nat.max_le] at runs
      have next := ih shown.2 runs.2
      rw [List.replicate_zero, List.nil_append, List.nil_append] at next
      have read : ∀ behind, lexMultiLiteral (c :: behind)
          = pushAll [c] (lexMultiLiteral behind) := by
        intro behind
        by_cases line : c = '\n'
        · subst line
          rw [lexMultiLiteral, push_some]
        · exact lexMultiLiteral_cons (isPlain_of_not_isControl shown.1 line)
            (fun equal => absurd equal sign)
      rw [List.cons_append, closesBy_lexMultiLiteral.row runs.1 _ sign, read, next, pushAll_some,
        pushAll_some, List.singleton_append]

/-! ### Strings -/

theorem le_longestRun (c : Char) (row : Nat) (text : List Char) : row ≤ longestRun c row text := by
  induction text generalizing row with
  | nil => exact Nat.le_refl row
  | cons d more ih =>
    rw [longestRun]
    by_cases equal : d = c
    · rw [if_pos equal]
      exact Nat.le_of_succ_le (ih (row + 1))
    · rw [if_neg equal]
      exact Nat.le_max_left _ _

/-- A character whose `longestRun` has no length does not occur. -/
theorem not_mem_of_longestRun_eq_zero {c : Char} {text : List Char}
    (none : longestRun c 0 text = 0) : c ∉ text := by
  induction text with
  | nil => exact List.not_mem_nil
  | cons d more ih =>
    rw [longestRun] at none
    by_cases equal : d = c
    · have longer := le_longestRun c (0 + 1) more
      rw [if_pos equal] at none
      omega
    · rw [if_neg equal, Nat.max_eq_zero_iff] at none
      intro member
      rcases List.mem_cons.mp member with rfl | later
      · exact equal rfl
      · exact ih none.2 later

/-- The `form` can enclose `text`. -/
structure Form.Suits (form : Form) (text : List Char) : Prop where
  /-- Apostrophes on one line enclose a text of one line without apostrophes. -/
  literal : form = .literal →
    text ≠ [] ∧ (∀ c ∈ text, isControl c = false ∧ c ≠ '\n') ∧ '\'' ∉ text
  /-- Three apostrophes enclose a text without rows of three. -/
  multiLiteral : form = .multiLiteral →
    (∀ c ∈ text, isControl c = false) ∧ longestRun '\'' 0 text ≤ 2

/-- What `Form.of` chooses suits the text. -/
theorem Form.suits_of (text : List Char) : (Form.of text).Suits text := by
  have shown : ¬ text.any isControl = true → ∀ c ∈ text, isControl c = false := by
    intro none c member
    apply Bool.eq_false_iff.mpr
    intro control
    exact none (List.any_eq_true.mpr ⟨c, member, control⟩)
  have oneLine : ¬ text.contains '\n' = true → ∀ c ∈ text, c ≠ '\n' := by
    rintro none c member rfl
    exact none (List.contains_iff_mem.mpr member)
  unfold Form.of
  simp only [Bool.and_eq_true, Bool.not_eq_true', decide_eq_true_eq, ← Bool.not_eq_true]
  -- One branch for each form that is tried; only those in apostrophes have to be looked at.
  split
  · exact ⟨nofun, nofun⟩
  · rename_i notBasic
    split
    · rename_i one
      refine ⟨fun _ => ⟨?_, ?_, not_mem_of_longestRun_eq_zero one.1.2⟩, nofun⟩
      · rintro rfl
        exact notBasic (by decide)
      · intro c member
        exact ⟨shown one.1.1 c member, oneLine one.2 c member⟩
    · split
      · exact ⟨nofun, nofun⟩
      · split
        · rename_i several
          exact ⟨nofun, fun _ => ⟨shown several.1, several.2⟩⟩
        · split <;> exact ⟨nofun, nofun⟩

/-- Nothing at the front of `rest` lengthens a string before it. -/
def EndsText (rest : List Char) : Prop := rest.head? ≠ some '"' ∧ rest.head? ≠ some '\''

/-- What `escapedFrom` writes begins with a quote, a backslash or a character that is shown as it
stands. -/
theorem escapedFrom_eq_cons (multi : Bool) (c : Char) (more : List Char) :
    ∃ d others, escapedFrom multi 0 (c :: more) = d :: others
      ∧ (d = '\\' ∨ (multi = true ∧ d = '"') ∨ (d = c ∧ c ≠ '"' ∧ isControl c = false)) := by
  by_cases quote : c = '"'
  · subst quote
    cases multi with
    | false => exact ⟨'\\', _, escapedFrom_quote 0 more, Or.inl rfl⟩
    | true =>
      exact ⟨'"', _, (escapedFrom_quote_multi 0 more).trans (if_pos (by decide)),
        Or.inr (Or.inl ⟨rfl, rfl⟩)⟩
  · obtain ⟨d, others, shape, kind⟩ := escapedChar_eq_cons multi c
    refine ⟨d, others ++ escapedFrom multi 0 more, ?_, ?_⟩
    · rw [escapedFrom_cons multi 0 more quote, shape, List.cons_append]
    · rcases kind with escaped | ⟨equal, shown⟩
      · exact Or.inl escaped
      · exact Or.inr (Or.inr ⟨equal, quote, shown⟩)

/-- A sign at the front opens a form of one line unless two more follow. -/
theorem lexString_eq_lexLine {sign : Char} {rest : List Char}
    (alone : ∀ more, rest ≠ sign :: sign :: more) :
    lexString (sign :: rest) = lexLine (sign :: rest) := by
  rw [lexString]
  · intro more equal
    obtain ⟨rfl, behind⟩ := List.cons.inj equal
    exact alone more behind
  · intro more equal
    obtain ⟨rfl, behind⟩ := List.cons.inj equal
    exact alone more behind

/-- A text in quotes on one line is read by `lexString` as that text. -/
theorem lexString_basic (text : List Char) {rest : List Char} (ends : EndsText rest) :
    lexString ('"' :: (escapedFrom false 0 text ++ '"' :: rest)) = some (text, rest) := by
  -- Two more quotes would open several lines; behind an empty text there is only the closing one.
  have alone : ∀ more, escapedFrom false 0 text ++ '"' :: rest ≠ '"' :: '"' :: more := by
    intro more equal
    cases text with
    | nil => exact ne_cons_of_head?_ne ends.1 more (List.cons.inj equal).2
    | cons c others =>
      obtain ⟨d, behind, shape, kind⟩ := escapedFrom_eq_cons false c others
      rw [shape, List.cons_append] at equal
      have first : d = '"' := (List.cons.inj equal).1
      rcases kind with rfl | ⟨multi, -⟩ | ⟨rfl, noQuote, -⟩
      · cases first
      · cases multi
      · exact noQuote first
  rw [lexString_eq_lexLine alone, lexLine, lexBasic_escapedFrom]

/-- A text of one line in apostrophes is read by `lexString` as that text. -/
theorem lexString_literal {text : List Char} (rest : List Char) (some : text ≠ [])
    (shown : ∀ c ∈ text, isControl c = false ∧ c ≠ '\n') (noSign : '\'' ∉ text) :
    lexString ('\'' :: (text ++ '\'' :: rest)) = .some (text, rest) := by
  have plain : ∀ c ∈ text, isPlain c = true ∧ c ≠ '\'' := by
    intro c member
    refine ⟨isPlain_of_not_isControl (shown c member).1 (shown c member).2, ?_⟩
    rintro rfl
    exact noSign member
  have alone : ∀ more, text ++ '\'' :: rest ≠ '\'' :: '\'' :: more := by
    intro more equal
    cases text with
    | nil => exact some rfl
    | cons c others =>
      rw [List.cons_append] at equal
      exact (plain c List.mem_cons_self).2 (List.cons.inj equal).1
  rw [lexString_eq_lexLine alone, lexLine, lexLiteral_append rest plain]

/-- Only a line feed or a carriage return can begin the end of a line. -/
theorem newline?_eq_none {c : Char} (rest : List Char) (noFeed : c ≠ '\n') (noReturn : c ≠ '\r') :
    newline? (c :: rest) = none := by
  unfold newline?
  split
  case h_1 equal => exact absurd (List.cons.inj equal).1 noFeed
  case h_2 equal => exact absurd (List.cons.inj equal).1 noReturn
  case h_3 => rfl

/-- The line end that opens a form of several lines is taken off by `dropNewline`; without one, the
text is left as it stands. -/
theorem dropNewline_append {text behind : List Char}
    (first : '\n' ∉ text → ∀ d ∈ behind.head?, d ≠ '\n' ∧ d ≠ '\r') :
    dropNewline ((if text.contains '\n' then ['\n'] else []) ++ behind) = behind := by
  by_cases lines : text.contains '\n' = true
  · rw [if_pos lines]
    rfl
  · have noLine : '\n' ∉ text := fun member => lines (List.contains_iff_mem.mpr member)
    rw [if_neg lines, List.nil_append]
    cases behind with
    | nil => rfl
    | cons d others =>
      obtain ⟨noFeed, noReturn⟩ := first noLine d rfl
      rw [dropNewline, newline?_eq_none others noFeed noReturn, Option.getD_none]

/-- A text in three quotes is read by `lexString` as that text. -/
theorem lexString_multiBasic (text : List Char) {rest : List Char} (ends : EndsText rest) :
    lexString ('"' :: '"' :: '"' :: ((if text.contains '\n' then ['\n'] else [])
        ++ (escapedFrom true 0 text ++ '"' :: '"' :: '"' :: rest)))
      = some (text, rest) := by
  have read := lexMultiBasic_escapedFrom (Nat.zero_le 2) text ends.1
  rw [List.replicate_zero, List.nil_append, List.nil_append] at read
  rw [lexString, dropNewline_append, read]
  intro noLine d head
  cases text with
  | nil =>
    cases head
    exact ⟨by decide, by decide⟩
  | cons c more =>
    obtain ⟨e, others, shape, kind⟩ := escapedFrom_eq_cons true c more
    rw [shape] at head
    cases head
    rcases kind with rfl | ⟨-, rfl⟩ | ⟨rfl, -, shown⟩
    · exact ⟨by decide, by decide⟩
    · exact ⟨by decide, by decide⟩
    · refine ⟨?_, ?_⟩
      · rintro rfl
        exact noLine List.mem_cons_self
      · rintro rfl
        cases shown

/-- A text in three apostrophes is read by `lexString` as that text. -/
theorem lexString_multiLiteral {text rest : List Char} (shown : ∀ c ∈ text, isControl c = false)
    (runs : longestRun '\'' 0 text ≤ 2) (ends : EndsText rest) :
    lexString ('\'' :: '\'' :: '\'' :: ((if text.contains '\n' then ['\n'] else [])
        ++ (text ++ '\'' :: '\'' :: '\'' :: rest)))
      = some (text, rest) := by
  have read := lexMultiLiteral_append shown runs ends.2
  rw [List.replicate_zero, List.nil_append, List.nil_append] at read
  rw [lexString, dropNewline_append, read]
  intro noLine d head
  cases text with
  | nil =>
    cases head
    exact ⟨by decide, by decide⟩
  | cons c more =>
    cases head
    refine ⟨?_, ?_⟩
    · rintro rfl
      exact noLine List.mem_cons_self
    · rintro rfl
      cases shown '\r' List.mem_cons_self

/-- For every text, what `writeText` writes is read by `lexString` as that text, up to where its
string ends. -/
theorem lexString_writeText (text : List Char) {rest : List Char} (ends : EndsText rest) :
    lexString (writeText text ++ rest) = some (text, rest) := by
  have suits := Form.suits_of text
  rw [writeText]
  cases form : Form.of text with
  | basic =>
    simp only [Form.delimiter, Form.opening, body, List.append_assoc, List.cons_append,
      List.nil_append]
    exact lexString_basic text ends
  | literal =>
    obtain ⟨some, shown, noSign⟩ := suits.literal form
    simp only [Form.delimiter, Form.opening, body, List.append_assoc, List.cons_append,
      List.nil_append]
    exact lexString_literal rest some shown noSign
  | multiBasic =>
    simp only [Form.delimiter, Form.opening, body, List.append_assoc, List.cons_append,
      List.nil_append]
    exact lexString_multiBasic text ends
  | multiLiteral =>
    obtain ⟨shown, runs⟩ := suits.multiLiteral form
    simp only [Form.delimiter, Form.opening, body, List.append_assoc, List.cons_append,
      List.nil_append]
    exact lexString_multiLiteral shown runs ends

end Wordbook.Toml
