import Mathlib.Data.List.Forall2
import Wordbook.Json.Token
import Wordbook.Json.Value
import Wordbook.Proofs.Text.Spelling

/-!
# JSON strings read back

A text that is written as a string is what the string stands for.

## Main Statements

* `lexText_escapedChar` — a written character is read as one piece
* `assemble_of_spells` — pieces that spell the characters of a text are put together to that text
* `lexString_escaped` — a written text is read as that text

## Design Notes

A character is written in one of three ways: as it is, with a letter behind a backslash, or with its
code point.  The first two are read as the character, the third as a code unit.  What a string
stands for shows only when its pieces are put together, so the two steps are kept apart here too:
the piece that is read `Spells` the character that was written.
-/

namespace Wordbook.Json

open Wordbook.Text

/-- The `piece` stands for `c` by itself: it is the character, or its code point. -/
def Piece.Spells (piece : Piece) (c : Char) : Prop := piece = .char c ∨ piece = .unit c.toNat

/-- The code point of a character is no first half of a pair. -/
theorem isHighSurrogate_toNat (c : Char) : isHighSurrogate c.toNat = false := by
  have valid : c.toNat.isValidChar := c.valid
  rw [isHighSurrogate, Bool.and_eq_false_iff, decide_eq_false_iff_not, decide_eq_false_iff_not]
  rcases valid with below | above <;> omega

/-- The code point of `c` stands for `c`, whatever piece follows. -/
theorem assemble_unit (c : Char) (more : List Piece) :
    assemble (.unit c.toNat :: more) = (assemble more).map (c :: ·) := by
  have alone : isHighSurrogate c.toNat = false := isHighSurrogate_toNat c
  cases more with
  | nil => simp [assemble, scalar?_toNat]
  | cons next rest =>
    cases next with
    | char d =>
      simp only [assemble, scalar?_toNat]
      cases assemble rest <;> rfl
    | unit m =>
      -- Here a first half of a pair would be put together with the unit that follows.
      rw [assemble, alone, scalar?_toNat, if_neg Bool.false_ne_true]
      cases assemble (.unit m :: rest) <;> rfl

/-- Pieces that spell the characters of a text are put together by `assemble` to that text. -/
theorem assemble_of_spells {pieces : List Piece} {text : List Char}
    (spells : List.Forall₂ Piece.Spells pieces text) : assemble pieces = some text := by
  induction spells with
  | nil => rfl
  | cons first _ ih =>
    rcases first with rfl | rfl
    · rw [assemble, ih]
      rfl
    · rw [assemble_unit, ih]
      rfl

/-- An escape of one letter is read by `lexText` as the character it stands for. -/
theorem lexText_escape {e c : Char} (rest : List Char) (known : unescape e = some c) :
    lexText ('\\' :: e :: rest)
      = (lexText rest).map (fun found => (.char c :: found.1, found.2)) := by
  have noUnit : e ≠ 'u' := by
    rintro rfl
    cases known
  rw [lexText, known]
  · cases lexText rest <;> rfl
  · intro _ _ _ _ _ equal _
    exact noUnit equal

/-- Four hexadecimal digits are read by `lexText` as a code unit. -/
theorem lexText_unit {n : Nat} {w x y z : Char} (rest : List Char)
    (number : hexNumber [w, x, y, z] = some n) :
    lexText ('\\' :: 'u' :: w :: x :: y :: z :: rest)
      = (lexText rest).map (fun found => (.unit n :: found.1, found.2)) := by
  rw [lexText, number]
  cases lexText rest <;> rfl

/-- A character that needs no escape is read by `lexText` as itself. -/
theorem lexText_plain {c : Char} (rest : List Char) (noQuote : c ≠ '"') (noEscape : c ≠ '\\')
    (visible : ¬ c < ' ') :
    lexText (c :: rest) = (lexText rest).map (fun found => (.char c :: found.1, found.2)) := by
  rw [lexText]
  · rw [if_neg (not_or.mpr ⟨noEscape, visible⟩)]
    cases lexText rest <;> rfl
  · exact noQuote
  · intro _ _ _ _ _ equal _
    exact noEscape equal
  · intro _ _ equal _
    exact noEscape equal

/-- What `escapedChar` writes is read as one piece that spells `c`, whatever follows. -/
theorem lexText_escapedChar (c : Char) :
    ∃ piece : Piece, piece.Spells c ∧ ∀ rest, lexText (escapedChar c ++ rest)
      = (lexText rest).map (fun found => (piece :: found.1, found.2)) := by
  unfold escapedChar
  -- All characters with an escape of one letter are alike.
  split
  case h_8 noQuote noEscape _ _ _ _ _ =>
    by_cases control : c < ' '
    · have below : c.toNat < 32 := control
      refine ⟨.unit c.toNat, Or.inr rfl, ?_⟩
      intro rest
      rw [if_pos control]
      exact lexText_unit rest (hexNumber_hexFour false (by omega))
    · refine ⟨.char c, Or.inl rfl, ?_⟩
      intro rest
      rw [if_neg control]
      exact lexText_plain rest noQuote noEscape control
  all_goals exact ⟨.char _, Or.inl rfl, fun rest => lexText_escape rest rfl⟩

/-- What `escaped` writes is read up to the closing quote, in pieces that spell the text. -/
theorem lexText_escaped (text rest : List Char) :
    ∃ pieces, List.Forall₂ Piece.Spells pieces text ∧
      lexText (escaped text ++ '"' :: rest) = some (pieces, rest) := by
  induction text with
  | nil => exact ⟨[], .nil, by rw [escaped, List.flatMap_nil, List.nil_append, lexText]⟩
  | cons c more ih =>
    obtain ⟨pieces, spell, found⟩ := ih
    obtain ⟨piece, spells, read⟩ := lexText_escapedChar c
    refine ⟨piece :: pieces, .cons spells spell, ?_⟩
    rw [escaped, List.flatMap_cons, List.append_assoc, read, ← escaped, found]
    rfl

/-- What `escaped` writes is read by `lexString` as the text. -/
theorem lexString_escaped (text : List Char) (rest : List Char) :
    lexString (escaped text ++ '"' :: rest) = some (some (String.ofList text), rest) := by
  obtain ⟨pieces, spell, found⟩ := lexText_escaped text rest
  simp only [lexString, found, Option.map_some, assemble_of_spells spell]

/-- What `writeText` writes is one token: the text. -/
theorem lexToken_writeText (s : String) (rest : List Char) :
    lexToken (writeText s ++ rest) = some (.text (some s), rest) := by
  rw [writeText, List.cons_append, List.cons_append, List.append_assoc, List.singleton_append,
    lexToken, lexString_escaped, Option.map_some, String.ofList_toList]

end Wordbook.Json
