import Wordbook.Proofs.Json.Grammar
import Wordbook.Proofs.Json.Value

/-!
# JSON texts read by the grammar

A text that `Denotes` a datum is read by `read` as a tree that `Holds` it.

## Main Statements

* `Literal.lexUnsigned_append` — the text of a number is read up to its end
* `tokens_of_stringText` — the text of a string is one token, what it denotes
* `tokens_of_spells` — the text of a datum falls into the tokens of a tree that holds it
* `read_of_denotes` — a text that denotes a datum is read as a tree that holds it

## Design Notes

A text is read from its front, so the statements speak of it together with any rest behind it; only
a number needs to know that the rest does not carry it on.  The tree is found before the rest is
given: what is read of a part does not depend on what follows.
-/

namespace Wordbook.Json

open Wordbook.Text

/-! ### White space -/

theorem isSpace_of_isGap {gap : List Char} (isGap : IsGap gap) : ∀ c ∈ gap, isSpace c = true := by
  intro c member
  rcases isGap c member with rfl | rfl | rfl | rfl <;> rfl

theorem tokens_gap {gap : List Char} (isGap : IsGap gap) (rest : List Char) :
    tokens (gap ++ rest) = tokens rest := by
  have spaces := isSpace_of_isGap isGap
  clear isGap
  induction gap with
  | nil => rfl
  | cons c more ih =>
    rw [List.forall_mem_cons] at spaces
    rw [List.cons_append, tokens_space _ spaces.1, ih spaces.2]

theorem endsNumber_gap {gap rest : List Char} (isGap : IsGap gap) (ends : EndsNumber rest) :
    EndsNumber (gap ++ rest) := by
  cases gap with
  | nil => exact ends
  | cons c more =>
    apply endsNumber_cons
    rcases isGap c List.mem_cons_self with rfl | rfl | rfl | rfl <;> decide

/-! ### Numbers -/

/-- Where `EndsNumber` holds, no digit follows. -/
theorem noDigit_of_endsNumber {rest : List Char} (ends : EndsNumber rest) :
    ∀ c ∈ rest.head?, c.isDigit = false := fun c present => (ends c present).1

/-- An exponent is read by `lexExponent` up to its end. -/
theorem lexExponent_append {power : List Char} {e : Int} (times : ExponentText e power) :
    ∃ exponent, ∀ rest, EndsNumber rest → lexExponent (power ++ rest) = some (exponent, rest) := by
  cases times with
  | absent => exact ⟨none, fun rest ends => lexExponent_of_endsNumber ends⟩
  | @present mark negative sign digits marks signed are =>
    refine ⟨some (negative, digits), fun rest ends => ?_⟩
    have read := lexDigits_append are.2 (noDigit_of_endsNumber ends)
    -- A digit is no sign, so a missing sign is not mistaken.
    have sign : lexSign (sign ++ (digits ++ rest)) = (negative, digits ++ rest) := by
      cases signed with
      | absent =>
        cases digits with
        | nil => exact absurd rfl are.1
        | cons d more =>
          have digit := are.2 d List.mem_cons_self
          rw [List.nil_append, List.cons_append, lexSign.eq_def]
          split <;> first | rfl | (rename_i equal; cases equal; cases digit)
      | plus => rfl
      | minus => rfl
    rw [List.cons_append, List.cons_append, List.append_assoc, lexExponent, if_pos marks, sign,
      read]
    cases digits with
    | nil => exact absurd rfl are.1
    | cons d more => rfl

/-- A fraction is read by `lexFraction` up to its end. -/
theorem lexFraction_append {behind fraction rest : List Char} (point : FractionText behind fraction)
    (ends : ∀ c ∈ rest.head?, c.isDigit = false ∧ c ≠ '.') :
    lexFraction (fraction ++ rest) = some (behind, rest) := by
  cases point with
  | absent =>
    rw [List.nil_append, lexFraction.eq_def]
    split
    · exact absurd rfl (ends '.' rfl).2
    · rfl
  | present are =>
    rw [List.cons_append, lexFraction, lexDigits_append are.2 (fun c present => (ends c present).1)]
    cases behind with
    | nil => exact absurd rfl are.1
    | cons d more => rfl

/-- The text of a number without a sign is read by `lexUnsigned` up to its end. -/
theorem Literal.lexUnsigned_append {x : Rat} {cs : List Char} (spelled : UnsignedText x cs)
    (negative : Bool) :
    ∃ l, ∀ rest, EndsNumber rest → lexUnsigned negative (cs ++ rest) = some (l, rest) := by
  obtain @⟨whole, behind, fraction, power, e, before, point, times⟩ := spelled
  obtain ⟨exponent, read⟩ := lexExponent_append times
  refine ⟨⟨negative, whole, behind, exponent⟩, fun rest ends => ?_⟩
  -- An exponent begins with its mark, which carries neither a fraction nor digits on.
  have endsFraction : ∀ c ∈ (power ++ rest).head?, c.isDigit = false ∧ c ≠ '.' := by
    cases times with
    | absent => exact fun c present => ⟨(ends c present).1, (ends c present).2.1⟩
    | present marks _ _ =>
      intro c present
      cases present
      rcases marks with rfl | rfl <;> decide
  have endsWhole : ∀ c ∈ (fraction ++ (power ++ rest)).head?, c.isDigit = false := by
    cases point with
    | absent => exact fun c present => (endsFraction c present).1
    | present _ =>
      intro c present
      cases present
      rfl
  rw [List.append_assoc, List.append_assoc]
  simp only [lexUnsigned, lexWhole_append before.1.1 before.1.2 before.2 endsWhole,
    lexFraction_append point endsFraction, read rest ends, Option.bind_eq_bind, Option.bind_some]

/-- The tree of a literal holds every number, since `Tree.Holds` does not look at its value. -/
theorem Literal.holds_tree (l : Literal) (x : Rat) :
    Tree.Holds l.tree (.number x) ∧ tokensOf l.tree = [.scalar l.tree] := by
  unfold Literal.tree
  split
  · exact ⟨.integer _ x, rfl⟩
  · split
    · exact ⟨.unreadable x, rfl⟩
    · exact ⟨.float _ x, rfl⟩

/-- The text of a number without a sign begins with a digit. -/
theorem eq_cons_of_unsignedText {x : Rat} {cs : List Char} (spelled : UnsignedText x cs) :
    ∃ d more, cs = d :: more ∧ d.isDigit = true := by
  obtain @⟨whole, _, fraction, power, _, before, _, _⟩ := spelled
  cases whole with
  | nil => exact absurd rfl before.1.1
  | cons d more => exact ⟨d, more ++ fraction ++ power, rfl, before.1.2 d List.mem_cons_self⟩

/-- The text of a number is one token, the tree of a number. -/
theorem tokens_of_numberText {x : Rat} {cs : List Char} (spelled : NumberText x cs) :
    ∃ t, Tree.Holds t (.number x) ∧
      ∀ rest, EndsNumber rest → tokens (cs ++ rest) = tokensOf t ++ tokens rest := by
  cases spelled with
  | positive unsigned =>
    obtain ⟨l, read⟩ := Literal.lexUnsigned_append unsigned false
    obtain ⟨holds, single⟩ := l.holds_tree x
    refine ⟨l.tree, holds, fun rest ends => ?_⟩
    have found := read rest ends
    obtain ⟨d, more, rfl, digit⟩ := eq_cons_of_unsignedText unsigned
    rw [List.cons_append] at found ⊢
    rw [single, List.singleton_append]
    apply tokens_cons (isSpace_of_isDigit digit)
    rw [lexToken_of_isDigit _ digit, found, Option.map_some]
  | @negative x cs unsigned =>
    obtain ⟨l, read⟩ := Literal.lexUnsigned_append unsigned true
    obtain ⟨holds, single⟩ := l.holds_tree (-x)
    refine ⟨l.tree, holds, fun rest ends => ?_⟩
    have scalar : lexScalar ('-' :: (cs ++ rest)) = some (l.tree, rest) := by
      show (Literal.lexUnsigned true (cs ++ rest)).map _ = _
      rw [read rest ends, Option.map_some]
    rw [single, List.singleton_append]
    apply tokens_cons rfl
    show (lexScalar ('-' :: (cs ++ rest))).map _ = _
    rw [scalar, Option.map_some]

/-! ### Strings -/

/-- Four hexadecimal digits are read by `lexText` as the code unit they name. -/
theorem lexText_of_hexText {n : Nat} {digits : List Char} (four : digits.length = 4)
    (names : HexText n digits) (rest : List Char) :
    lexText ('\\' :: 'u' :: (digits ++ rest))
      = (lexText rest).map (fun found => (.unit n :: found.1, found.2)) := by
  have number := hexNumber_of_hexText names
  match digits, four with
  | [_, _, _, _], _ => exact lexText_unit rest number

/-- A short escape is read by `unescape` as the character it stands for. -/
theorem unescape_of_mem {e c : Char} (known : (e, c) ∈ shortEscapes) : unescape e = some c := by
  have all : ∀ escape ∈ shortEscapes, unescape escape.1 = some escape.2 := by decide
  exact all (e, c) known

/-- The code units of a surrogate pair are put together by `assemble` to one character. -/
theorem assemble_pair {c : Char} {high low : Nat} (more : List Piece)
    (isHigh : 0xd800 ≤ high ∧ high < 0xdc00) (isLow : 0xdc00 ≤ low ∧ low < 0xe000)
    (names : c.toNat = 0x10000 + (high - 0xd800) * 0x400 + (low - 0xdc00)) :
    assemble (.unit high :: .unit low :: more) = (assemble more).map (c :: ·) := by
  have first : isHighSurrogate high = true := by
    rw [isHighSurrogate, Bool.and_eq_true, decide_eq_true_eq, decide_eq_true_eq]
    exact isHigh
  have second : isLowSurrogate low = true := by
    rw [isLowSurrogate, Bool.and_eq_true, decide_eq_true_eq, decide_eq_true_eq]
    exact isLow
  have value : pairValue high low = c.toNat := by
    rw [pairValue, names]
    omega
  rw [assemble, if_pos first, if_pos second, value, scalar?_toNat]
  cases assemble more <;> rfl

/-- The text of a character is read in pieces that `assemble` puts together to it, whatever
follows. -/
theorem lexText_of_charText {c : Char} {cs : List Char} (spelled : CharText c cs) :
    ∃ pieces, (∀ rest, lexText (cs ++ rest)
        = (lexText rest).map (fun found => (pieces ++ found.1, found.2)))
      ∧ ∀ more, assemble (pieces ++ more) = (assemble more).map (c :: ·) := by
  cases spelled with
  | plain visible noQuote noBackslash =>
    exact ⟨[.char c], fun rest => lexText_plain rest noQuote noBackslash (Char.not_lt.mpr visible),
      fun more => by rw [List.singleton_append, assemble]⟩
  | short known =>
    exact ⟨[.char c], fun rest => lexText_escape rest (unescape_of_mem known),
      fun more => by rw [List.singleton_append, assemble]⟩
  | point four names =>
    exact ⟨[.unit c.toNat], fun rest => lexText_of_hexText four names rest,
      fun more => assemble_unit c more⟩
  | @pair _ high low digits more four first fourMore second isHigh isLow names =>
    refine ⟨[.unit high, .unit low], fun rest => ?_,
      fun more => assemble_pair more isHigh isLow names⟩
    rw [List.cons_append, List.cons_append, List.cons_append, List.cons_append, List.append_assoc,
      lexText_of_hexText four first, List.cons_append, List.cons_append,
      lexText_of_hexText fourMore second]
    cases lexText rest <;> rfl

/-- The characters of a text are read up to the closing quote, in pieces that `assemble` puts
together to the text. -/
theorem lexText_of_spelled {text body : List Char} (spelled : Spelled CharText text body) :
    ∃ pieces, (∀ rest, lexText (body ++ '"' :: rest) = some (pieces, rest))
      ∧ assemble pieces = some text := by
  induction spelled with
  | nil => exact ⟨[], fun rest => by rw [List.nil_append, lexText], rfl⟩
  | cons first _ ih =>
    obtain ⟨front, readFront, assembleFront⟩ := lexText_of_charText first
    obtain ⟨pieces, read, assembled⟩ := ih
    refine ⟨front ++ pieces, fun rest => ?_, ?_⟩
    · rw [List.append_assoc, readFront, read, Option.map_some]
    · rw [assembleFront, assembled, Option.map_some]

/-- The text of a string is one token: what it denotes. -/
theorem tokens_of_stringText {s : String} {cs : List Char} (spelled : StringText s cs)
    (rest : List Char) : tokens (cs ++ rest) = .text (some s) :: tokens rest := by
  obtain ⟨spelled⟩ := spelled
  obtain ⟨pieces, read, assembled⟩ := lexText_of_spelled spelled
  rw [List.append_assoc, List.cons_append, List.singleton_append]
  apply tokens_cons rfl
  simp only [lexToken, lexString, read, Option.map_some, assembled, String.ofList_toList]

/-! ### Data -/

theorem tokens_of_stringText_colon {key : String} {front name gap before : List Char}
    (leads : IsGap front) (named : StringText key name) (parts : IsGap gap) (opens : IsGap before)
    (rest : List Char) :
    tokens (front ++ name ++ gap ++ ':' :: (before ++ rest))
      = .text (some key) :: .colon :: tokens rest := by
  rw [List.append_assoc, List.append_assoc, tokens_gap leads, tokens_of_stringText named,
    tokens_gap parts, tokens_sign _ rfl, tokens_gap opens]

mutual

/-- What spells a datum falls into the tokens of a tree that `Holds` it, before any text that does
not carry a number on. -/
theorem tokens_of_spells (v : Datum) {cs : List Char} (spelled : Spells v cs) :
    ∃ t, Tree.Holds t v ∧
      ∀ rest, EndsNumber rest → tokens (cs ++ rest) = tokensOf t ++ tokens rest := by
  match v with
  | .null =>
    cases spelled
    exact ⟨.null, .null, fun _ _ => tokens_cons rfl rfl⟩
  | .bool _ =>
    cases spelled with
    | yes => exact ⟨.bool true, .bool true, fun _ _ => tokens_cons rfl rfl⟩
    | no => exact ⟨.bool false, .bool false, fun _ _ => tokens_cons rfl rfl⟩
  | .number _ =>
    cases spelled with
    | number spelled => exact tokens_of_numberText spelled
  | .text s =>
    cases spelled with
    | text spelled => exact ⟨.text s, .text s, fun rest _ => tokens_of_stringText spelled rest⟩
  | .list items =>
    cases spelled with
    | emptyList isGap =>
      refine ⟨.list [] true, .list .nil, fun rest _ => ?_⟩
      rw [List.append_assoc, List.cons_append, tokens_sign _ rfl, tokens_gap isGap,
        List.singleton_append, tokens_sign _ rfl]
      rfl
    | list spelled =>
      obtain ⟨trees, held, read⟩ := tokens_of_spellsItems items spelled
      refine ⟨.list trees true, .list held, fun rest _ => ?_⟩
      have inside := read (']' :: rest) (endsNumber_cons (by decide))
      rw [List.append_assoc, List.cons_append, tokens_sign _ rfl, List.singleton_append]
      cases trees with
      | nil =>
        cases held
        cases spelled
      | cons t more =>
        rw [itemTokens, List.cons_append, List.cons_append] at inside
        rw [(List.cons.inj inside).2, tokens_sign _ rfl, tokensOf]
        simp only [List.append_assoc, List.cons_append, List.nil_append]
  | .table members =>
    cases spelled with
    | emptyTable isGap =>
      refine ⟨.table [] true, .table .nil (.refl _), fun rest _ => ?_⟩
      rw [List.append_assoc, List.cons_append, tokens_sign _ rfl, tokens_gap isGap,
        List.singleton_append, tokens_sign _ rfl]
      rfl
    | table spelled =>
      obtain ⟨trees, held, read⟩ := tokens_of_spellsMembers members spelled
      refine ⟨.table trees true, .table held (.refl _), fun rest _ => ?_⟩
      have inside := read ('}' :: rest) (endsNumber_cons (by decide))
      rw [List.append_assoc, List.cons_append, tokens_sign _ rfl, List.singleton_append]
      cases held with
      | nil => cases spelled
      | cons key first others =>
        rw [memberTokens] at inside
        simp only [List.cons_append] at inside
        rw [(List.cons.inj inside).2, tokens_sign _ rfl, tokensOf]
        simp only [List.append_assoc, List.cons_append, List.nil_append]

/-- What spells the items of a list falls into the tokens of trees that hold them, but for a comma
in front. -/
theorem tokens_of_spellsItems (items : List Datum) {cs : List Char}
    (spelled : SpellsItems items cs) :
    ∃ trees, List.Forall₂ Tree.Holds trees items ∧ ∀ rest, EndsNumber rest →
      .comma :: tokens (cs ++ rest) = itemTokens trees ++ tokens rest := by
  match items with
  | [] => cases spelled
  | v :: more =>
    cases spelled with
    | last opens spelled closes =>
      obtain ⟨t, holds, read⟩ := tokens_of_spells v spelled
      refine ⟨[t], .cons holds .nil, fun rest ends => ?_⟩
      rw [List.append_assoc, List.append_assoc, tokens_gap opens,
        read _ (endsNumber_gap closes ends), tokens_gap closes, itemTokens, itemTokens,
        List.append_nil, List.cons_append]
    | more opens spelled closes others =>
      obtain ⟨t, holds, read⟩ := tokens_of_spells v spelled
      obtain ⟨trees, held, readOthers⟩ := tokens_of_spellsItems more others
      refine ⟨t :: trees, .cons holds held, fun rest ends => ?_⟩
      have parts : ∀ ds, EndsNumber (',' :: ds) := fun ds => endsNumber_cons (by decide)
      simp only [List.append_assoc, List.cons_append]
      rw [tokens_gap opens, read _ (endsNumber_gap closes (parts _)), tokens_gap closes,
        tokens_sign _ rfl, readOthers rest ends, itemTokens]
      simp only [List.append_assoc, List.cons_append]

/-- What spells the members of a table falls into the tokens of their names and of trees that hold
their values, but for a comma in front. -/
theorem tokens_of_spellsMembers (members : List (String × Datum)) {cs : List Char}
    (spelled : SpellsMembers members cs) :
    ∃ trees, Tree.HoldMembers trees members ∧ ∀ rest, EndsNumber rest →
      .comma :: tokens (cs ++ rest) = memberTokens trees ++ tokens rest := by
  match members with
  | [] => cases spelled
  | (key, v) :: more =>
    cases spelled with
    | last leads named parts opens spelled closes =>
      obtain ⟨t, holds, read⟩ := tokens_of_spells v spelled
      refine ⟨[(some key, t)], .cons key holds .nil, fun rest ends => ?_⟩
      have front := tokens_of_stringText_colon leads named parts opens
      simp only [List.append_assoc, List.cons_append] at front ⊢
      rw [front, read _ (endsNumber_gap closes ends), tokens_gap closes, memberTokens, memberTokens]
      simp only [List.append_assoc, List.cons_append, List.nil_append]
    | more leads named parts opens spelled closes others =>
      obtain ⟨t, holds, read⟩ := tokens_of_spells v spelled
      obtain ⟨trees, held, readOthers⟩ := tokens_of_spellsMembers more others
      refine ⟨(some key, t) :: trees, .cons key holds held, fun rest ends => ?_⟩
      have front := tokens_of_stringText_colon leads named parts opens
      have separates : ∀ ds, EndsNumber (',' :: ds) := fun ds => endsNumber_cons (by decide)
      simp only [List.append_assoc, List.cons_append] at front ⊢
      rw [front, read _ (endsNumber_gap closes (separates _)), tokens_gap closes,
        tokens_sign _ rfl, readOthers rest ends, memberTokens]
      simp only [List.append_assoc, List.cons_append]

end

/-- A text that denotes a datum is read by `read` as a tree that `Holds` it, and nothing else stands
in it. -/
theorem read_of_denotes {text : String} {v : Datum} (denotes : Denotes text v) :
    ∃ t, Tree.Holds t v ∧ read text = (t, true) := by
  obtain ⟨before, cs, behind, opens, spelled, closes, split⟩ := denotes
  obtain ⟨t, holds, tokens_append⟩ := tokens_of_spells v spelled
  refine ⟨t, holds, read_of_tokens holds.isSound ?_⟩
  have end_ := endsNumber_gap closes endsNumber_nil
  rw [List.append_nil] at end_
  have nothing : tokens behind = [] := by
    rw [← List.append_nil behind, tokens_gap closes, tokens_nil]
  rw [split, List.append_assoc, tokens_gap opens, tokens_append behind end_, nothing,
    List.append_nil]

end Wordbook.Json
