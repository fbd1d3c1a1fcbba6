import Wordbook.Json.Token

/-!
# Natural numbers read back from JSON

A natural number is written in decimal digits, and read as a whole number while it fits into 64
bits.

## Main Statements

* `EndsNumber` — nothing at the front of a text carries a number on
* `lexToken_natural` — the digits of a number are one token, the number

## Design Notes

A number does not end by itself: what follows decides where it stops.  So the statements speak of
the digits together with a rest that `EndsNumber`.
-/

namespace Wordbook.Json

/-- No character at the front of `rest` carries a number on. -/
def EndsNumber (rest : List Char) : Prop :=
  ∀ c ∈ rest.head?, c.isDigit = false ∧ c ≠ '.' ∧ c ≠ 'e' ∧ c ≠ 'E'

theorem endsNumber_nil : EndsNumber [] := by
  intro c present
  cases present

theorem endsNumber_cons {c : Char} {rest : List Char}
    (ends : c.isDigit = false ∧ c ≠ '.' ∧ c ≠ 'e' ∧ c ≠ 'E') : EndsNumber (c :: rest) := by
  intro d present
  cases present
  exact ends

/-- The first digit of a positive number is no nought. -/
theorem head?_toDigits_ne {n : Nat} (positive : 0 < n) :
    (Nat.toDigits 10 n).head? ≠ some '0' := by
  induction n using Nat.strongRecOn with
  | ind n ih =>
    by_cases small : n < 10
    · rw [Nat.toDigits_of_lt_base small]
      have digit : ∀ m, m < 10 → 0 < m → Nat.digitChar m ≠ '0' := by decide
      intro equal
      exact digit n small positive (Option.some.inj equal)
    · have shorter := ih (n / 10) (by omega) (by omega)
      rw [Nat.toDigits_of_base_le (by decide) (by omega)]
      cases shape : Nat.toDigits 10 (n / 10) with
      | nil => exact absurd shape Nat.toDigits_ne_nil
      | cons c more =>
        rw [shape] at shorter
        exact shorter

/-- A number has a first digit. -/
theorem toDigits_eq_cons (n : Nat) :
    ∃ c more, Nat.toDigits 10 n = c :: more ∧ c.isDigit = true := by
  cases shape : Nat.toDigits 10 n with
  | nil => exact absurd shape Nat.toDigits_ne_nil
  | cons c more =>
    refine ⟨c, more, rfl, ?_⟩
    apply Nat.isDigit_of_mem_toDigits (b := 10) (n := n) (by decide) (by decide)
    rw [shape]
    exact List.mem_cons_self

/-- Digits are read by `lexDigits` up to a character that is none. -/
theorem lexDigits_append {digits rest : List Char} (are : ∀ c ∈ digits, c.isDigit = true)
    (ends : ∀ c ∈ rest.head?, c.isDigit = false) : lexDigits (digits ++ rest) = (digits, rest) := by
  rw [lexDigits, List.takeWhile_append_of_pos are, List.dropWhile_append_of_pos are]
  cases rest with
  | nil => rw [List.takeWhile_nil, List.dropWhile_nil, List.append_nil]
  | cons c more =>
    have noDigit : ¬ c.isDigit = true := by
      rw [ends c rfl]
      exact Bool.false_ne_true
    rw [List.takeWhile_cons_of_neg noDigit, List.dropWhile_cons_of_neg noDigit, List.append_nil]

/-- Digits are read by `lexWhole` if there is no nought before others. -/
theorem lexWhole_append {digits rest : List Char} (nonempty : digits ≠ [])
    (are : ∀ c ∈ digits, c.isDigit = true) (nought : digits.head? = some '0' → digits = ['0'])
    (ends : ∀ c ∈ rest.head?, c.isDigit = false) :
    lexWhole (digits ++ rest) = some (digits, rest) := by
  rw [lexWhole, lexDigits_append are ends]
  split
  case h_1 empty =>
    exact absurd (congrArg Prod.fst empty) nonempty
  case h_2 second more behind equal =>
    have shape : digits = '0' :: second :: more := congrArg Prod.fst equal
    have alone := nought (by rw [shape]; rfl)
    rw [shape] at alone
    cases alone
  case h_3 equal =>
    cases equal
    rfl

/-- The digits of `n` are read by `lexWhole`: there is no nought before others. -/
theorem lexWhole_toDigits (n : Nat) {rest : List Char} (ends : EndsNumber rest) :
    lexWhole (Nat.toDigits 10 n ++ rest) = some (Nat.toDigits 10 n, rest) := by
  apply lexWhole_append Nat.toDigits_ne_nil
  · exact fun _ member => Nat.isDigit_of_mem_toDigits (by decide) (by decide) member
  · intro nought
    have zero : n = 0 := Nat.eq_zero_of_not_pos (fun positive => head?_toDigits_ne positive nought)
    rw [zero]
    rfl
  · exact fun c present => (ends c present).1

/-- Where `EndsNumber` holds, `lexFraction` reads no fraction. -/
theorem lexFraction_of_endsNumber {rest : List Char} (ends : EndsNumber rest) :
    lexFraction rest = some ([], rest) := by
  unfold lexFraction
  split
  · exact absurd rfl (ends '.' rfl).2.1
  · rfl

/-- Where `EndsNumber` holds, `lexExponent` reads no exponent. -/
theorem lexExponent_of_endsNumber {rest : List Char} (ends : EndsNumber rest) :
    lexExponent rest = some (none, rest) := by
  cases rest with
  | nil => rfl
  | cons c more =>
    have noExponent := (ends c rfl).2.2
    rw [lexExponent, if_neg (not_or.mpr noExponent)]

namespace Literal

/-- The literal of a number without sign, fraction and exponent. -/
def ofNat (n : Nat) : Literal := ⟨false, Nat.toDigits 10 n, [], none⟩

/-- The digits of `n` have the value `n`. -/
theorem natural_toDigits (n : Nat) : natural (Nat.toDigits 10 n) = n := by
  have value := Nat.ofDigitChars_ten_toDigits (n := n)
  rw [Nat.ofDigitChars_eq_foldl] at value
  exact value

/-- A number that fits into 64 bits has a tree as a whole number. -/
theorem tree_ofNat {n : Nat} (fits : n ≤ greatest) : (ofNat n).tree = .integer n := by
  have value : (ofNat n).integer? = some (n : Int) := by
    simp only [integer?, ofNat, isWhole, List.isEmpty_nil, Option.isNone_none, Bool.and_self,
      Bool.not_true, Bool.false_eq_true, if_false, natural_toDigits, if_pos fits]
  rw [tree, value]

/-- The digits of `n` are read by `lexUnsigned` as the literal of `n`. -/
theorem lexUnsigned_toDigits (n : Nat) {rest : List Char} (ends : EndsNumber rest) :
    lexUnsigned false (Nat.toDigits 10 n ++ rest) = some (ofNat n, rest) := by
  simp only [lexUnsigned, lexWhole_toDigits n ends, lexFraction_of_endsNumber ends,
    lexExponent_of_endsNumber ends, Option.bind_eq_bind, Option.bind_some, ofNat]

end Literal

/-- A digit is no white space. -/
theorem isSpace_of_isDigit {c : Char} (digit : c.isDigit = true) : isSpace c = false := by
  apply Bool.eq_false_iff.mpr
  intro space
  simp only [isSpace, Bool.or_eq_true, beq_iff_eq] at space
  rcases space with ((rfl | rfl) | rfl) | rfl <;> cases digit

/-- A digit begins no other token than a number. -/
theorem lexToken_of_isDigit {c : Char} (rest : List Char) (digit : c.isDigit = true) :
    lexToken (c :: rest)
      = (Literal.lexUnsigned false (c :: rest)).map
        (fun found => (.scalar found.1.tree, found.2)) := by
  have differs : ∀ d : Char, d.isDigit = false → c ≠ d := by
    rintro d noDigit rfl
    rw [digit] at noDigit
    cases noDigit
  have noSign : sign? c = none := by
    unfold sign?
    split <;> first | rfl | exact absurd rfl (differs _ rfl)
  have noName : lexName (c :: rest) = none := by
    unfold lexName
    split <;> first | rfl | (rename_i equal; exact absurd (List.cons.inj equal).1 (differs _ rfl))
  have unsigned : Literal.lex (c :: rest) = Literal.lexUnsigned false (c :: rest) := by
    unfold Literal.lex
    split
    · rename_i equal
      exact absurd (List.cons.inj equal).1 (differs _ rfl)
    · rfl
  rw [lexToken, noSign]
  · simp only [lexScalar, noName, unsigned, Option.map_map]
    rfl
  · intro equal
    exact absurd equal (differs _ rfl)

/-- The digits of a number that fits into 64 bits are one token, the number. -/
theorem lexToken_natural {n : Nat} {rest : List Char} (fits : n ≤ Literal.greatest)
    (ends : EndsNumber rest) :
    lexToken ((toString n).toList ++ rest) = some (.scalar (.integer n), rest) := by
  have digits : (toString n).toList = Nat.toDigits 10 n := Nat.toList_repr
  rw [digits]
  have read := Literal.lexUnsigned_toDigits n ends
  obtain ⟨c, more, shape, digit⟩ := toDigits_eq_cons n
  rw [shape, List.cons_append] at read ⊢
  rw [lexToken_of_isDigit _ digit, read, Option.map_some, Literal.tree_ofNat fits]

end Wordbook.Json
