import Wordbook.Proofs.Toml.Strings
import Wordbook.Proofs.Toml.Value

/-!
# The parts of a TOML line read by the grammar

Space, keys and scalars at the front of a document, each read up to its end.

## Main Definitions

* `EndsWord` — nothing at the front of a text carries a scalar on
* `EndsLine` — a text goes on behind the end of a line, or it is at its own end
* `IsNumeral` — a word has the signs of a number where a number has them

## Main Statements

* `skipSpace_append`, `lineEnd_append` — space and the rest of a line are passed over
* `lexKey_of_keyText` — a dotted key is read as its parts
* `lexSimple_of_integerText` — a whole number that fits is read as that number

## Design Notes

The reader cuts a scalar out of the document and then asks which of its many forms it has.  A whole
number is none of those that are asked for before: it has a hyphen at most in front, and no colon,
so it is neither a date nor a time.
-/

namespace Wordbook.Toml

open Wordbook.Text

/-! ### Space -/

theorem skipBlanks_append {blanks : List Char} (areBlanks : AreBlanks blanks) (rest : List Char) :
    skipBlanks (blanks ++ rest) = skipBlanks rest := by
  rw [skipBlanks, List.dropWhile_append_of_pos (isBlank_of_areBlanks areBlanks), skipBlanks]

/-- The end of a line is found by `newline?`. -/
theorem newline?_append {newline : List Char} (ends : IsNewline newline) (rest : List Char) :
    newline? (newline ++ rest) = some rest := by
  rcases ends with rfl | rfl <;> rfl

theorem skipSpaceFrom_newline (comment : Bool) {newline : List Char} (ends : IsNewline newline)
    (rest : List Char) : skipSpaceFrom comment (newline ++ rest) = skipSpace rest := by
  rcases ends with rfl | rfl
  · rw [List.singleton_append, skipSpaceFrom.eq_def]
    cases comment <;> rfl
  · rw [List.cons_append, List.singleton_append, skipSpaceFrom, skipSpace]

/-- Inside of a comment, all that a comment may show is skipped. -/
theorem skipSpaceFrom_shown {cs : List Char} (shown : ∀ c ∈ cs, IsShown c) (rest : List Char) :
    skipSpaceFrom true (cs ++ rest) = skipSpaceFrom true rest := by
  induction cs with
  | nil => rfl
  | cons c more ih =>
    rw [List.forall_mem_cons] at shown
    have plain := isPlain_of_isShown shown.1
    have inside : (true && isPlain c) = true := plain
    rw [List.cons_append, skipSpaceFrom, if_pos inside, ih shown.2]
    intro _ equal _
    exact ne_return_of_isPlain plain equal

/-- Blanks, comments and line ends are skipped by `skipSpace`. -/
theorem skipSpace_append {gap : List Char} (isSpace : SpaceText gap) (rest : List Char) :
    skipSpace (gap ++ rest) = skipSpace rest := by
  induction isSpace with
  | nil => rfl
  | blank isBlank _ ih =>
    rcases isBlank with rfl | rfl
    · rw [List.cons_append, skipSpace_space, ih]
    · rw [List.cons_append, skipSpace, skipSpaceFrom.eq_def]
      exact ih
  | line noted ends _ ih =>
    rw [List.append_assoc, List.append_assoc]
    cases noted with
    | absent =>
      rw [List.nil_append, skipSpace, skipSpaceFrom_newline false ends, ih]
    | present shown =>
      rw [List.cons_append, skipSpace, skipSpaceFrom.eq_def]
      show skipSpaceFrom true _ = _
      rw [skipSpaceFrom_shown shown, skipSpaceFrom_newline true ends, ih]

/-- A text goes on with `rest` behind the end of a line, or it is at its own end. -/
def EndsLine (tail rest : List Char) : Prop :=
  (tail = [] ∧ rest = []) ∨ ∃ newline, IsNewline newline ∧ tail = newline ++ rest

/-- What is left of a line, blanks, a comment and its end, is skipped by `lineEnd`. -/
theorem lineEnd_append {blanks comment tail rest : List Char} (areBlanks : AreBlanks blanks)
    (noted : CommentText comment) (ends : EndsLine tail rest) :
    lineEnd (blanks ++ (comment ++ tail)) = some rest := by
  have stops : ∀ c ∈ tail.head?, isBlank c = false ∧ isPlain c = false ∧ c ≠ '#' := by
    rcases ends with ⟨rfl, -⟩ | ⟨_, rfl | rfl, rfl⟩
    · exact nofun
    all_goals
      intro c head
      cases head
      decide
  have afterComment : skipComment (skipBlanks (comment ++ tail)) = tail := by
    cases noted with
    | absent =>
      cases tail with
      | nil => rfl
      | cons c more =>
        obtain ⟨visible, -, noSign⟩ := stops c rfl
        rw [List.nil_append, skipBlanks_of_visible _ visible, skipComment]
        exact fun _ equal => noSign (List.cons.inj equal).1
    | present shown =>
      rw [List.cons_append, skipBlanks_of_visible _ rfl, skipComment]
      exact dropWhile_append_of_ends (fun c member => isPlain_of_isShown (shown c member))
        (fun c head => (stops c head).2.1)
  rw [lineEnd, skipBlanks_append areBlanks, afterComment]
  rcases ends with ⟨rfl, rfl⟩ | ⟨newline, isNewline, rfl⟩
  · rfl
  · have found := newline?_append isNewline rest
    rcases isNewline with rfl | rfl <;> exact found

/-- A line that goes on with a visible character has not ended. -/
theorem lineEnd_eq_none {blanks : List Char} (areBlanks : AreBlanks blanks) {c : Char}
    (rest : List Char) (visible : isVisible c = true) : lineEnd (blanks ++ c :: rest) = none := by
  simp only [isVisible, Bool.and_eq_true, Bool.not_eq_true', bne_iff_ne] at visible
  obtain ⟨⟨⟨noBlank, noFeed⟩, noReturn⟩, noSign⟩ := visible
  have noComment : skipComment (c :: rest) = c :: rest := by
    rw [skipComment]
    exact fun _ equal => noSign (List.cons.inj equal).1
  rw [lineEnd, skipBlanks_append areBlanks, skipBlanks_of_visible _ noBlank, noComment]
  exact newline?_eq_none rest noFeed noReturn

/-! ### Keys -/

/-- A key may begin with the character `c`. -/
def StartsKey (c : Char) : Prop := isBareKey c = true ∨ c = '"' ∨ c = '\''

instance : DecidablePred StartsKey := fun c =>
  inferInstanceAs (Decidable (isBareKey c = true ∨ c = '"' ∨ c = '\''))

theorem isVisible_of_startsKey {c : Char} (starts : StartsKey c) : isVisible c = true := by
  rcases starts with bare | rfl | rfl
  · rw [isVisible, isBlank_of_isBareKey bare, Bool.and_eq_true, Bool.and_eq_true, Bool.and_eq_true,
      bne_iff_ne, bne_iff_ne, bne_iff_ne]
    exact ⟨⟨⟨rfl, ne_of_isBareKey bare rfl⟩, ne_of_isBareKey bare rfl⟩, ne_of_isBareKey bare rfl⟩
  · rfl
  · rfl

theorem isBlank_of_isVisible {c : Char} (visible : isVisible c = true) : isBlank c = false := by
  simp only [isVisible, Bool.and_eq_true, Bool.not_eq_true'] at visible
  exact visible.1.1.1

/-- A part of a key begins with a character of which `StartsKey` holds. -/
theorem eq_cons_of_partText {part : String} {cs : List Char} (spelled : PartText part cs) :
    ∃ c more, cs = c :: more ∧ StartsKey c := by
  cases spelled with
  | bare some bare =>
    obtain ⟨c, more, shape⟩ := List.exists_cons_of_ne_nil some
    have first := bare c (shape ▸ List.mem_cons_self)
    rw [shape]
    refine ⟨c, more, rfl, Or.inl ?_⟩
    simp only [isBareKey, Bool.or_eq_true, beq_iff_eq, or_assoc]
    exact first
  | quoted spelled =>
    cases spelled with
    | basic _ => exact ⟨'"', _, rfl, Or.inr (Or.inl rfl)⟩
    | literal _ => exact ⟨'\'', _, rfl, Or.inr (Or.inr rfl)⟩

theorem eq_cons_of_keyText {keys : List String} {cs : List Char} (named : KeyText keys cs) :
    ∃ c more, cs = c :: more ∧ StartsKey c := by
  cases named with
  | one spelled => exact eq_cons_of_partText spelled
  | more spelled _ _ _ =>
    obtain ⟨c, more, rfl, starts⟩ := eq_cons_of_partText spelled
    exact ⟨c, _, rfl, starts⟩

/-- A part of a key is read by `lexKeyPart` up to its end. -/
theorem lexKeyPart_of_partText {part : String} {cs rest : List Char} (spelled : PartText part cs)
    (ends : EndsKey rest) : lexKeyPart (cs ++ rest) = some (part.toList, rest) := by
  cases spelled with
  | bare some bare =>
    apply lexKeyPart_bare _ ends
    rw [isBare, Bool.and_eq_true, Bool.not_eq_true', List.isEmpty_eq_false_iff, List.all_eq_true]
    refine ⟨some, fun c member => ?_⟩
    simp only [isBareKey, Bool.or_eq_true, beq_iff_eq, or_assoc]
    exact bare c member
  | quoted spelled => rw [lexKeyPart, lexLine_of_lineStringText spelled]

theorem endsKey_append {blanks : List Char} (areBlanks : AreBlanks blanks) {c : Char}
    (rest : List Char) (other : isBareKey c = false) : EndsKey (blanks ++ c :: rest) := by
  cases blanks with
  | nil => exact endsKey_cons rest other
  | cons d more =>
    apply endsKey_cons
    rcases areBlanks d List.mem_cons_self with rfl | rfl <;> rfl

/-- A character behind a key and blanks that does not carry the key on. -/
def ClosesKey (c : Char) : Prop := isBlank c = false ∧ isBareKey c = false ∧ c ≠ '.'

instance : DecidablePred ClosesKey := fun c =>
  inferInstanceAs (Decidable (isBlank c = false ∧ isBareKey c = false ∧ c ≠ '.'))

/-- A key is read by `lexKeyParts` as its parts, up to the character behind it. -/
theorem lexKeyParts_of_keyText {keys : List String} {cs : List Char} (named : KeyText keys cs)
    {before behind : List Char} (opens : AreBlanks before) (ends : AreBlanks behind) {c : Char}
    (closes : ClosesKey c) (rest : List Char) :
    lexKeyParts (before ++ (cs ++ (behind ++ c :: rest))) = some (keys, c :: rest) := by
  obtain ⟨visible, other, noPoint⟩ := closes
  induction named generalizing before with
  | @one part cs spelled =>
    obtain ⟨d, more, rfl, starts⟩ := eq_cons_of_partText spelled
    have read := lexKeyPart_of_partText spelled (endsKey_append ends rest other)
    rw [List.cons_append] at read ⊢
    rw [lexKeyParts, skipBlanks_append opens,
      skipBlanks_of_visible _ (isBlank_of_isVisible (isVisible_of_startsKey starts)), read]
    simp only [skipBlanks_append ends, skipBlanks_of_visible rest visible]
    split
    · rename_i equal
      exact absurd (List.cons.inj equal).1 noPoint
    · rw [String.ofList_toList]
  | @more part parts cs between after ds spelled opens' closes' _ ih =>
    obtain ⟨d, more, rfl, starts⟩ := eq_cons_of_partText spelled
    have read := lexKeyPart_of_partText spelled
      (endsKey_append opens' (after ++ (ds ++ (behind ++ c :: rest))) (c := '.') rfl)
    have point : skipBlanks (between ++ '.' :: (after ++ (ds ++ (behind ++ c :: rest))))
        = '.' :: (after ++ (ds ++ (behind ++ c :: rest))) := by
      rw [skipBlanks_append opens', skipBlanks_of_visible _ rfl]
    have later := ih closes'
    simp only [List.append_assoc, List.cons_append] at read later ⊢
    have shorter : (after ++ (ds ++ (behind ++ c :: rest))).length < (before ++ d :: (more
        ++ (between ++ '.' :: (after ++ (ds ++ (behind ++ c :: rest)))))).length := by
      simp only [List.length_append, List.length_cons]
      omega
    rw [lexKeyParts, skipBlanks_append opens,
      skipBlanks_of_visible _ (isBlank_of_isVisible (isVisible_of_startsKey starts)), read]
    simp only [point, if_pos shorter, later, String.ofList_toList]

theorem ne_nil_of_keyText {keys : List String} {cs : List Char} (named : KeyText keys cs) :
    keys ≠ [] := by
  cases named <;> exact List.cons_ne_nil _ _

/-- A key of fewer parts than `levels` is read by `lexKey` as its path and its last part. -/
theorem lexKey_of_keyText {keys : List String} {cs : List Char} (named : KeyText keys cs)
    (short : keys.length < levels) :
    ∃ path key, path ++ [key] = keys ∧ ∀ {before behind : List Char} {c : Char} rest,
      AreBlanks before → AreBlanks behind → ClosesKey c →
        lexKey (before ++ (cs ++ (behind ++ c :: rest))) = some (path, key, c :: rest) := by
  have some := ne_nil_of_keyText named
  refine ⟨keys.dropLast, keys.getLast some, List.dropLast_append_getLast some,
    fun rest opens ends closes => ?_⟩
  rw [lexKey, lexKeyParts_of_keyText named opens ends closes]
  simp only [List.getLast?_eq_getLast_of_ne_nil some, if_pos short]

/-- A key of `levels` parts or more is refused by `lexKey`. -/
theorem lexKey_eq_none_of_keyText {keys : List String} {cs : List Char} (named : KeyText keys cs)
    (long : levels ≤ keys.length) {before behind : List Char} (opens : AreBlanks before)
    (ends : AreBlanks behind) {c : Char} (closes : ClosesKey c) (rest : List Char) :
    lexKey (before ++ (cs ++ (behind ++ c :: rest))) = none := by
  rw [lexKey, lexKeyParts_of_keyText named opens ends closes]
  simp only [List.getLast?_eq_getLast_of_ne_nil (ne_nil_of_keyText named),
    if_neg (Nat.not_lt.mpr long)]

/-! ### Scalars -/

/-- No character at the front of `rest` carries a scalar on. -/
def EndsWord (rest : List Char) : Prop := ∀ c ∈ rest.head?, isWord c = false

/-- A value that begins with none of the signs of lists and tables is read by `lexSimple`. -/
theorem lexValue_eq_lexSimple (depth : Nat) {c : Char} (rest : List Char) (noList : c ≠ '[')
    (noTable : c ≠ '{') : lexValue depth (c :: rest) = lexSimple (c :: rest) := by
  cases depth with
  | zero => rfl
  | succ depth =>
    rw [lexValue]
    · exact fun _ _ _ equal => noList (List.cons.inj equal).1
    · exact fun _ _ _ equal => noTable (List.cons.inj equal).1

/-- What begins with a character of a word is no string. -/
theorem lexString_eq_none {c : Char} (rest : List Char) (word : isWord c = true) :
    lexString (c :: rest) = none := by
  have noQuote : c ≠ '"' := by
    rintro rfl
    cases word
  have noApostrophe : c ≠ '\'' := by
    rintro rfl
    cases word
  rw [lexString, lexLine]
  · exact fun _ equal => noQuote (List.cons.inj equal).1
  · exact fun _ equal => noApostrophe (List.cons.inj equal).1
  · exact fun _ equal => noQuote (List.cons.inj equal).1
  · exact fun _ equal => noApostrophe (List.cons.inj equal).1

/-- A word that is no date is read by `scalar?`. -/
theorem lexSimple_append {word rest : List Char} (some : word ≠ [])
    (all : ∀ c ∈ word, isWord c = true) (noDate : isDate word = false) (ends : EndsWord rest) :
    lexSimple (word ++ rest) = (scalar? word).map (·, rest) := by
  have noString : lexString (word ++ rest) = none := by
    obtain ⟨c, more, rfl⟩ := List.exists_cons_of_ne_nil some
    exact lexString_eq_none _ (all c List.mem_cons_self)
  rw [lexSimple, noString]
  simp only [lexScalar, takeWhile_append_of_ends all ends, dropWhile_append_of_ends all ends]
  split
  · rw [noDate, Bool.false_and, if_neg Bool.false_ne_true]
  · rfl

/-! ### Digits -/

/-- A digit of any base is a character of a word. -/
theorem isWord_of_hexValue {c : Char} {d : Nat} (value : hexValue c = some d) :
    isWord c = true := by
  have isAlphanum : c.isAlphanum = true := by
    unfold hexValue at value
    rw [Char.isAlphanum, Bool.or_eq_true]
    split at value
    case isTrue digit => exact Or.inr digit
    split at value
    case isTrue low =>
      rw [Bool.and_eq_true, decide_eq_true_eq, decide_eq_true_eq] at low
      refine Or.inl (Bool.or_eq_true _ _ ▸ Or.inr ?_)
      show (decide (c.val ≥ 'a'.val) && decide (c.val ≤ 'z'.val)) = true
      rw [Bool.and_eq_true, decide_eq_true_eq, decide_eq_true_eq]
      exact ⟨low.1, UInt32.le_trans low.2 (by decide)⟩
    split at value
    case isTrue high =>
      rw [Bool.and_eq_true, decide_eq_true_eq, decide_eq_true_eq] at high
      refine Or.inl (Bool.or_eq_true _ _ ▸ Or.inl ?_)
      show decide (c.val ≥ 'A'.val ∧ c.val ≤ 'Z'.val) = true
      rw [decide_eq_true_eq]
      exact ⟨high.1, UInt32.le_trans high.2 (by decide)⟩
    cases value
  rw [isWord, isAlphanum]
  rfl

/-- A digit of any base is none of the signs that have no `hexValue`. -/
theorem ne_of_hexValue {c e : Char} {d : Nat} (value : hexValue c = some d)
    (noDigit : hexValue e = none) : c ≠ e := by
  rintro rfl
  rw [value] at noDigit
  cases noDigit

theorem hexValue_of_isDigit {c : Char} (digit : c.isDigit = true) :
    hexValue c = some (c.toNat - '0'.toNat) := by
  rw [hexValue, if_pos digit]

/-- Digits with underscores begin with the first digit. -/
theorem eq_cons_of_groupedText {IsDigit : Char → Prop} {digits cs : List Char}
    (grouped : GroupedText IsDigit digits cs) :
    ∃ c more, cs = c :: more ∧ IsDigit c ∧ digits.head? = some c := by
  cases grouped with
  | one digit => exact ⟨_, _, rfl, digit, rfl⟩
  | more digit _ => exact ⟨_, _, rfl, digit, rfl⟩
  | apart digit _ => exact ⟨_, _, rfl, digit, rfl⟩

/-- There are only digits and underscores. -/
theorem mem_of_groupedText {IsDigit : Char → Prop} {digits cs : List Char}
    (grouped : GroupedText IsDigit digits cs) :
    (∀ c ∈ digits, IsDigit c) ∧ ∀ c ∈ cs, IsDigit c ∨ c = '_' := by
  induction grouped with
  | one digit =>
    simp only [List.forall_mem_singleton]
    exact ⟨digit, Or.inl digit⟩
  | more digit _ ih =>
    simp only [List.forall_mem_cons]
    exact ⟨⟨digit, ih.1⟩, Or.inl digit, ih.2⟩
  | apart digit _ ih =>
    simp only [List.forall_mem_cons]
    exact ⟨⟨digit, ih.1⟩, Or.inl digit, Or.inr trivial, ih.2⟩

section Grouped

variable {IsDigit : Char → Prop} {digits cs : List Char}
  (valued : ∀ c, IsDigit c → ∃ d, hexValue c = some d)

include valued

theorem ne_underscore {c : Char} (digit : IsDigit c) : c ≠ '_' := by
  obtain ⟨d, value⟩ := valued c digit
  exact ne_of_hexValue value rfl

/-- The underscores do not count for `number`. -/
theorem number_of_groupedText (grouped : GroupedText IsDigit digits cs) (base : Nat) :
    number base cs = digits.foldl (fun n c => base * n + (hexValue c).getD 0) 0 := by
  have kept : ∀ {c : Char} (cs : List Char), IsDigit c →
      (c :: cs).filter (fun c => c != '_') = c :: cs.filter (fun c => c != '_') := by
    intro c cs digit
    rw [List.filter_cons, if_pos (bne_iff_ne.mpr (ne_underscore valued digit))]
  have filtered : cs.filter (fun c => c != '_') = digits := by
    induction grouped with
    | one digit => exact kept [] digit
    | more digit _ ih => rw [kept _ digit, ih]
    | @apart c _ cs digit _ ih =>
      have dropped : ('_' :: cs).filter (fun c => c != '_') = cs.filter (fun c => c != '_') := rfl
      rw [kept _ digit, dropped, ih]
  rw [number, filtered]

/-- Digits with single underscores between them pass `areDigits`. -/
theorem areDigits_of_groupedText {isDigit : Char → Bool} (test : ∀ c, IsDigit c → isDigit c = true)
    (grouped : GroupedText IsDigit digits cs) : areDigits isDigit cs = true := by
  induction grouped with
  | one digit =>
    rw [areDigits]
    exact test _ digit
  | more digit others ih =>
    obtain ⟨d, more, rfl, next, -⟩ := eq_cons_of_groupedText others
    rw [areDigits, test _ digit, ih, Bool.and_self]
    · exact nofun
    · exact fun _ equal => ne_underscore valued next (List.cons.inj equal).1
  | apart digit _ ih =>
    rw [areDigits, test _ digit, ih, Bool.and_self]

end Grouped

/-- Decimal digits stand for the same number as by `Nat.ofDigitChars`, in any base that has them. -/
theorem foldl_eq_ofDigitChars (base n : Nat) {digits : List Char}
    (decimal : ∀ c ∈ digits, c.isDigit = true) :
    digits.foldl (fun n c => base * n + (hexValue c).getD 0) n
      = Nat.ofDigitChars base digits n := by
  rw [Nat.ofDigitChars_eq_foldl]
  induction digits generalizing n with
  | nil => rfl
  | cons c more ih =>
    rw [List.forall_mem_cons] at decimal
    rw [List.foldl_cons, List.foldl_cons, hexValue_of_isDigit decimal.1, Option.getD_some,
      ih _ decimal.2]

theorem foldl_of_hexText {n : Nat} {digits : List Char} (names : HexText n digits) :
    digits.foldl (fun n c => 16 * n + (hexValue c).getD 0) 0 = n := by
  induction names with
  | nil => rfl
  | snoc _ last ih =>
    rw [List.foldl_append, ih, List.foldl_cons, List.foldl_nil,
      hexValue_of_isHexDigit last, Option.getD_some]

/-! ### Whole numbers -/

theorem isDigit_of_octal {c : Char} (octal : '0' ≤ c ∧ c ≤ '7') : c.isDigit = true := by
  rw [Char.isDigit, Bool.and_eq_true, decide_eq_true_eq, decide_eq_true_eq]
  exact ⟨octal.1, UInt32.le_trans octal.2 (by decide)⟩

theorem isDigit_of_binary {c : Char} (binary : c = '0' ∨ c = '1') : c.isDigit = true := by
  rcases binary with rfl | rfl <;> rfl

/-- A number with its base that fits is read by `integer?`. -/
theorem integer?_of_prefixed? {word digits : List Char} {base n : Nat}
    (found : prefixed? word = some (base, digits)) (value : number base digits = n)
    (fits : Fits n) : integer? word = some (.integer n) := by
  have small : n < Nat.pow 2 63 := by
    have bound : Nat.pow 2 63 = 9223372036854775808 := rfl
    have below := fits.2
    omega
  rw [integer?, found]
  simp only [value, if_pos small]

/-- A number with a sign and decimal digits that fits is read by `integer?`. -/
theorem integer?_of_sign {word digits : List Char} {negative : Bool} {n : Nat}
    (noBase : prefixed? word = none) (signed : sign word = (negative, digits))
    (decimal : isDecimal digits = true) (value : number 10 digits = n)
    (fits : Fits ((if negative then -1 else 1) * n)) :
    integer? word = some (.integer ((if negative then -1 else 1) * n)) := by
  have bound : Nat.pow 2 63 = 9223372036854775808 := rfl
  obtain ⟨above, below⟩ := fits
  rw [integer?, noBase]
  simp only [signed, decimal, value, Bool.not_true, Bool.false_eq_true, if_false]
  cases negative with
  | false =>
    have same : (if false = true then -1 else 1) * (n : Int) = n := Int.one_mul n
    rw [same] at below ⊢
    rw [if_neg Bool.false_ne_true, if_pos (by omega)]
  | true =>
    have opposite : (if true = true then -1 else 1) * (n : Int) = -n := Int.neg_one_mul n
    rw [opposite] at above ⊢
    rw [if_pos rfl, if_pos (by omega)]

/-- A sign in front of digits is taken off by `sign`. -/
theorem sign_append {negative : Bool} {signs digits cs : List Char}
    (signed : SignText negative signs)
    (grouped : GroupedText (fun c => c.isDigit = true) digits cs) :
    sign (signs ++ cs) = (negative, cs) := by
  cases signed with
  | plus => rfl
  | minus => rfl
  | absent =>
    obtain ⟨c, more, rfl, digit, -⟩ := eq_cons_of_groupedText grouped
    have value := hexValue_of_isDigit digit
    rw [List.nil_append, sign]
    · exact fun _ equal => ne_of_hexValue value rfl (List.cons.inj equal).1
    · exact fun _ equal => ne_of_hexValue value rfl (List.cons.inj equal).1

/-- A decimal number is nought, or its first digit is none. -/
theorem eq_nought_or_of_groupedText {digits cs : List Char}
    (grouped : GroupedText (fun c => c.isDigit = true) digits cs)
    (nought : digits.head? = some '0' → digits = ['0']) :
    cs = ['0'] ∨ ∃ c more, cs = c :: more ∧ c ≠ '0' := by
  obtain ⟨c, more, shape, -, first⟩ := eq_cons_of_groupedText grouped
  by_cases isNought : c = '0'
  · subst isNought
    rw [nought first] at grouped
    cases grouped with
    | one _ => exact Or.inl rfl
    | more _ none => cases none
    | apart _ none => cases none
  · exact Or.inr ⟨c, more, shape, isNought⟩

/-- A number with decimal digits names no base. -/
theorem prefixed?_eq_none {negative : Bool} {signs digits cs : List Char}
    (signed : SignText negative signs)
    (grouped : GroupedText (fun c => c.isDigit = true) digits cs)
    (nought : digits.head? = some '0' → digits = ['0']) : prefixed? (signs ++ cs) = none := by
  cases signed with
  | plus => rfl
  | minus => rfl
  | absent =>
    rcases eq_nought_or_of_groupedText grouped nought with rfl | ⟨c, more, rfl, other⟩
    · rfl
    · rw [List.nil_append, prefixed?]
      exact fun _ _ equal => other (List.cons.inj equal).1

/-- The text of a whole number that fits is read by `integer?` as that number. -/
theorem integer?_of_integerText {n : Int} {cs : List Char} (spelled : IntegerText n cs)
    (fits : Fits n) : integer? cs = some (.integer n) := by
  -- The digits of a base below eleven are decimal ones, and have the values that these have.
  have value : ∀ (base : Nat) {IsDigit : Char → Prop} {digits cs : List Char},
      (∀ c, IsDigit c → c.isDigit = true) → GroupedText IsDigit digits cs →
        number base cs = Nat.ofDigitChars base digits 0 := by
    intro base IsDigit digits cs decimal grouped
    rw [number_of_groupedText (fun c digit => ⟨_, hexValue_of_isDigit (decimal c digit)⟩) grouped,
      foldl_eq_ofDigitChars base 0
        (fun c member => decimal c ((mem_of_groupedText grouped).1 c member))]
  cases spelled with
  | @decimal _ _ digits cs signed grouped nought =>
    have decimal : isDecimal cs = true := by
      have digits : areDigits Char.isDigit cs = true := areDigits_of_groupedText
        (fun c digit => ⟨_, hexValue_of_isDigit digit⟩) (fun _ => id) grouped
      rw [isDecimal, digits, Bool.true_and, Bool.or_eq_true]
      rcases eq_nought_or_of_groupedText grouped nought with rfl | ⟨c, more, rfl, other⟩
      · exact Or.inl rfl
      · exact Or.inr (bne_iff_ne.mpr (fun equal => other (Option.some.inj equal)))
    exact integer?_of_sign (prefixed?_eq_none signed grouped nought) (sign_append signed grouped)
      decimal (value 10 (fun _ => id) grouped) fits
  | @hexadecimal n digits cs names grouped =>
    have valued : ∀ c, (∃ d, IsHexDigit d c) → ∃ d, hexValue c = some d :=
      fun _ ⟨d, digit⟩ => ⟨d, hexValue_of_isHexDigit digit⟩
    have digits : areDigits (fun c => (hexValue c).isSome) cs = true :=
      areDigits_of_groupedText valued
        (fun c digit => Option.isSome_iff_exists.mpr (valued c digit)) grouped
    have found : prefixed? ('0' :: 'x' :: cs) = some (16, cs) := if_pos digits
    refine integer?_of_prefixed? found ?_ fits
    rw [number_of_groupedText valued grouped, foldl_of_hexText names]
  | @octal digits cs grouped =>
    have digits : areDigits (fun c => '0' ≤ c && c ≤ '7') cs = true :=
      areDigits_of_groupedText (fun c octal => ⟨_, hexValue_of_isDigit (isDigit_of_octal octal)⟩)
        (fun c octal => by rwa [Bool.and_eq_true, decide_eq_true_eq, decide_eq_true_eq]) grouped
    have found : prefixed? ('0' :: 'o' :: cs) = some (8, cs) := if_pos digits
    exact integer?_of_prefixed? found (value 8 (fun _ => isDigit_of_octal) grouped) fits
  | @binary digits cs grouped =>
    have digits : areDigits (fun c => c == '0' || c == '1') cs = true :=
      areDigits_of_groupedText
        (fun c binary => ⟨_, hexValue_of_isDigit (isDigit_of_binary binary)⟩)
        (fun c binary => by rwa [Bool.or_eq_true, beq_iff_eq, beq_iff_eq]) grouped
    have found : prefixed? ('0' :: 'b' :: cs) = some (2, cs) := if_pos digits
    exact integer?_of_prefixed? found (value 2 (fun _ => isDigit_of_binary) grouped) fits

/-- The characters `word` begin with neither letter of a truth value and have hyphens and colons
nowhere but in front. -/
structure IsNumeral (word : List Char) : Prop where
  /-- It is not empty. -/
  some : word ≠ []
  /-- It is a word. -/
  isWord : ∀ c ∈ word, isWord c = true
  /-- It is no truth value. -/
  first : ∀ c ∈ word.head?, c ≠ 't' ∧ c ≠ 'f'
  /-- It has none of the signs of a date or a time. -/
  later : ∀ c ∈ word.tail, c ≠ '-' ∧ c ≠ ':'

theorem isTime_eq_false {word : List Char} (later : ∀ c ∈ word.tail, c ≠ '-' ∧ c ≠ ':') :
    isTime word = false := by
  unfold isTime
  split
  · exact absurd rfl (later ':' (by simp)).2
  · rfl

theorem isDate_eq_false {word : List Char} (later : ∀ c ∈ word.tail, c ≠ '-' ∧ c ≠ ':') :
    isDate word = false := by
  unfold isDate
  split
  · exact absurd rfl (later '-' (by simp)).1
  · rfl

/-- A number is neither a date nor a time, nor does it begin with a date. -/
theorem isMoment_eq_false {word : List Char} (later : ∀ c ∈ word.tail, c ≠ '-' ∧ c ≠ ':') :
    isMoment word = false := by
  have front : ∀ c ∈ (word.take 10).tail, c ≠ '-' ∧ c ≠ ':' := by
    intro c member
    rw [← List.drop_one, List.drop_take, List.drop_one] at member
    exact later c (List.mem_of_mem_take member)
  rw [isMoment, isTime_eq_false later, isDate_eq_false later, isDate_eq_false front]
  rfl

/-- A numeral that `integer?` reads as a whole number is a scalar by itself. -/
theorem IsNumeral.lexSimple_append {word rest : List Char} (numeral : IsNumeral word) {n : Int}
    (found : integer? word = Option.some (.integer n)) (ends : EndsWord rest) :
    lexSimple (word ++ rest) = Option.some (.integer n, rest) := by
  have scalar : scalar? word = Option.some (.integer n) := by
    have noTrue : word ≠ "true".toList := by
      rintro rfl
      exact (numeral.first 't' rfl).1 rfl
    have noFalse : word ≠ "false".toList := by
      rintro rfl
      exact (numeral.first 'f' rfl).2 rfl
    rw [scalar?, if_neg noTrue, if_neg noFalse, isMoment_eq_false numeral.later,
      if_neg Bool.false_ne_true, found]
    rfl
  rw [Toml.lexSimple_append numeral.some numeral.isWord (isDate_eq_false numeral.later) ends,
    scalar, Option.map_some]

/-- A character that may stand anywhere in a number. -/
def IsInside (c : Char) : Prop := isWord c = true ∧ c ≠ '-' ∧ c ≠ ':'

instance : DecidablePred IsInside := fun c =>
  inferInstanceAs (Decidable (isWord c = true ∧ c ≠ '-' ∧ c ≠ ':'))

theorem isNumeral_cons {c : Char} {more : List Char} (word : isWord c = true)
    (noTruth : c ≠ 't' ∧ c ≠ 'f') (inside : ∀ d ∈ more, IsInside d) : IsNumeral (c :: more) where
  some := List.cons_ne_nil c more
  isWord := List.forall_mem_cons.mpr ⟨word, fun d member => (inside d member).1⟩
  first := by
    intro d head
    cases head
    exact noTruth
  later := fun d member => (inside d member).2

theorem isInside_of_groupedText {digits cs : List Char} {IsDigit : Char → Prop}
    (valued : ∀ c, IsDigit c → ∃ d, hexValue c = some d)
    (grouped : GroupedText IsDigit digits cs) : ∀ c ∈ cs, IsInside c := by
  intro c member
  rcases (mem_of_groupedText grouped).2 c member with digit | rfl
  · obtain ⟨d, value⟩ := valued c digit
    exact ⟨isWord_of_hexValue value, ne_of_hexValue value rfl, ne_of_hexValue value rfl⟩
  · decide

/-- The text of a whole number is a numeral. -/
theorem isNumeral_of_integerText {n : Int} {cs : List Char} (spelled : IntegerText n cs) :
    IsNumeral cs := by
  -- Behind a nought and the letter of a base.
  have based : ∀ {letter : Char} {cs : List Char}, IsInside letter → (∀ c ∈ cs, IsInside c) →
      IsNumeral ('0' :: letter :: cs) := fun ofBase inside =>
    isNumeral_cons rfl (by decide) (List.forall_mem_cons.mpr ⟨ofBase, inside⟩)
  cases spelled with
  | decimal signed grouped _ =>
    have inside := isInside_of_groupedText (fun c digit => ⟨_, hexValue_of_isDigit digit⟩) grouped
    cases signed with
    | plus => exact isNumeral_cons rfl (by decide) inside
    | minus => exact isNumeral_cons rfl (by decide) inside
    | absent =>
      obtain ⟨c, more, rfl, digit, -⟩ := eq_cons_of_groupedText grouped
      rw [List.forall_mem_cons] at inside
      refine isNumeral_cons inside.1.1 ⟨?_, ?_⟩ inside.2
      · rintro rfl
        cases digit
      · rintro rfl
        cases digit
  | hexadecimal _ grouped =>
    exact based (by decide)
      (isInside_of_groupedText (fun _ ⟨d, digit⟩ => ⟨d, hexValue_of_isHexDigit digit⟩) grouped)
  | octal grouped =>
    exact based (by decide) (isInside_of_groupedText
      (fun c octal => ⟨_, hexValue_of_isDigit (isDigit_of_octal octal)⟩) grouped)
  | binary grouped =>
    exact based (by decide) (isInside_of_groupedText
      (fun c binary => ⟨_, hexValue_of_isDigit (isDigit_of_binary binary)⟩) grouped)

/-- The text of a whole number that fits is read by `lexSimple` up to its end. -/
theorem lexSimple_of_integerText {n : Int} {cs rest : List Char} (spelled : IntegerText n cs)
    (fits : Fits n) (ends : EndsWord rest) : lexSimple (cs ++ rest) = some (.integer n, rest) :=
  (isNumeral_of_integerText spelled).lexSimple_append (integer?_of_integerText spelled fits) ends

end Wordbook.Toml
