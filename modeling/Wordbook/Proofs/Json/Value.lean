import Wordbook.Proofs.Json.Number
import Wordbook.Proofs.Json.Text
import Wordbook.Proofs.Json.Tree

/-!
# JSON values read back

What is written for a value is read as the tree of that value, at whatever depth it stands.

## Main Definitions

* `Value.tree` — the tree of a value
* `Value.Fits` — every number in a value fits into 64 bits

## Main Statements

* `tokens_writeAt` — the text of a value falls into the tokens of its tree
* `read_write` — a written value is read as its tree
-/

namespace Wordbook.Json

namespace Value

mutual

/-- The tree of a value. -/
def tree : Value → Tree
  | .null => .null
  | .bool b => .bool b
  | .number n => .integer n
  | .string s => .text s
  | .array items => .list (itemTrees items) true
  | .object members => .table (memberTrees members) true

/-- The trees of the items of a list. -/
def itemTrees : List Value → List Tree
  | [] => []
  | v :: more => v.tree :: itemTrees more

/-- The trees of the members of a table, each under its name. -/
def memberTrees : List (String × Value) → List (Option String × Tree)
  | [] => []
  | (key, v) :: more => (some key, v.tree) :: memberTrees more

end

mutual

/-- Every number in the value fits into 64 bits. -/
def Fits : Value → Prop
  | .number n => n ≤ Literal.greatest
  | .array items => ItemsFit items
  | .object members => MembersFit members
  | _ => True

/-- Every number in the items fits into 64 bits. -/
def ItemsFit : List Value → Prop
  | [] => True
  | v :: more => v.Fits ∧ ItemsFit more

/-- Every number in the members fits into 64 bits. -/
def MembersFit : List (String × Value) → Prop
  | [] => True
  | (_, v) :: more => v.Fits ∧ MembersFit more

end

theorem itemTrees_eq_map (items : List Value) : itemTrees items = items.map tree := by
  induction items with
  | nil => rfl
  | cons v more ih => rw [itemTrees, ih, List.map_cons]

theorem itemsFit_iff (items : List Value) : ItemsFit items ↔ ∀ v ∈ items, v.Fits := by
  induction items with
  | nil => exact ⟨fun _ v member => absurd member List.not_mem_nil, fun _ => trivial⟩
  | cons v more ih => rw [ItemsFit, ih, List.forall_mem_cons]

/-! ### The tree of a value is sound -/

mutual

/-- The tree of a value is sound. -/
theorem isSound_tree (v : Value) : v.tree.isSound = true := by
  match v with
  | .array items => rw [tree, Tree.isSound, areSound_itemTrees items, Bool.and_self]
  | .object members => rw [tree, Tree.isSound, membersAreSound_memberTrees members, Bool.and_self]
  | .null => rfl
  | .bool _ => rfl
  | .number _ => rfl
  | .string _ => rfl

theorem areSound_itemTrees (items : List Value) : Tree.areSound (itemTrees items) = true := by
  match items with
  | [] => rfl
  | v :: more =>
    rw [itemTrees, Tree.areSound, isSound_tree v, areSound_itemTrees more, Bool.and_self]

theorem membersAreSound_memberTrees (members : List (String × Value)) :
    Tree.membersAreSound (memberTrees members) = true := by
  match members with
  | [] => rfl
  | (_, v) :: more =>
    rw [memberTrees, Tree.membersAreSound, isSound_tree v, membersAreSound_memberTrees more,
      Bool.and_self]

end

end Value

/-! ### Tokens of a written value -/

/-- A sign is a token by itself. -/
theorem tokens_sign {c : Char} {token : Token} (rest : List Char) (sign : sign? c = some token) :
    tokens (c :: rest) = token :: tokens rest := by
  have visible : isSpace c = false := by
    unfold sign? at sign
    split at sign <;> first | rfl | cases sign
  have noQuote : c ≠ '"' := by
    rintro rfl
    cases sign
  apply tokens_cons visible
  rw [lexToken]
  · rw [sign]
  · exact noQuote

/-- What `newline` writes holds no token. -/
theorem tokens_newline (depth : Nat) (rest : List Char) :
    tokens (newline depth ++ rest) = tokens rest := by
  have spaces : ∀ width, tokens (List.replicate width ' ' ++ rest) = tokens rest := by
    intro width
    induction width with
    | zero => rfl
    | succ width ih =>
      rw [List.replicate_succ, List.cons_append, tokens_space _ rfl, ih]
  rw [newline, List.cons_append, tokens_space _ rfl, spaces]

/-- What `writeText` writes is one token, the text. -/
theorem tokens_writeText (s : String) (rest : List Char) :
    tokens (writeText s ++ rest) = .text (some s) :: tokens rest := by
  have found := lexToken_writeText s rest
  rw [writeText, List.cons_append, List.cons_append] at found ⊢
  exact tokens_cons rfl found

/-- A name and the colon behind it are two tokens. -/
theorem tokens_member (key : String) (rest : List Char) :
    tokens (writeText key ++ ':' :: ' ' :: rest)
      = .text (some key) :: .colon :: tokens rest := by
  rw [tokens_writeText, tokens_sign _ rfl, tokens_space _ rfl]

/-- The digits of a number that fits into 64 bits are one token, that number. -/
theorem tokens_natural {n : Nat} {rest : List Char} (fits : n ≤ Literal.greatest)
    (ends : EndsNumber rest) :
    tokens ((toString n).toList ++ rest) = .scalar (.integer n) :: tokens rest := by
  have found := lexToken_natural fits ends
  have digits : (toString n).toList = Nat.toDigits 10 n := Nat.toList_repr
  obtain ⟨c, more, shape, digit⟩ := toDigits_eq_cons n
  rw [digits, shape, List.cons_append] at found ⊢
  exact tokens_cons (isSpace_of_isDigit digit) found

namespace Value

theorem endsNumber_writeItems (depth : Nat) (more : List Value) {rest : List Char}
    (ends : EndsNumber rest) : EndsNumber (writeItems depth more ++ rest) := by
  cases more with
  | nil => exact ends
  | cons v more => exact endsNumber_cons (by decide)

theorem endsNumber_writeMembers (depth : Nat) (more : List (String × Value)) {rest : List Char}
    (ends : EndsNumber rest) : EndsNumber (writeMembers depth more ++ rest) := by
  cases more with
  | nil => exact ends
  | cons member more => exact endsNumber_cons (by decide)

theorem endsNumber_newline (depth : Nat) (rest : List Char) :
    EndsNumber (newline depth ++ rest) := endsNumber_cons (by decide)

mutual

/-- What `writeAt` writes of a value falls into the tokens of its tree, at any `depth` and before
any text that does not carry a number on. -/
theorem tokens_writeAt (depth : Nat) (v : Value) (fits : v.Fits) {rest : List Char}
    (ends : EndsNumber rest) :
    tokens (writeAt depth v ++ rest) = tokensOf v.tree ++ tokens rest := by
  match v with
  | .null => exact tokens_cons rfl rfl
  | .bool true => exact tokens_cons rfl rfl
  | .bool false => exact tokens_cons rfl rfl
  | .number n =>
    rw [Fits] at fits
    exact tokens_natural fits ends
  | .string s => exact tokens_writeText s rest
  | .array [] =>
    have split : writeAt depth (.array []) ++ rest = '[' :: ']' :: rest := by
      rw [writeAt, List.cons_append, List.cons_append, List.nil_append]
    rw [split, tokens_sign _ rfl, tokens_sign _ rfl]
    rfl
  | .array (v :: more) =>
    rw [Fits, ItemsFit] at fits
    have split : writeAt depth (.array (v :: more)) ++ rest
        = '[' :: (newline (depth + 1) ++ (writeAt (depth + 1) v ++ (writeItems (depth + 1) more
          ++ (newline depth ++ ']' :: rest)))) := by
      rw [writeAt]
      simp only [List.append_assoc, List.cons_append, List.nil_append]
    have closes : EndsNumber (newline depth ++ ']' :: rest) := endsNumber_newline depth _
    rw [split, tokens_sign _ rfl, tokens_newline,
      tokens_writeAt _ v fits.1 (endsNumber_writeItems _ more closes),
      tokens_writeItems _ more fits.2 closes, tokens_newline, tokens_sign _ rfl, tree, itemTrees,
      tokensOf]
    simp only [List.append_assoc, List.cons_append, List.nil_append]
  | .object [] =>
    have split : writeAt depth (.object []) ++ rest = '{' :: '}' :: rest := by
      rw [writeAt, List.cons_append, List.cons_append, List.nil_append]
    rw [split, tokens_sign _ rfl, tokens_sign _ rfl]
    rfl
  | .object ((key, v) :: more) =>
    rw [Fits, MembersFit] at fits
    have split : writeAt depth (.object ((key, v) :: more)) ++ rest
        = '{' :: (newline (depth + 1) ++ (writeText key ++ ':' :: ' ' :: (writeAt (depth + 1) v
          ++ (writeMembers (depth + 1) more ++ (newline depth ++ '}' :: rest))))) := by
      rw [writeAt]
      simp only [List.append_assoc, List.cons_append, List.nil_append]
    have closes : EndsNumber (newline depth ++ '}' :: rest) := endsNumber_newline depth _
    rw [split, tokens_sign _ rfl, tokens_newline, tokens_member,
      tokens_writeAt _ v fits.1 (endsNumber_writeMembers _ more closes),
      tokens_writeMembers _ more fits.2 closes, tokens_newline, tokens_sign _ rfl, tree,
      memberTrees, tokensOf]
    simp only [List.append_assoc, List.cons_append, List.nil_append]

/-- What `writeItems` writes falls into the tokens of the trees of further items. -/
theorem tokens_writeItems (depth : Nat) (more : List Value) (fits : ItemsFit more)
    {rest : List Char} (ends : EndsNumber rest) :
    tokens (writeItems depth more ++ rest) = itemTokens (itemTrees more) ++ tokens rest := by
  match more with
  | [] => rfl
  | v :: more =>
    rw [ItemsFit] at fits
    have split : writeItems depth (v :: more) ++ rest
        = ',' :: (newline depth ++ (writeAt depth v ++ (writeItems depth more ++ rest))) := by
      rw [writeItems]
      simp only [List.append_assoc, List.cons_append]
    rw [split, tokens_sign _ rfl, tokens_newline,
      tokens_writeAt _ v fits.1 (endsNumber_writeItems _ more ends),
      tokens_writeItems _ more fits.2 ends, itemTrees, itemTokens]
    simp only [List.append_assoc, List.cons_append]

/-- What `writeMembers` writes falls into the tokens of the names and trees of further members. -/
theorem tokens_writeMembers (depth : Nat) (more : List (String × Value)) (fits : MembersFit more)
    {rest : List Char} (ends : EndsNumber rest) :
    tokens (writeMembers depth more ++ rest)
      = memberTokens (memberTrees more) ++ tokens rest := by
  match more with
  | [] => rfl
  | (key, v) :: more =>
    rw [MembersFit] at fits
    have split : writeMembers depth ((key, v) :: more) ++ rest
        = ',' :: (newline depth ++ (writeText key ++ ':' :: ' ' :: (writeAt depth v
          ++ (writeMembers depth more ++ rest)))) := by
      rw [writeMembers]
      simp only [List.append_assoc, List.cons_append]
    rw [split, tokens_sign _ rfl, tokens_newline, tokens_member,
      tokens_writeAt _ v fits.1 (endsNumber_writeMembers _ more ends),
      tokens_writeMembers _ more fits.2 ends, memberTrees, memberTokens]
    simp only [List.append_assoc, List.cons_append]

end

end Value

/-- What `write` writes of a value that `Fits` is read as its tree, and nothing else stands in
it. -/
theorem read_write {v : Value} (fits : v.Fits) : read v.write = (v.tree, true) := by
  apply read_of_tokens v.isSound_tree
  have spelled := Value.tokens_writeAt 0 v fits endsNumber_nil
  rw [List.append_nil, tokens_nil, List.append_nil] at spelled
  rw [Value.write, String.toList_ofList, spelled]

end Wordbook.Json
