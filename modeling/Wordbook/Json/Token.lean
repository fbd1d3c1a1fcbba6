import Wordbook.Json.Number
import Wordbook.Json.Text

/-!
# JSON tokens

A JSON text as a row of signs, words, numbers and strings.

## Main Definitions

* `Token` — the smallest parts of a text
* `tokens` — the tokens of a text
-/

namespace Wordbook.Json

/-- A smallest part of a text. -/
inductive Token where
  /-- The sign that opens a list. -/
  | openList
  /-- The sign that closes a list. -/
  | closeList
  /-- The sign that opens a table. -/
  | openTable
  /-- The sign that closes a table. -/
  | closeTable
  /-- The sign between two parts of a container. -/
  | comma
  /-- The sign between a name and its value. -/
  | colon
  /-- A scalar other than a string. -/
  | scalar (value : Tree)
  /-- A string, with the text it stands for. -/
  | text (value : Option String)
  /-- No token: the text goes wrong here. -/
  | bad
deriving Repr

/-- White space between tokens. -/
def isSpace (c : Char) : Bool := c == ' ' || c == '\n' || c == '\t' || c == '\r'

/-- The sign that a character is. -/
def sign? : Char → Option Token
  | '[' => some .openList
  | ']' => some .closeList
  | '{' => some .openTable
  | '}' => some .closeTable
  | ',' => some .comma
  | ':' => some .colon
  | _ => none

/-- The word at the front of a text, and what follows. -/
def lexName : List Char → Option (Tree × List Char)
  | 'n' :: 'u' :: 'l' :: 'l' :: rest => some (.null, rest)
  | 't' :: 'r' :: 'u' :: 'e' :: rest => some (.bool true, rest)
  | 'f' :: 'a' :: 'l' :: 's' :: 'e' :: rest => some (.bool false, rest)
  | _ => none

/-- The scalar other than a string at the front of a text, and what follows. -/
def lexScalar (cs : List Char) : Option (Tree × List Char) :=
  match lexName cs with
  | some found => some found
  | none => (Literal.lex cs).map (fun (literal, rest) => (literal.tree, rest))

/-- The string behind an opening quote, and what follows. -/
def lexString (cs : List Char) : Option (Option String × List Char) :=
  (lexText cs).map (fun (pieces, rest) => ((assemble pieces).map String.ofList, rest))

/-- The token at the front of a text that does not begin with white space, and what follows. -/
def lexToken (cs : List Char) : Option (Token × List Char) :=
  match cs with
  | [] => none
  | '"' :: rest => (lexString rest).map (fun (value, behind) => (.text value, behind))
  | c :: rest =>
    match sign? c with
    | some token => some (token, rest)
    | none => (lexScalar cs).map (fun (value, behind) => (.scalar value, behind))

/-- What follows a word is shorter than the word with what follows it. -/
theorem length_lt_of_lexName {cs rest : List Char} {t : Tree} (h : lexName cs = some (t, rest)) :
    rest.length < cs.length := by
  unfold lexName at h
  split at h <;> simp_all <;> grind

/-- What follows a token is shorter than the token with what follows it. -/
theorem length_lt_of_lexToken {cs rest : List Char} {token : Token}
    (h : lexToken cs = some (token, rest)) : rest.length < cs.length := by
  unfold lexToken at h
  split at h
  · simp at h
  · rename_i behind
    simp only [lexString, Option.map_map, Option.map_eq_some_iff, Prod.exists, Function.comp_apply,
      Prod.mk.injEq] at h
    obtain ⟨_, _, read, -, rfl⟩ := h
    have := length_lt_of_lexText read
    simp only [List.length_cons]
    omega
  · split at h
    · simp only [Option.some.injEq, Prod.mk.injEq] at h
      simp [h.2]
    · simp only [lexScalar] at h
      split at h
      · rename_i name
        simp only [Option.map_some, Option.some.injEq, Prod.mk.injEq] at h
        exact h.2 ▸ length_lt_of_lexName name
      · simp only [Option.map_map, Option.map_eq_some_iff, Prod.exists, Function.comp_apply,
          Prod.mk.injEq] at h
        obtain ⟨_, _, read, -, rfl⟩ := h
        exact Literal.length_lt_of_lex read

/-- The tokens of a text.  Where none can be read, a bad one stands at the end. -/
def tokens (cs : List Char) : List Token :=
  match cs with
  | [] => []
  | c :: rest =>
    if isSpace c then tokens rest
    else
      match _found : lexToken (c :: rest) with
      | none => [.bad]
      | some (token, behind) => token :: tokens behind
termination_by cs.length
decreasing_by
  · simp
  · exact length_lt_of_lexToken _found

@[simp] theorem tokens_nil : tokens [] = [] := by
  rw [tokens]

theorem tokens_space {c : Char} (rest : List Char) (h : isSpace c = true) :
    tokens (c :: rest) = tokens rest := by
  rw [tokens]
  simp [h]

/-- The tokens of a text are its first one and those of what follows it. -/
theorem tokens_cons {c : Char} {rest behind : List Char} {token : Token}
    (visible : isSpace c = false) (found : lexToken (c :: rest) = some (token, behind)) :
    tokens (c :: rest) = token :: tokens behind := by
  rw [tokens]
  simp only [visible, Bool.false_eq_true, if_false]
  split <;> simp_all

end Wordbook.Json
