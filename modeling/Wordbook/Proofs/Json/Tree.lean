import Wordbook.Json.Reader

/-!
# Trees read back from JSON tokens

A sound tree can be spelled as a row of tokens, and the reader makes of them the tree again, inside
of whatever containers are open.

## Main Definitions

* `tokensOf` — the tokens of a tree

## Main Statements

* `run_tokensOf` — the tokens of a sound tree deliver that tree
* `read_of_tokens` — a text whose tokens are those of a sound tree is read as that tree

## Design Notes

The reader keeps the open containers on a stack, and a value leaves all of them but the innermost as
they are.  That is the invariant the induction over the tree needs, so the statements speak of any
stack, and those about the parts of a container of any parts before them.
-/

namespace Wordbook.Json

mutual

/-- The tokens of a tree. -/
def tokensOf : Tree → List Token
  | .text s => [.text (some s)]
  | .list [] _ => [.openList, .closeList]
  | .list (t :: more) _ => .openList :: tokensOf t ++ itemTokens more ++ [.closeList]
  | .table [] _ => [.openTable, .closeTable]
  | .table ((key, t) :: more) _ =>
    .openTable :: .text key :: .colon :: tokensOf t ++ memberTokens more ++ [.closeTable]
  | t => [.scalar t]

/-- The tokens of the items of a list behind the first. -/
def itemTokens : List Tree → List Token
  | [] => []
  | t :: more => .comma :: tokensOf t ++ itemTokens more

/-- The tokens of the members of a table behind the first. -/
def memberTokens : List (Option String × Tree) → List Token
  | [] => []
  | (key, t) :: more => .comma :: .text key :: .colon :: tokensOf t ++ memberTokens more

end

namespace State

/-- Reads tokens with `step`, one after the other. -/
def run (state : State) (tokens : List Token) : State := tokens.foldl step state

theorem run_append (state : State) (tokens more : List Token) :
    state.run (tokens ++ more) = (state.run tokens).run more := List.foldl_append

/-- No tree begins with the end of a list, so in the state `firstItem` its tokens are read as in the
state `value`. -/
theorem run_firstItem_tokensOf (frames : List Frame) (t : Tree) :
    run (.reading .firstItem frames) (tokensOf t) = run (.reading .value frames) (tokensOf t) := by
  cases t with
  | list items whole => cases items <;> rfl
  | table members whole =>
    cases members with
    | nil => rfl
    | cons member more =>
      obtain ⟨key, t⟩ := member
      rfl
  | _ => rfl

mutual

/-- The tokens of a sound tree `deliver` that tree into the containers that are open. -/
theorem run_tokensOf (t : Tree) (sound : t.isSound = true) (frames : List Frame) :
    run (.reading .value frames) (tokensOf t) = deliver frames t := by
  match t with
  | .list [] whole =>
    rw [Tree.isSound, Bool.and_eq_true] at sound
    obtain ⟨-, rfl⟩ := sound
    rfl
  | .list (t :: more) whole =>
    rw [Tree.isSound, Tree.areSound, Bool.and_eq_true, Bool.and_eq_true] at sound
    obtain ⟨⟨first, others⟩, rfl⟩ := sound
    have opened : run (.reading .value frames) [.openList]
        = .reading .firstItem (.list [] :: frames) := rfl
    have split : tokensOf (.list (t :: more) true)
        = [.openList] ++ tokensOf t ++ itemTokens more ++ [.closeList] := rfl
    rw [split, run_append, run_append, run_append, opened, run_firstItem_tokensOf,
      run_tokensOf t first, deliver, run_itemTokens more others]
    -- The stack holds the items backwards, and the end of the list turns them round.
    show deliver frames (.list (more.reverse ++ [t]).reverse true) = _
    rw [List.reverse_append, List.reverse_reverse, List.reverse_singleton, List.singleton_append]
  | .table [] whole =>
    rw [Tree.isSound, Bool.and_eq_true] at sound
    obtain ⟨-, rfl⟩ := sound
    rfl
  | .table ((key, t) :: more) whole =>
    rw [Tree.isSound, Tree.membersAreSound, Bool.and_eq_true, Bool.and_eq_true] at sound
    obtain ⟨⟨first, others⟩, rfl⟩ := sound
    have named : run (.reading .value frames) [.openTable, .text key, .colon]
        = .reading .value (.member [] key :: frames) := rfl
    have split : tokensOf (.table ((key, t) :: more) true)
        = [.openTable, .text key, .colon] ++ tokensOf t ++ memberTokens more ++ [.closeTable] :=
      rfl
    rw [split, run_append, run_append, run_append, named, run_tokensOf t first, deliver,
      run_memberTokens more others]
    show deliver frames (.table (more.reverse ++ [(key, t)]).reverse true) = _
    rw [List.reverse_append, List.reverse_reverse, List.reverse_singleton, List.singleton_append]
  | .text _ => rfl
  | .null => rfl
  | .bool _ => rfl
  | .integer _ => rfl
  | .float _ => rfl
  | .moment => rfl
  | .rows _ => rfl
  | .unreadable => rfl
  | .broken => rfl

/-- The tokens of further items put them behind the ones before. -/
theorem run_itemTokens (more : List Tree) (sound : Tree.areSound more = true) (items : List Tree)
    (frames : List Frame) :
    run (.reading .comma (.list items :: frames)) (itemTokens more)
      = .reading .comma (.list (more.reverse ++ items) :: frames) := by
  match more with
  | [] => rfl
  | t :: more =>
    rw [Tree.areSound, Bool.and_eq_true] at sound
    have next : run (.reading .comma (.list items :: frames)) [.comma]
        = .reading .value (.list items :: frames) := rfl
    have split : itemTokens (t :: more) = [.comma] ++ tokensOf t ++ itemTokens more := rfl
    rw [split, run_append, run_append, next, run_tokensOf t sound.1, deliver,
      run_itemTokens more sound.2, List.reverse_cons, List.append_assoc, List.singleton_append]

/-- The tokens of further members put them behind the ones before. -/
theorem run_memberTokens (more : List (Option String × Tree))
    (sound : Tree.membersAreSound more = true) (members : List (Option String × Tree))
    (frames : List Frame) :
    run (.reading .comma (.table members :: frames)) (memberTokens more)
      = .reading .comma (.table (more.reverse ++ members) :: frames) := by
  match more with
  | [] => rfl
  | (key, t) :: more =>
    rw [Tree.membersAreSound, Bool.and_eq_true] at sound
    have named : run (.reading .comma (.table members :: frames)) [.comma, .text key, .colon]
        = .reading .value (.member members key :: frames) := rfl
    have split : memberTokens ((key, t) :: more)
        = [.comma, .text key, .colon] ++ tokensOf t ++ memberTokens more := rfl
    rw [split, run_append, run_append, named, run_tokensOf t sound.1, deliver,
      run_memberTokens more sound.2, List.reverse_cons, List.append_assoc, List.singleton_append]

end

end State

/-- A text whose tokens are those of a sound tree is read as that tree, and nothing else stands in
it. -/
theorem read_of_tokens {text : String} {t : Tree} (sound : t.isSound = true)
    (spelled : tokens text.toList = tokensOf t) : read text = (t, true) := by
  have delivered := State.run_tokensOf t sound []
  rw [State.run] at delivered
  rw [read, spelled, delivered]
  rfl

end Wordbook.Json
