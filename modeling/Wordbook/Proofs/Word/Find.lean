import Wordbook.Proofs.Word.Search

/-!
# Which word a cursor belongs to

The word that `find` returns starts at the last start before the cursor and goes on for as long as
there are lower-case letters.

## Main Definitions

* `IsLongest` — letters of a kind at the front of a text, as many as there are

## Main Statements

* `find_of_isLast` — what is found, given the last start
* `find_isLast` — what is found, in terms of the text alone
-/

namespace Wordbook.Word

/-! ### The place where the search begins -/

theorem entry_lt {text : List Char} (present : 0 < text.length) (cursor : Nat) :
    entry text cursor < text.length := by
  unfold entry
  simp only
  split
  · omega
  · split <;> omega

/-- The `entry` of a cursor is not before the cursor, unless the text ends before it. -/
theorem le_entry {text : List Char} {start cursor : Nat} (inside : start < text.length)
    (behind : start ≤ cursor) : start ≤ entry text cursor := by
  unfold entry
  simp only
  split
  · omega
  · split <;> omega

/-- The `entry` of a cursor, in the words of the text: the cursor moved onto the text, and one
further if neither a space nor a line feed stands there. -/
theorem entry_eq {text : List Char} {cursor here p : Nat} (present : 0 < text.length)
    (clamped : here = min cursor (text.length - 1))
    (moved : p = if text[here]? = some ' ' ∨ text[here]? = some '\n' then here
      else min (here + 1) (text.length - 1)) :
    entry text cursor = p := by
  have inside : here < text.length := by omega
  rw [moved, entry, ← clamped, List.getElem?_eq_getElem inside]
  simp only [isBreak, Bool.or_eq_true, beq_iff_eq, Option.some.injEq]

/-! ### The word that is found -/

/-- The list `run` has the characters of a `kind` at the front of `text`, as many as there are in a
row. -/
def IsLongest (kind : Char → Bool) (text run : List Char) : Prop :=
  ∃ later, text = run ++ later ∧ (∀ c ∈ run, kind c = true) ∧ ∀ c ∈ later.head?, kind c = false

theorem isLongest_takeWhile (kind : Char → Bool) (text : List Char) :
    IsLongest kind text (text.takeWhile kind) := by
  refine ⟨text.dropWhile kind, List.takeWhile_append_dropWhile.symm, ?_, ?_⟩
  · exact List.all_eq_true.mp List.all_takeWhile
  · intro c first
    have ends := List.head?_dropWhile_not kind text
    rw [Option.mem_def.mp first] at ends
    exact ends

/-- What `find` returns in terms of the last start: the lower-case letters from there on, given more
`passes` than there are `coloursBehind` it. -/
theorem find_of_isLast {text : String} (present : 0 < text.toList.length)
    {cursor passes start : Nat}
    (last : IsLast (IsStart text.toList (entry text.toList cursor)) start)
    (enough : (coloursBehind text.toList start (entry text.toList cursor)).card < passes) :
    find passes text cursor
      = ⟨String.ofList ((text.toList.drop start).takeWhile Char.isLower), start⟩ := by
  have inside := entry_lt present cursor
  have within : start < text.toList.length := by
    rcases last with ⟨isStart, -⟩ | ⟨-, rfl⟩
    · exact Nat.lt_of_le_of_lt isStart.1.1 inside
    · exact present
  have settled := settle_upTo inside last enough
  have place : behind text.toList cursor = upTo text.toList (entry text.toList cursor) := rfl
  rw [find, place, settled]
  simp only [offset_upTo within]

/-- The word that `find` returns starts at the last place where `IsStart` holds for `p`, or at the
front of `text` if there is none, and goes on for as long as there are lower-case letters.  Here `p`
is where the search begins, and `passes` has to exceed the number of places up to `p` where a space
is followed by the sign of a colour. -/
theorem find_isLast {text : String} (present : text ≠ "") {cursor passes here p : Nat}
    (clamped : here = min cursor (text.length - 1))
    (moved : p = if text.toList[here]? = some ' ' ∨ text.toList[here]? = some '\n' then here
      else min (here + 1) (text.length - 1))
    (enough : ((Finset.Icc 1 p).filter
      (fun i => text.toList[i - 1]? = some ' ' ∧ text.toList[i]? = some '#')).card < passes) :
    IsLast (IsStart text.toList p) (find passes text cursor).start
      ∧ IsLongest Char.isLower (text.toList.drop (find passes text cursor).start)
        (find passes text cursor).text.toList := by
  have nonempty : 0 < text.toList.length := by
    apply List.length_pos_iff.mpr
    intro empty
    exact present (String.toList_eq_nil_iff.mp empty)
  have begins : entry text.toList cursor = p := entry_eq nonempty clamped moved
  have last : IsLast (IsStart text.toList p) (Nat.findGreatest (IsStart text.toList p) p) :=
    isLast_findGreatest (fun i isStart => isStart.1.1)
  have fewer := Finset.card_le_card
    (coloursBehind_subset text.toList (Nat.findGreatest (IsStart text.toList p) p) p)
  rw [← begins] at last fewer enough
  have found := find_of_isLast nonempty last (Nat.lt_of_le_of_lt fewer enough)
  rw [begins] at found last
  rw [found]
  refine ⟨last, ?_⟩
  rw [String.toList_ofList]
  exact isLongest_takeWhile _ _

/-- A cursor past the end of `tx #fff` belongs to `tx`, which is found in two passes. -/
theorem find_isLast_colour :
    (IsLast (IsStart "tx #fff".toList 6) (find 2 "tx #fff" 9).start
      ∧ IsLongest Char.isLower ("tx #fff".toList.drop (find 2 "tx #fff" 9).start)
        (find 2 "tx #fff" 9).text.toList)
    ∧ find 2 "tx #fff" 9 = ⟨"tx", 0⟩ :=
  ⟨find_isLast (by decide) rfl (by decide) (by decide), by decide⟩

end Wordbook.Word
