import Mathlib.Data.List.DropRight
import Wordbook.Text.Blank
import Wordbook.Text.Lines

/-!
# Lines and blanks

Lines that are put together fall apart again, and what is left of a text without the blanks at its
ends.

## Main Definitions

* `IsLine` — a text is a line by itself
* `dropReturn` — what is left of a line when it ends

## Main Statements

* `lines_append_feed` — a text up to its first line feed is its first line
* `lines_unlines_append` — lines with their line feeds are the first lines of a text
* `exists_lines_eq` — the lines of a text, cut at its line feeds
* `splitOn_unlines` — lines with their line feeds are cut behind each of them
* `trim_eq_nil_iff` — nothing is left of blanks
* `isBlank_of_trim_eq_cons`, `isBlank_of_trim_eq_concat` — what is left has no blank at its ends
-/

namespace Wordbook.Text

/-! ### Lines -/

/-- The characters `line` are a line by themselves: there is no line feed among them, and they end
in no carriage return. -/
def IsLine (line : List Char) : Prop := '\n' ∉ line ∧ line.getLast? ≠ some '\r'

/-- The character `c` goes to the first of `lines rest`, unless a line ends there. -/
theorem lines_cons {c : Char} {rest : List Char} (noFeed : c ≠ '\n')
    (noReturn : c = '\r' → rest.head? ≠ some '\n') :
    lines (c :: rest) = (c :: (lines rest).headD []) :: (lines rest).tail := by
  rw [lines]
  · cases lines rest <;> rfl
  · exact noFeed
  · rintro more rfl rfl
    exact noReturn rfl rfl

/-- What is left of `line` when it ends: a carriage return behind it goes with the line feed. -/
def dropReturn (line : List Char) : List Char :=
  if line.getLast? = some '\r' then line.dropLast else line

theorem dropReturn_of_isLine {line : List Char} (whole : IsLine line) : dropReturn line = line :=
  if_neg whole.2

theorem isPrefix_dropReturn (line : List Char) : dropReturn line <+: line := by
  unfold dropReturn
  split
  · exact List.dropLast_prefix line
  · exact List.prefix_rfl

theorem dropReturn_cons_cons (c d : Char) (rest : List Char) :
    dropReturn (c :: d :: rest) = c :: dropReturn (d :: rest) := by
  unfold dropReturn
  rw [List.getLast?_cons_cons, List.dropLast_cons_cons]
  split <;> rfl

theorem lines_return (rest : List Char) : lines ('\r' :: '\n' :: rest) = [] :: lines rest := by
  simp [lines]

/-- A text up to its first line feed is its first line, by `dropReturn`. -/
theorem lines_append_feed {line : List Char} (noFeed : '\n' ∉ line) (rest : List Char) :
    lines (line ++ '\n' :: rest) = dropReturn line :: lines rest := by
  induction line with
  | nil => exact lines_newline rest
  | cons c line ih =>
    rw [List.mem_cons, not_or] at noFeed
    -- Only the last character of the line can be a carriage return that goes with the line feed.
    cases line with
    | nil =>
      by_cases isReturn : c = '\r'
      · rw [isReturn]
        exact lines_return rest
      · rw [List.singleton_append, lines_cons (Ne.symm noFeed.1) (fun same => absurd same isReturn),
          lines_newline, dropReturn_of_isLine ⟨by simpa using noFeed.1, by simpa using isReturn⟩]
        rfl
    | cons d line =>
      have noReturn : c = '\r' → (d :: line ++ '\n' :: rest).head? ≠ some '\n' := by
        rintro - feed
        exact noFeed.2 (List.mem_cons.mpr (Or.inl (Option.some_inj.mp feed).symm))
      rw [List.cons_append, lines_cons (Ne.symm noFeed.1) noReturn, ih noFeed.2, List.headD_cons,
        List.tail_cons, dropReturn_cons_cons]

/-- A `line` that is one by itself is the first of a text that goes on with a line feed behind
it. -/
theorem lines_append_newline {line : List Char} (whole : IsLine line) (rest : List Char) :
    lines (line ++ '\n' :: rest) = line :: lines rest := by
  rw [lines_append_feed whole.1, dropReturn_of_isLine whole]

/-- A text without a line feed is a line unless it is empty. -/
theorem lines_eq_singleton {line : List Char} (noFeed : '\n' ∉ line) (some : line ≠ []) :
    lines line = [line] := by
  induction line with
  | nil => exact absurd rfl some
  | cons c line ih =>
    have later : '\n' ∉ line := fun feed => noFeed (List.mem_cons_of_mem c feed)
    rw [lines_cons]
    · by_cases last : line = []
      · rw [last]
        rfl
      · rw [ih later last, List.headD_cons, List.tail_cons]
    · rintro rfl
      exact noFeed List.mem_cons_self
    · exact fun _ feed => later (List.mem_of_mem_head? feed)

/-- Lines that `unlines` writes are the first lines of a text that begins with them. -/
theorem lines_unlines_append {ls : List String} (whole : ∀ line ∈ ls, IsLine line.toList)
    (rest : List Char) :
    lines ((unlines ls).toList ++ rest) = ls.map String.toList ++ lines rest := by
  induction ls with
  | nil => rfl
  | cons line ls ih =>
    rw [List.forall_mem_cons] at whole
    have split : (unlines (line :: ls)).toList ++ rest
        = line.toList ++ '\n' :: ((unlines ls).toList ++ rest) := by
      simp
    rw [split, lines_append_newline whole.1, ih whole.2, List.map_cons, List.cons_append]

/-! ### Pieces between line feeds -/

/-- The pieces that `List.splitOn` makes at line feeds have none. -/
theorem not_mem_of_mem_splitOn {text piece : List Char} (member : piece ∈ text.splitOn '\n') :
    '\n' ∉ piece := by
  induction text generalizing piece with
  | nil =>
    rw [List.splitOn_nil, List.mem_singleton] at member
    rw [member]
    exact List.not_mem_nil
  | cons c text ih =>
    rw [List.splitOn_cons_eq_if_modifyHead] at member
    split at member
    next feed =>
      rcases List.mem_cons.mp member with rfl | later
      · exact List.not_mem_nil
      · exact ih later
    next other =>
      obtain ⟨first, more, split⟩ := List.exists_cons_of_ne_nil (List.splitOn_ne_nil '\n' text)
      rw [split, List.modifyHead_cons] at member
      have later : ∀ piece ∈ first :: more, '\n' ∉ piece := fun piece member =>
        ih (split ▸ member)
      rw [List.forall_mem_cons] at later
      rcases List.mem_cons.mp member with rfl | behind
      · rw [List.mem_cons, not_or]
        exact ⟨fun feed => other (beq_iff_eq.mpr feed.symm), later.1⟩
      · exact later.2 piece behind

/-- The lines of a text that is cut at its line feeds are its pieces, each without a carriage return
behind it.  The last piece is one as it is, unless it is empty. -/
theorem lines_intercalate {pieces : List (List Char)} {last : List Char}
    (noFeed : ∀ piece ∈ pieces, '\n' ∉ piece) (noFeed' : '\n' ∉ last) :
    lines (['\n'].intercalate (pieces ++ [last]))
      = pieces.map dropReturn ++ if last = [] then [] else [last] := by
  induction pieces with
  | nil =>
    rw [List.nil_append, List.intercalate_singleton, List.map_nil, List.nil_append]
    split
    next none => rw [none, lines_nil]
    next some => exact lines_eq_singleton noFeed' some
  | cons piece pieces ih =>
    rw [List.forall_mem_cons] at noFeed
    have cut : ['\n'].intercalate (piece :: pieces ++ [last])
        = piece ++ '\n' :: ['\n'].intercalate (pieces ++ [last]) := by
      rw [List.cons_append, List.intercalate_cons_of_ne_nil (by simp), List.append_assoc]
      rfl
    rw [cut, lines_append_feed noFeed.1, ih noFeed.2, List.map_cons, List.cons_append]

/-- The lines of a text in terms of what `List.splitOn` makes of it. -/
theorem exists_lines_eq (text : List Char) :
    ∃ pieces last, text.splitOn '\n' = pieces ++ [last]
      ∧ lines text = pieces.map dropReturn ++ if last = [] then [] else [last] := by
  have some := List.splitOn_ne_nil '\n' text
  refine ⟨(text.splitOn '\n').dropLast, (text.splitOn '\n').getLast some,
    (List.dropLast_append_getLast some).symm, ?_⟩
  rw [← lines_intercalate, List.dropLast_append_getLast, List.intercalate_splitOn]
  · exact fun piece member => not_mem_of_mem_splitOn ((List.dropLast_sublist _).mem member)
  · exact not_mem_of_mem_splitOn (List.getLast_mem some)

/-- No line of a text has a line feed. -/
theorem not_mem_of_mem_lines {text line : List Char} (member : line ∈ lines text) :
    '\n' ∉ line := by
  obtain ⟨pieces, last, cut, fallen⟩ := exists_lines_eq text
  have noFeed : ∀ piece ∈ pieces ++ [last], '\n' ∉ piece := fun piece member =>
    not_mem_of_mem_splitOn (cut ▸ member)
  rw [fallen, List.mem_append, List.mem_map] at member
  rcases member with ⟨piece, inside, rfl⟩ | final
  · intro feed
    exact noFeed piece (List.mem_append_left _ inside) ((isPrefix_dropReturn piece).mem feed)
  · split at final
    · cases final
    · rw [List.mem_singleton.mp final]
      exact noFeed last List.mem_concat_self

/-- What `unlines` writes is cut by `List.splitOn` into the lines and an empty piece. -/
theorem splitOn_unlines {ls : List String} (noFeed : ∀ line ∈ ls, '\n' ∉ line.toList) :
    (unlines ls).toList.splitOn '\n' = ls.map String.toList ++ [[]] := by
  induction ls with
  | nil => rfl
  | cons line ls ih =>
    rw [List.forall_mem_cons] at noFeed
    have cut : (unlines (line :: ls)).toList = line.toList ++ '\n' :: (unlines ls).toList := by
      simp
    rw [cut, List.splitOn_append_cons_self_of_not_mem noFeed.1, ih noFeed.2, List.map_cons,
      List.cons_append]

theorem count_unlines {ls : List String} (noFeed : ∀ line ∈ ls, '\n' ∉ line.toList) :
    (unlines ls).toList.count '\n' = ls.length := by
  induction ls with
  | nil => rfl
  | cons line ls ih =>
    rw [List.forall_mem_cons] at noFeed
    rw [unlines_cons, String.toList_append, String.toList_append, List.count_append,
      List.count_append, List.count_eq_zero.mpr noFeed.1, ih noFeed.2, List.length_cons]
    exact Nat.add_comm _ _

/-! ### Blanks -/

/-- The text that `trim` leaves, with `List.rdropWhile` for the blanks at the end. -/
theorem trim_eq_rdropWhile (text : List Char) :
    trim text = (text.dropWhile isBlank).rdropWhile isBlank := rfl

/-- The text `trim text` is empty exactly if all of `text` is blank. -/
theorem trim_eq_nil_iff {text : List Char} : trim text = [] ↔ ∀ c ∈ text, isBlank c = true := by
  rw [trim_eq_rdropWhile, List.rdropWhile_eq_nil_iff]
  constructor
  · intro blank
    rw [← List.takeWhile_append_dropWhile (p := isBlank) (l := text), List.forall_mem_append]
    exact ⟨fun _ => List.mem_takeWhile_imp, blank⟩
  · exact fun blank c member => blank c ((List.dropWhile_sublist isBlank).mem member)

/-- The first character of `trim text` is no blank. -/
theorem isBlank_of_trim_eq_cons {text rest : List Char} {c : Char} (left : trim text = c :: rest) :
    isBlank c = false := by
  obtain ⟨behind, split⟩ := List.rdropWhile_prefix isBlank (text.dropWhile isBlank)
  rw [← trim_eq_rdropWhile, left, List.cons_append] at split
  have first := List.head?_dropWhile_not isBlank text
  rwa [← split] at first

/-- The last character of `trim text` is no blank. -/
theorem isBlank_of_trim_eq_concat {text rest : List Char} {c : Char}
    (left : trim text = rest ++ [c]) : isBlank c = false := by
  have last := List.rdropWhile_last_not isBlank (text.dropWhile isBlank)
  simp only [← trim_eq_rdropWhile, left, List.getLast_append_singleton] at last
  exact Bool.eq_false_iff.mpr (last (by simp))

end Wordbook.Text
