/-!
# Lines

How a text falls into lines, and how lines are put together again.

## Main Definitions

* `lines` — the lines of a text
* `unlines` — a text that ends every line with a line feed
-/

namespace Wordbook.Text

/-- The lines of a text.  A line ends at a line feed, alone or behind a carriage return; what
follows the last line feed is a line only if it has any characters. -/
def lines : List Char → List (List Char)
  | [] => []
  | '\n' :: rest => [] :: lines rest
  | '\r' :: '\n' :: rest => [] :: lines rest
  | c :: rest =>
    match lines rest with
    | [] => [[c]]
    | line :: more => (c :: line) :: more

/-- Every line with a line feed behind it, one after the other. -/
def unlines (ls : List String) : String :=
  ls.foldr (fun line text => line ++ "\n" ++ text) ""

@[simp] theorem lines_nil : lines [] = [] := rfl

@[simp] theorem lines_newline (rest : List Char) : lines ('\n' :: rest) = [] :: lines rest := by
  simp [lines]

@[simp] theorem unlines_nil : unlines [] = "" := rfl

@[simp] theorem unlines_cons (line : String) (more : List String) :
    unlines (line :: more) = line ++ "\n" ++ unlines more := rfl

end Wordbook.Text
