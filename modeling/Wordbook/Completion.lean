import Wordbook.Ranking
import Wordbook.Text.Offset
import Wordbook.Word

/-!
# Completion

The answer to the question what a cursor in a script stands on: the word found there and the
commands it may stand for.

## Main Definitions

* `Completion` — the word at a cursor with its ranked candidates
* `Completion.state` — how far the search got
* `Completer` — a dictionary ready to answer
-/

namespace Wordbook

/-- The word at a cursor and the commands it may stand for. -/
structure Completion where
  /-- The word that was found. -/
  word : Word := {}
  /-- The commands it may stand for. -/
  ranking : Ranking := {}
deriving DecidableEq, Repr

/-- How far the search for a command got. -/
inductive Completion.State where
  /-- There is no word yet. -/
  | searching
  /-- No command has a name that opens with the word. -/
  | noMatch
  /-- One command is meant. -/
  | resolved
  /-- Several commands may be meant. -/
  | ambiguous
deriving DecidableEq, Repr

namespace Completion

/-- The characters of the word. -/
def token (completion : Completion) : String := completion.word.text

/-- The positions of the candidates, the best one first. -/
def candidates (completion : Completion) : List Nat := completion.ranking.candidates

/-- The word is a name of the best candidate. -/
def isExact (completion : Completion) : Bool := completion.ranking.isExact

/-- How far the search got. -/
def state (completion : Completion) : State :=
  if completion.word.isEmpty then .searching
  else
    match completion.candidates with
    | [] => .noMatch
    | [_] => .resolved
    | _ => if completion.isExact then .resolved else .ambiguous

/-- The best command in the dictionary that was asked, with the alias that the word opens. -/
def best (completion : Completion) (d : Dictionary) : Option (Command × String) :=
  match completion.ranking.best with
  | none => none
  | some best =>
    match d.command? best.command with
    | none => none
    | some command => (command.aliases[best.place]?).map (command, ·)

end Completion

/-- A dictionary and the effort spent on finding a word. -/
structure Completer where
  /-- The dictionary to look words up in. -/
  dictionary : Dictionary
  /-- How many passes the search for a word may take. -/
  passes : Nat := Word.defaultPasses
deriving DecidableEq, Repr

namespace Completer

/-- Completes the word that the cursor, counted in characters, belongs to. -/
def complete (completer : Completer) (text : String) (cursor : Nat) : Completion :=
  let word := Word.find completer.passes text cursor
  let d := completer.dictionary
  ⟨word, d.rank word.text (d.matching word.text)⟩

/-- Completes the word that the cursor, counted in bytes, belongs to. -/
def completeAtByte (completer : Completer) (text : String) (cursor : Nat) : Completion :=
  completer.complete text (Text.charOffset text.toList cursor)

@[simp] theorem token_complete (completer : Completer) (text : String) (cursor : Nat) :
    (completer.complete text cursor).token = (Word.find completer.passes text cursor).text := rfl

end Completer

end Wordbook
