import Wordbook.Completion
import Wordbook.Signature

/-!
# Completing while a line is typed

In a line editor a word is completed only when the cursor stands right behind it.  The tab key then
offers every alias that the word opens, and at the end of the line a hint shows the rest of the best
one.

## Main Definitions

* `Choice` — a text the tab key offers
* `Completer.wordEndingAt` — the completion of a word that ends at the cursor
* `Completer.choices` — what the tab key offers and where it goes
* `Completer.hint` — the rest of the best alias
-/

namespace Wordbook

/-- A text that may replace the typed word. -/
structure Choice where
  /-- The text put in. -/
  replacement : String
  /-- What the list of choices shows for it. -/
  display : String
deriving DecidableEq, Repr

namespace Completer

/-- The completion at a byte offset of a line, if a word ends right there. -/
def wordEndingAt (completer : Completer) (line : String) (pos : Nat) : Option Completion :=
  let completion := completer.completeAtByte line pos
  if !completion.word.isEmpty && completion.word.stop == Text.charOffset line.toList pos then
    some completion
  else none

/-- The choices that one command offers for a word. -/
def choicesOf (token : String) (command : Command) : List Choice :=
  (command.aliases.filter (opens token)).map (fun name => ⟨name, command.withSignature name⟩)

/-- What the tab key offers at a byte offset of a line, best command first, and the byte offset at
which the replaced word starts.  Where no word ends, nothing is offered. -/
def choices (completer : Completer) (line : String) (pos : Nat) : Nat × List Choice :=
  match completer.wordEndingAt line pos with
  | none => (pos, [])
  | some completion =>
    (Text.byteOffset line.toList completion.word.start,
      (completion.candidates.filterMap completer.dictionary.command?).flatMap
        (choicesOf completion.token))

/-- What is left to type of the best command at the end of a line: the rest of its alias and its
signature, if either has anything to show. -/
def hint (completer : Completer) (line : String) (pos : Nat) : Option String :=
  if pos < Text.byteLength line.toList then none
  else
    match completer.wordEndingAt line pos with
    | none => none
    | some completion =>
      match completion.best completer.dictionary with
      | none => none
      | some (command, name) =>
        let rest := String.ofList (name.toList.drop completion.token.length)
        if command.signature.isEmpty && rest.isEmpty then none
        else some (command.withSignature rest)

end Completer

end Wordbook
