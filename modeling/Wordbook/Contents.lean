import Wordbook.Dictionary

/-!
# The table of contents

One place for each letter of the alphabet: the letter itself if some alias of the dictionary starts
with it, and a marker, or nothing, if none does.

## Main Definitions

* `Contents` — which letters begin an alias
* `Contents.ofCommands` — the contents of a list of commands
* `Contents.render` — the contents on one line
-/

namespace Wordbook

/-- A place in the table of contents. -/
inductive Contents.Slot where
  /-- Some alias starts with the letter. -/
  | present (letter : Char)
  /-- No alias starts with the letter. -/
  | missing (letter : Char)
deriving DecidableEq, Repr

/-- The places of the table of contents in alphabetical order. -/
structure Contents where
  /-- The places, `a` first. -/
  slots : List Contents.Slot
deriving DecidableEq, Repr

namespace Contents

namespace Slot

/-- The letter of a place. -/
def letter : Slot → Char
  | present c => c
  | missing c => c

/-- Some alias starts with the letter of the place. -/
def isPresent : Slot → Bool
  | present _ => true
  | missing _ => false

/-- What stands in a place when the table is written with the given marker, if anything. -/
def shown (marker : Option Char) : Slot → Option Char
  | present c => some c
  | missing _ => marker

end Slot

/-- The letters that have a place. -/
def alphabet : List Char := "abcdefghijklmnopqrstuvwxyz".toList

/-- The marker of a missing letter unless another is chosen. -/
def defaultMarker : Char := '-'

/-- Some alias of some command starts with the letter. -/
def begins (commands : List Command) (letter : Char) : Bool :=
  commands.any (fun command => command.aliases.any (fun name => name.toList.head? == some letter))

/-- The table of contents of a list of commands. -/
def ofCommands (commands : List Command) : Contents :=
  ⟨alphabet.map (fun c => if begins commands c then .present c else .missing c)⟩

/-- The letters that begin an alias. -/
def letters (contents : Contents) : List Char :=
  (contents.slots.filter Slot.isPresent).map Slot.letter

/-- The table on one line.  Without a marker, missing letters leave no trace. -/
def render (contents : Contents) (marker : Option Char) : String :=
  String.ofList (contents.slots.filterMap (Slot.shown marker))

end Contents

/-- The table of contents of a dictionary. -/
def Dictionary.contents (d : Dictionary) : Contents := Contents.ofCommands d.commands

end Wordbook
