import Wordbook.Dictionary

/-!
# Matching and ranking

Which commands a partly typed word may stand for, and which of them it most likely means.

## Main Definitions

* `opens` — a typed word opens an alias
* `Dictionary.matching` — the commands a word may stand for
* `Hit`, `Dictionary.hits` — the aliases a word opens, in the order of the candidates
* `shortest` — the first of the shortest hits
* `Dictionary.rank` — the candidates with the best one in front

## Design Notes

The shorter an alias, the less is left to type, so the shortest wins; an alias that is the word
itself leaves nothing and cannot be beaten.  Among equals the one declared first wins, which is why
`shortest` prefers the head of its list.
-/

namespace Wordbook

/-- The word opens the alias.  The empty word opens none. -/
def opens (token name : String) : Bool :=
  !token.isEmpty && token.toList.isPrefixOf name.toList

/-- Some name of the command opens with the word. -/
def Command.answers (command : Command) (token : String) : Bool :=
  command.aliases.any (opens token)

/-- An alias that the searched word opens. -/
structure Hit where
  /-- The place of the command among the candidates. -/
  slot : Nat
  /-- The position of the command in the dictionary. -/
  command : Nat
  /-- The position of the alias among the names of the command. -/
  place : Nat
  /-- The number of characters of the alias. -/
  length : Nat
deriving DecidableEq, Repr

/-- The first of the shortest hits. -/
def shortest : List Hit → Option Hit
  | [] => none
  | hit :: more =>
    match shortest more with
    | none => some hit
    | some other => if other.length < hit.length then some other else some hit

/-- Exchanges the first entry of a list with the one at `slot`, if there is one. -/
def bringForward {α : Type} (entries : List α) (slot : Nat) : List α :=
  match entries[0]?, entries[slot]? with
  | some first, some chosen => (entries.set 0 chosen).set slot first
  | _, _ => entries

/-- The command that a word most likely means. -/
structure Best where
  /-- The position of the command in the dictionary. -/
  command : Nat
  /-- The position of the chosen alias among the names of the command. -/
  place : Nat
  /-- The chosen alias is the word itself. -/
  exact : Bool
deriving DecidableEq, Repr

/-- The candidates for a word, the best one in front. -/
structure Ranking where
  /-- The searched word. -/
  token : String := ""
  /-- The positions of the candidates in the dictionary. -/
  candidates : List Nat := []
  /-- The best candidate, if the word opens any alias of a candidate. -/
  best : Option Best := none
deriving DecidableEq, Repr

/-- The best candidate goes by the very word that was searched. -/
def Ranking.isExact (ranking : Ranking) : Bool :=
  match ranking.best with
  | none => false
  | some best => best.exact

namespace Dictionary

/-- The positions of the commands that the word may stand for, in order of declaration. -/
def matching (d : Dictionary) (token : String) : List Nat :=
  (d.commands.zipIdx.filter (fun (command, _) => command.answers token)).map Prod.snd

/-- The aliases of one candidate that the word opens. -/
def hitsAt (d : Dictionary) (token : String) (position slot : Nat) : List Hit :=
  match d.command? position with
  | none => []
  | some command =>
    (command.aliases.zipIdx.filter (fun (name, _) => opens token name)).map
      (fun (name, place) => ⟨slot, position, place, name.length⟩)

/-- The aliases that the word opens, candidate by candidate.  A position without a command has
none. -/
def hits (d : Dictionary) (token : String) (candidates : List Nat) : List Hit :=
  candidates.zipIdx.flatMap (fun (position, slot) => d.hitsAt token position slot)

/-- Ranks candidates for a word: the command of the first shortest hit changes places with the
first candidate. -/
def rank (d : Dictionary) (token : String) (candidates : List Nat) : Ranking :=
  match shortest (d.hits token candidates) with
  | none => ⟨token, candidates, none⟩
  | some hit =>
    ⟨token, bringForward candidates hit.slot,
      some ⟨hit.command, hit.place, hit.length == token.length⟩⟩

end Dictionary

@[simp] theorem opens_empty (name : String) : opens "" name = false := rfl

@[simp] theorem shortest_nil : shortest [] = none := rfl

@[simp] theorem Dictionary.hits_nil (d : Dictionary) (token : String) : d.hits token [] = [] := rfl

end Wordbook
