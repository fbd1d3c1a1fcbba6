import Mathlib.Data.List.Nodup
import Wordbook.Contents
import Wordbook.Proofs.Growth

/-!
# What the table of contents says

The table of contents goes through all aliases once for every letter, and `matching` goes through
them once for every word.  A letter is a word of its own, so the letters of the table are those for
which `matching` has candidates.

## Main Definitions

* `Contents.IsAlphabetical` — a table has a place for each letter, in the order of the alphabet
* `Contents.Shows` — what is read off a table, and the lines on which it is written

## Main Statements

* `Contents.begins_eq` — a letter begins an alias if it is a word for some command
* `Contents.IsAlphabetical.filter_render` — the line with markers, once they are deleted
* `Contents.IsAlphabetical.getElem?_render` — each letter has its place on that line
* `Contents.mem_letters_register` — a registration takes no letter away
* `contents_shows` — the table of every dictionary, and of all that it grows into

## Design Notes

What is said of the lines holds for any table with a place for each letter, whatever the reason for
which letters are present.
-/

namespace Wordbook

namespace Contents

variable {contents : Contents} {commands : List Command} {c marker : Char} {i : Nat}

/-! ### The alphabet -/

theorem getElem?_alphabet (inside : i < 26) :
    alphabet[i]? = some (Char.ofNat ('a'.toNat + i)) := by
  revert i
  decide

theorem pairwise_alphabet : alphabet.Pairwise (· < ·) := by decide

theorem nodup_alphabet : alphabet.Nodup := by
  refine pairwise_alphabet.imp ?_
  rintro c _ before rfl
  exact Char.lt_irrefl c before

/-- The `alphabet` has the lower-case letters and no others. -/
theorem mem_alphabet : c ∈ alphabet ↔ c.isLower = true := by
  constructor
  · have all : alphabet.all Char.isLower = true := by decide
    exact List.all_eq_true.mp all c
  · intro lower
    have bounds := (Bool.and_eq_true _ _).mp lower
    have low : 97 ≤ c.toNat := UInt32.le_iff_toNat_le.mp (of_decide_eq_true bounds.1)
    have high : c.toNat ≤ 122 := UInt32.le_iff_toNat_le.mp (of_decide_eq_true bounds.2)
    have there := getElem?_alphabet (show c.toNat - 97 < 26 by omega)
    have same : 'a'.toNat + (c.toNat - 97) = c.toNat := by
      show 97 + (c.toNat - 97) = c.toNat
      omega
    rw [same, Char.ofNat_toNat] at there
    exact List.mem_of_getElem? there

/-! ### The lines -/

/-- The slots of a table are those of the letters, in the order of `alphabet`. -/
def IsAlphabetical (contents : Contents) : Prop := contents.slots.map Slot.letter = alphabet

/-- Without a marker `render` writes the `letters` and nothing else. -/
theorem toList_render_none (contents : Contents) :
    (contents.render none).toList = contents.letters := by
  rw [render, String.toList_ofList, letters]
  induction contents.slots with
  | nil => rfl
  | cons slot slots ih =>
    cases slot with
    | present c => exact congrArg (c :: ·) ih
    | missing c => exact ih

/-- With a marker `render` writes a character for each slot. -/
theorem toList_render_some (contents : Contents) (marker : Char) :
    (contents.render (some marker)).toList
      = contents.slots.map (fun slot => if slot.isPresent then slot.letter else marker) := by
  rw [render, String.toList_ofList]
  induction contents.slots with
  | nil => rfl
  | cons slot slots ih =>
    cases slot with
    | present c => exact congrArg (c :: ·) ih
    | missing c => exact congrArg (marker :: ·) ih

namespace IsAlphabetical

variable (alphabetical : contents.IsAlphabetical)

include alphabetical

theorem letter_mem_alphabet {slot : Slot} (member : slot ∈ contents.slots) :
    slot.letter ∈ alphabet := by
  rw [← alphabetical]
  exact List.mem_map_of_mem member

/-- No letter has two slots, so a letter is one of `letters` exactly if its slot says so. -/
theorem mem_letters_iff {slot : Slot} (member : slot ∈ contents.slots) :
    slot.letter ∈ contents.letters ↔ slot.isPresent = true := by
  have distinct : (contents.slots.map Slot.letter).Nodup := by
    rw [alphabetical]
    exact nodup_alphabet
  simp only [letters, List.mem_map, List.mem_filter]
  constructor
  · rintro ⟨other, ⟨member', present⟩, same⟩
    rwa [← List.inj_on_of_nodup_map distinct member' member same]
  · intro present
    exact ⟨slot, ⟨member, present⟩, rfl⟩

theorem length_render (marker : Char) : (contents.render (some marker)).length = 26 := by
  rw [← String.length_toList, toList_render_some, List.length_map,
    ← List.length_map Slot.letter, alphabetical]
  rfl

/-- At position `i` of the line with a marker stands the letter at this position of the alphabet if
it is one of `letters`, and otherwise the marker. -/
theorem getElem?_render (marker : Char) (inside : i < 26) :
    (contents.render (some marker)).toList[i]?
      = some (if Char.ofNat ('a'.toNat + i) ∈ contents.letters then Char.ofNat ('a'.toNat + i)
        else marker) := by
  have there := getElem?_alphabet inside
  rw [← alphabetical, List.getElem?_map, Option.map_eq_some_iff] at there
  obtain ⟨slot, placed, same⟩ := there
  rw [toList_render_some, List.getElem?_map, placed, Option.map_some, ← same]
  simp only [alphabetical.mem_letters_iff (List.mem_of_getElem? placed)]

/-- Once a marker that is no letter is deleted, the line without markers is left. -/
theorem filter_render (outside : marker.isLower = false) :
    (contents.render (some marker)).toList.filter (· != marker)
      = (contents.render none).toList := by
  have other : ∀ slot ∈ contents.slots, slot.letter ≠ marker := by
    rintro slot member rfl
    rw [mem_alphabet.mp (alphabetical.letter_mem_alphabet member)] at outside
    cases outside
  rw [toList_render_some, toList_render_none, letters]
  generalize contents.slots = slots at other ⊢
  induction slots with
  | nil => rfl
  | cons slot slots ih =>
    rw [List.forall_mem_cons] at other
    have rest := ih other.2
    cases slot with
    | present c =>
      have kept : (c != marker) = true := bne_iff_ne.mpr other.1
      exact (List.filter_cons_of_pos (p := (· != marker)) kept).trans (congrArg (c :: ·) rest)
    | missing c =>
      have deleted : ¬ (marker != marker) = true := fun differs => bne_iff_ne.mp differs rfl
      exact (List.filter_cons_of_neg (p := (· != marker)) deleted).trans rest

theorem pairwise_letters : contents.letters.Pairwise (· < ·) := by
  have listed : contents.letters.Sublist alphabet := by
    rw [← alphabetical]
    exact List.filter_sublist.map Slot.letter
  exact pairwise_alphabet.sublist listed

end IsAlphabetical

/-! ### The letters of a dictionary -/

theorem isAlphabetical_ofCommands (commands : List Command) :
    (ofCommands commands).IsAlphabetical := by
  have letter : ∀ c, (if begins commands c then Slot.present c else .missing c).letter = c := by
    intro c
    split <;> rfl
  rw [IsAlphabetical, ofCommands, List.map_map]
  exact (List.map_congr_left fun c _ => letter c).trans (List.map_id' alphabet)

/-- The letters of `ofCommands` are those that begin an alias. -/
theorem mem_letters_ofCommands :
    c ∈ (ofCommands commands).letters ↔ c.isLower = true ∧ begins commands c = true := by
  simp only [letters, ofCommands, List.mem_map, List.mem_filter]
  constructor
  · rintro ⟨_, ⟨⟨c, listed, rfl⟩, present⟩, rfl⟩
    split at present
    next found => exact ⟨mem_alphabet.mp (by rwa [if_pos found]), by rwa [if_pos found]⟩
    next => cases present
  · rintro ⟨lower, found⟩
    exact ⟨.present c, ⟨⟨c, mem_alphabet.mpr lower, if_pos found⟩, rfl⟩, rfl⟩

/-- A word of the one letter `c` opens the aliases that begin with `c`. -/
theorem opens_singleton (c : Char) :
    opens (String.singleton c) = fun name => name.toList.head? == some c := by
  funext name
  have present : String.singleton c ≠ "" := by
    rw [← String.toList_inj.ne, String.toList_singleton]
    exact List.cons_ne_nil c []
  rw [Bool.eq_iff_iff, opens_iff, and_iff_right present, String.toList_singleton, beq_iff_eq]
  cases name.toList with
  | nil => simp
  | cons first rest => simp [eq_comm]

/-- A letter `begins` an alias exactly if some command answers to it as a word. -/
theorem begins_eq (commands : List Command) (c : Char) :
    begins commands c = commands.any (·.answers (String.singleton c)) := by
  unfold begins Command.answers
  rw [opens_singleton]

end Contents

namespace Dictionary

variable {d : Dictionary} {command : Command} {token : String} {c : Char}

/-- There are candidates in `matching` exactly if some command answers to the word. -/
theorem matching_ne_nil_iff :
    d.matching token ≠ [] ↔ d.commands.any (·.answers token) = true := by
  rw [List.any_eq_true]
  constructor
  · intro some
    obtain ⟨i, member⟩ := List.exists_mem_of_ne_nil _ some
    obtain ⟨present, command, found, answered⟩ := mem_matching.mp member
    exact ⟨command, List.mem_of_getElem? found, Command.answers_iff.mpr ⟨present, answered⟩⟩
  · rintro ⟨command, member, answered⟩
    obtain ⟨i, found⟩ := List.mem_iff_getElem?.mp member
    obtain ⟨present, answered⟩ := Command.answers_iff.mp answered
    exact List.ne_nil_of_mem (mem_matching.mpr ⟨present, command, found, answered⟩)

/-- A letter is listed exactly if `matching` has candidates for it as a word. -/
theorem mem_letters_contents_iff :
    c ∈ d.contents.letters ↔ c.isLower = true ∧ d.matching (String.singleton c) ≠ [] := by
  rw [contents, Contents.mem_letters_ofCommands, Contents.begins_eq, matching_ne_nil_iff]

/-- With a new command, the letters that it answers to as words are listed too. -/
theorem mem_letters_addCommand :
    c ∈ (d.addCommand command).contents.letters
      ↔ c ∈ d.contents.letters
        ∨ c.isLower = true ∧ command.answers (String.singleton c) = true := by
  rw [contents, contents, Contents.mem_letters_ofCommands, Contents.mem_letters_ofCommands,
    Contents.begins_eq, Contents.begins_eq, commands_addCommand, List.any_append, Bool.or_eq_true,
    List.any_cons, List.any_nil, Bool.or_false, and_or_left]

/-- No letter is taken away by `register`. -/
theorem mem_letters_register (listed : c ∈ d.contents.letters) (entry : Registration) :
    c ∈ (d.register entry).contents.letters := by
  cases entry with
  | type type => exact listed
  | command command => exact mem_letters_addCommand.mpr (Or.inl listed)

/-- Nor is any by several registrations. -/
theorem mem_letters_foldl_register (listed : c ∈ d.contents.letters) (later : List Registration) :
    c ∈ (later.foldl register d).contents.letters :=
  List.foldlRecOn (motive := fun d => c ∈ d.contents.letters) later register listed
    fun _ listed entry _ => mem_letters_register listed entry

end Dictionary

/-- What is read off the table of contents of `d`, and how it is written. -/
structure Contents.Shows (contents : Contents) (d : Dictionary) : Prop where
  /-- A letter is listed exactly if `matching` has candidates for it as a word. -/
  listed : ∀ c, c.isLower = true →
    (c ∈ contents.letters ↔ d.matching (String.singleton c) ≠ [])
  /-- With a marker the line has a character for each letter. -/
  length : ∀ marker, (contents.render (some marker)).length = 26
  /-- Each letter has its place on that line.  It stands there if it is listed, and otherwise the
  marker does. -/
  placed : ∀ marker i, i < 26 → (contents.render (some marker)).toList[i]?
    = some (if Char.ofNat ('a'.toNat + i) ∈ contents.letters then Char.ofNat ('a'.toNat + i)
      else marker)
  /-- Once a marker that is no letter is deleted, this is the line without markers. -/
  unmarked : ∀ marker, marker.isLower = false →
    (contents.render (some marker)).toList.filter (· != marker) = (contents.render none).toList
  /-- The line without markers has the listed letters. -/
  plain : (contents.render none).toList = contents.letters
  /-- They are in the order of the alphabet, each once. -/
  sorted : (contents.render none).toList.Pairwise (· < ·)

/-- The `contents` of a dictionary list the letters for which `matching` has candidates, and go on
to list them whatever is registered later.  With a marker `render` writes 26 characters, each letter
in its place, and without one it writes the listed letters in order. -/
theorem contents_shows (d : Dictionary) :
    d.contents.Shows d
      ∧ ∀ (later : List Registration) (c : Char), c ∈ d.contents.letters →
        c ∈ (later.foldl Dictionary.register d).contents.letters := by
  have alphabetical : d.contents.IsAlphabetical := Contents.isAlphabetical_ofCommands d.commands
  refine ⟨?_, fun later c listed => Dictionary.mem_letters_foldl_register listed later⟩
  exact {
    listed := fun c lower => by rw [Dictionary.mem_letters_contents_iff, and_iff_right lower]
    length := alphabetical.length_render
    placed := fun marker _ inside => alphabetical.getElem?_render marker inside
    unmarked := fun _ outside => alphabetical.filter_render outside
    plain := d.contents.toList_render_none
    sorted := by
      rw [Contents.toList_render_none]
      exact alphabetical.pairwise_letters }

/-- A marker may be a letter, and then the line does not tell what is listed. -/
example :
    let d := (Dictionary.empty "test").addCommand { aliases := ["translate", "Tx", "", "é", "b"] }
    d.contents.letters = ['b', 't'] ∧ d.contents.render (some '.') = ".b.................t......"
      ∧ d.contents.render (some 'b') = "bbbbbbbbbbbbbbbbbbbtbbbbbb" := by decide

end Wordbook
