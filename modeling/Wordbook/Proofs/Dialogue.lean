import Wordbook.Proofs.Session
import Wordbook.Proofs.Text.Lines

/-!
# Dialogues and single questions

A dialogue is answered line by line.  What `Session.reply` says to a line is the `outcome` of the
same `CommandLine.Action` asked on its own, and `Session.replies` puts these texts one after the
other, up to the first line that `Quits`.

## Main Definitions

* `firstField`, `laterFields` — the parts of a line before and behind the first space
* `Quits` — a line ends the dialogue
* `IsScript` — a text is made of lines
* `Session.outcome` — what a session leaves behind when it is asked once
* `Session.said` — what a line is answered with, on its own
* `Session.Echoes` — that is the output of a command line with the same action

## Main Statements

* `Instruction.ofLine_of_colon`, `Instruction.ofLine_of_script` — what a line asks for
* `Session.reply_eq_quit_iff` — the dialogue is over at a line that quits
* `Session.replies_eq_join` — until then it goes through the lines one by one
* `Session.echoes` — every line is answered as the command line answers it
* `dialogue_answers_each_line` — both together, for the text that the lines come in

## Design Notes

A description can fail.  The command line fails with it, and a dialogue says what is wrong and goes
on; so that is the one answer that is not simply the output of a single question.
-/

namespace Wordbook

open Text (isBlank trim)

/-! ### Lines -/

/-- The part of `line` before the first space, not counting the blanks at its ends. -/
def firstField (line : String) : String :=
  String.ofList ((trim line.toList).takeWhile (· != ' '))

/-- The part of `line` behind the first space, not counting the blanks at its ends. -/
def laterFields (line : String) : List Char :=
  ((trim line.toList).dropWhile (· != ' ')).drop 1

/-- The first field of `line` is one of those that end the dialogue. -/
def Quits (line : String) : Prop := firstField line = ":quit" ∨ firstField line = ":q"

instance (line : String) : Decidable (Quits line) := inferInstanceAs (Decidable (_ ∨ _))

/-- The text `input` is made of the lines `ls`.  There is a line feed behind each of them, except
that it may be missing behind the last one if there is anything on it. -/
structure IsScript (ls : List String) (input : String) : Prop where
  /-- No line has a line feed or a carriage return inside. -/
  unbroken : ∀ line ∈ ls, '\n' ∉ line.toList ∧ '\r' ∉ line.toList
  /-- The text is made of them. -/
  delivered : input = Text.unlines ls
    ∨ ∃ front last, ls = front ++ [last] ∧ last ≠ "" ∧ input = Text.unlines front ++ last

/-- What `Text.lines` makes of `input` are the lines `ls`. -/
theorem IsScript.lines_eq {ls : List String} {input : String} (script : IsScript ls input) :
    (Text.lines input.toList).map String.ofList = ls := by
  have whole : ∀ line ∈ ls, Text.IsLine line.toList := fun line member =>
    ⟨(script.unbroken line member).1, fun ends =>
      (script.unbroken line member).2 (List.mem_of_getLast? ends)⟩
  have same : Text.lines input.toList = ls.map String.toList := by
    rcases script.delivered with rfl | ⟨front, last, rfl, some, rfl⟩
    · have split := Text.lines_unlines_append whole []
      rwa [List.append_nil, Text.lines_nil, List.append_nil] at split
    · have noFeed := (script.unbroken last (by simp)).1
      rw [String.toList_append, Text.lines_unlines_append
        (fun line member => whole line (List.mem_append_left _ member)),
        Text.lines_eq_singleton noFeed (by simpa using some), List.map_append, List.map_singleton]
  rw [same, List.map_map]
  exact List.map_id'' (fun _ => String.ofList_toList) ls

section

variable {line : String} {c : Char} {rest : List Char}

/-- The name that `Instruction.ofLine` sorts `line` by is its `firstField`. -/
theorem toList_firstField (line : String) :
    (trim line.toList).takeWhile (· != ' ') = (firstField line).toList :=
  String.toList_ofList.symm

/-- What `trim` leaves of `line` begins with its `firstField`, since it does not begin with a
space. -/
theorem toList_firstField_of_trim_eq_cons (left : trim line.toList = c :: rest) :
    (firstField line).toList = c :: rest.takeWhile (· != ' ') := by
  have notSpace : (c != ' ') = true := by
    rw [bne_iff_ne]
    rintro rfl
    exact absurd (Text.isBlank_of_trim_eq_cons left) (by decide)
  rw [← toList_firstField, left, List.takeWhile_cons, if_pos notSpace]

/-- What `trim` leaves of `line` begins as its `firstField` begins. -/
theorem exists_trim_of_firstField {field : String} (first : firstField line = field)
    (begins : field.toList = c :: rest) : ∃ more, trim line.toList = c :: more := by
  obtain ⟨more, split⟩ := List.takeWhile_prefix (l := trim line.toList) (· != ' ')
  rw [toList_firstField, first, begins, List.cons_append] at split
  exact ⟨_, split.symm⟩

theorem bne_space_of_not_mem {cs : List Char} (noSpace : ' ' ∉ cs) :
    ∀ c ∈ cs, (c != ' ') = true := fun _ member =>
  bne_iff_ne.mpr (ne_of_mem_of_not_mem member noSpace)

/-- Something stands behind a first `field` and a space, since what `trim` leaves does not end in a
space. -/
theorem fields_of_trim_eq {field : String} {later : List Char} (noSpace : ' ' ∉ field.toList)
    (left : trim line.toList = field.toList ++ ' ' :: later) :
    firstField line = field ∧ laterFields line = later ∧ later ≠ [] := by
  have passes := bne_space_of_not_mem noSpace
  refine ⟨?_, ?_, ?_⟩
  · rw [firstField, left, List.takeWhile_append_of_pos passes]
    simp
  · rw [laterFields, left, List.dropWhile_append_of_pos passes]
    simp
  · rintro rfl
    exact absurd (Text.isBlank_of_trim_eq_concat left) (by decide)

/-- A line of nothing but a first `field` has no `laterFields`. -/
theorem fields_of_trim_eq_self {field : String} (noSpace : ' ' ∉ field.toList)
    (left : trim line.toList = field.toList) :
    firstField line = field ∧ laterFields line = [] := by
  have passes := bne_space_of_not_mem noSpace
  constructor
  · rw [firstField, left, List.takeWhile_eq_self_iff.mpr passes, String.ofList_toList]
  · rw [laterFields, left, List.dropWhile_eq_nil_iff.mpr passes, List.drop_nil]

end

/-! ### Instructions -/

namespace Instruction

variable {line : String} {rest : List Char}

/-- A blank line is `Instruction.nothing`. -/
theorem ofLine_of_blank (blank : trim line.toList = []) : ofLine line = .nothing := by
  simp only [ofLine, blank]
  rfl

/-- A line that does not begin with a colon is completed. -/
theorem ofLine_of_script {c : Char} (left : trim line.toList = c :: rest) (noColon : c ≠ ':') :
    ofLine line = .complete line := by
  simp only [ofLine, toList_firstField, toList_firstField_of_trim_eq_cons left]
  split
  case h_1 => contradiction
  case h_2 equal =>
    exact absurd (List.cons.inj equal).1 noColon
  case h_3 => rfl

/-- A line that begins with a colon asks for what its `firstField` names. -/
theorem ofLine_of_colon (left : trim line.toList = ':' :: rest) :
    ofLine line = if Quits line then .quit
      else if firstField line = ":toc" then .contents
      else if firstField line = ":help" then
        if laterFields line = [] then .help
        else .describe (String.ofList (trim (laterFields line)))
      else .unknown (firstField line) := by
  have first := toList_firstField_of_trim_eq_cons left
  have whole : String.ofList (':' :: rest.takeWhile (· != ' ')) = firstField line := by
    rw [← first, String.ofList_toList]
  have later : ((trim line.toList).dropWhile (· != ' ')).drop 1 = laterFields line := rfl
  have named (name field : String) (spelled : field = ":" ++ name) :
      firstField line = field ↔ String.ofList (rest.takeWhile (· != ' ')) = name := by
    rw [spelled, ← whole, ← String.toList_inj, ← String.toList_inj]
    simp
  have toc := named "toc" ":toc" rfl
  have help := named "help" ":help" rfl
  have quits : Quits line ↔ String.ofList (rest.takeWhile (· != ' ')) = "quit"
      ∨ String.ofList (rest.takeWhile (· != ' ')) = "q" :=
    or_congr (named "quit" ":quit" rfl) (named "q" ":q" rfl)
  simp only [quits, toc, help, ofLine, toList_firstField, first, whole, later]
  generalize String.ofList (rest.takeWhile (· != ' ')) = name
  split <;> simp_all

theorem ofLine_of_contents (first : firstField line = ":toc") : ofLine line = .contents := by
  obtain ⟨_, left⟩ := exists_trim_of_firstField first rfl
  have goesOn : ¬Quits line := by
    rw [Quits, first]
    decide
  rw [ofLine_of_colon left, if_neg goesOn, if_pos first]

theorem ofLine_of_help (first : firstField line = ":help") : ofLine line
    = if laterFields line = [] then .help
      else .describe (String.ofList (trim (laterFields line))) := by
  obtain ⟨_, left⟩ := exists_trim_of_firstField first rfl
  have goesOn : ¬Quits line := by
    rw [Quits, first]
    decide
  have noContents : firstField line ≠ ":toc" := by
    rw [first]
    decide
  rw [ofLine_of_colon left, if_neg goesOn, if_neg noContents, if_pos first]

theorem ofLine_eq_quit_iff : ofLine line = .quit ↔ Quits line := by
  constructor
  · intro quit
    match left : trim line.toList with
    | [] => rw [ofLine_of_blank left] at quit; cases quit
    | c :: rest =>
      by_cases colon : c = ':'
      · subst colon
        by_contra goesOn
        rw [ofLine_of_colon left, if_neg goesOn] at quit
        split_ifs at quit
      · rw [ofLine_of_script left colon] at quit
        cases quit
  · intro quits
    obtain ⟨_, left⟩ : ∃ more, trim line.toList = ':' :: more := by
      rcases quits with first | first <;> exact exists_trim_of_firstField first rfl
    rw [ofLine_of_colon left, if_pos quits]

end Instruction

/-! ### Answers -/

open CommandLine (Action Outcome)

namespace Session

variable (session : Session) (coloured : Bool)

/-- What `session` leaves behind when it is asked once for an `action`, with `files` to read and
`input` to go through. -/
def outcome (files : String → Option String) (action : Action) (input : String) : Outcome :=
  (CommandLine.perform (.still files input) coloured session action).run

/-- What `Session.reply` says to `line`; nothing if that ends the dialogue. -/
def said (line : String) : String :=
  match session.reply coloured line with
  | .say text => text
  | .quit => ""

/-- The answer `said` to `line` is what the same `action` on a command line leaves behind. -/
structure Echoes (line : String) : Prop where
  /-- A blank line is not answered. -/
  blank : (∀ c ∈ line.toList, isBlank c = true) → session.said coloured line = ""
  /-- The table of contents. -/
  contents : firstField line = ":toc" → ∀ files input,
    session.outcome coloured files (.contents false) input = .said (session.said coloured line)
  /-- The list of instructions. -/
  help : trim line.toList = ":help".toList → session.said coloured line = instructions coloured
  /-- All about a command; or else what is wrong, on a line and as an alarm. -/
  describe : ∀ name, trim line.toList = ":help ".toList ++ name → ∀ files input, ∃ answer,
    session.outcome coloured files (.describe (String.ofList (trim name))) input = .ofAnswer answer
    ∧ session.said coloured line = match answer with
      | .ok text => text
      | .error failure => Style.alarm.paint coloured failure.message ++ "\n"
  /-- The completion of the word at the end of the line, all of which counts. -/
  complete : ∀ c rest, trim line.toList = c :: rest → c ≠ ':' → ∀ files,
    session.outcome coloured files (.complete none none false) line
      = .said (session.said coloured line)

/-- Every `line` is answered as the command line answers it. -/
theorem echoes (line : String) : session.Echoes coloured line where
  blank := by
    intro blank
    rw [said, reply, Instruction.ofLine_of_blank (Text.trim_eq_nil_iff.mpr blank)]
    rfl
  contents := by
    intro first files input
    rw [said, reply, Instruction.ofLine_of_contents first]
    rfl
  help := by
    intro left
    obtain ⟨first, later⟩ := fields_of_trim_eq_self (by decide) left
    rw [said, reply, Instruction.ofLine_of_help first, if_pos later]
    rfl
  describe := by
    intro name left files input
    have parts : trim line.toList = ":help".toList ++ ' ' :: name := left
    obtain ⟨first, later, some⟩ := fields_of_trim_eq (by decide) parts
    refine ⟨_, rfl, ?_⟩
    rw [said, reply, Instruction.ofLine_of_help first, if_neg (later ▸ some), later, follow]
    cases session.describe coloured (String.ofList (trim name)) <;> rfl
  complete := by
    intro c rest left noColon files
    rw [said, reply, Instruction.ofLine_of_script left noColon]
    rfl

/-- The reply is `quit` exactly if the line `Quits`. -/
theorem reply_eq_quit_iff {line : String} : session.reply coloured line = .quit ↔ Quits line := by
  rw [← Instruction.ofLine_eq_quit_iff, reply]
  cases Instruction.ofLine line with
  | describe name =>
    rw [follow]
    cases session.describe coloured name <;> simp
  | _ => simp [follow]

theorem reply_eq_say {line : String} (goesOn : ¬Quits line) :
    session.reply coloured line = .say (session.said coloured line) := by
  rw [said]
  cases answered : session.reply coloured line with
  | say text => rfl
  | quit => exact absurd ((session.reply_eq_quit_iff coloured).mp answered) goesOn

/-- The `replies` to `ls` are what is `said` to each line, up to the first one that `Quits`. -/
theorem replies_eq_join (ls : List String) : session.replies coloured ls
    = String.join ((ls.takeWhile (fun line => ¬Quits line)).map (session.said coloured)) := by
  induction ls with
  | nil => rfl
  | cons line more ih =>
    by_cases quits : Quits line
    · rw [replies_cons_quit _ _ more ((session.reply_eq_quit_iff coloured).mpr quits),
        List.takeWhile_cons_of_neg (by simpa using quits)]
      rfl
    · rw [replies_cons_say _ _ more (session.reply_eq_say coloured quits), ih,
        List.takeWhile_cons_of_pos (by simpa using quits), List.map_cons, String.join_cons]

end Session

/-- For all lines `ls` that a text falls into, the outcome of the dialogue is the welcome and then
what is `said` to the lines before the first one that `Quits`.  By `Echoes` each of these is what
the command line answers. -/
theorem dialogue_answers_each_line (session : Session) (coloured : Bool) {ls : List String}
    {input : String} (script : IsScript ls input) (files : String → Option String) :
    session.outcome coloured files .dialogue input
        = .said (session.welcome coloured
          ++ String.join ((ls.takeWhile (fun line => ¬Quits line)).map (session.said coloured)))
      ∧ ∀ line, session.Echoes coloured line := by
  refine ⟨?_, session.echoes coloured⟩
  rw [← session.replies_eq_join coloured, ← script.lines_eq]
  rfl

/-- A dialogue with a dictionary of one command, and without a line feed at its end. -/
theorem dialogue_answers_each_line_of_quit :
    let session : Session := ⟨(Dictionary.empty "test").addCommand { aliases := ["tx"] }, {}⟩
    let ls := [" :help ty ", "", "t", ":q now", ":toc"]
    let input := " :help ty \n\nt\n:q now\n:toc"
    IsScript ls input
      ∧ (session.outcome false (fun _ => none) .dialogue input
          = .said (session.welcome false
            ++ String.join ((ls.takeWhile (fun line => ¬Quits line)).map (session.said false)))
        ∧ ∀ line, session.Echoes false line)
      ∧ ls.takeWhile (fun line => ¬Quits line) = [" :help ty ", "", "t"]
      ∧ session.said false " :help ty " = "no command 'ty' in dialect test\n" := by
  have script : IsScript [" :help ty ", "", "t", ":q now", ":toc"]
      " :help ty \n\nt\n:q now\n:toc" :=
    ⟨by decide, .inr ⟨[" :help ty ", "", "t", ":q now"], ":toc", rfl, by decide, by decide⟩⟩
  exact ⟨script, dialogue_answers_each_line _ false script _, by decide, by decide⟩

end Wordbook
