import Wordbook.Proofs.Signature
import Wordbook.Proofs.Text.Lines

/-!
# The help block of a command

A help block is written line by line: the names with the signature, the description, the arguments.
This module shows that `List.splitOn` at line feeds takes it apart into the same lines.

## Main Definitions

* `Argument.IsInline`, `Command.IsInline` — what is shown on one line has no line feed
* `Command.IsLaidOut` — the lines of a help block

## Main Statements

* `SignaturePart.not_mem_write` — a signature has only the line feeds of its arguments
* `Command.IsInline.splitOn_help` — a help block is cut into the lines that it was written from
* `Command.suffix_argumentLine_iff` — the line of an argument ends as the argument is
* `help_isLaidOut` — the lines of a help block, and how many of them say what

## Design Notes

The description may have any line ends, and it falls into lines before it is written.  Names and
arguments are written as they are, and a line feed in one of them would begin a line of its own.
-/

namespace Wordbook

/-! ### Texts on one line -/

/-- The texts of `arg` have no line feeds. -/
structure Argument.IsInline (arg : Argument) : Prop where
  /-- The name of its type has none. -/
  type : '\n' ∉ arg.type.toList
  /-- Its name has none. -/
  name : '\n' ∉ arg.name.toList
  /-- Its default has none, if there is one. -/
  default : ∀ text ∈ arg.default, '\n' ∉ text.toList

/-- The names of `command` and the texts of its arguments have no line feeds.  The description may
have some. -/
structure Command.IsInline (command : Command) : Prop where
  /-- The names have none. -/
  aliases : ∀ name ∈ command.aliases, '\n' ∉ name.toList
  /-- The arguments have none. -/
  args : ∀ arg ∈ command.args, arg.IsInline

instance (arg : Argument) : Decidable arg.IsInline :=
  decidable_of_iff ('\n' ∉ arg.type.toList ∧ '\n' ∉ arg.name.toList
      ∧ ∀ text ∈ arg.default, '\n' ∉ text.toList)
    ⟨fun ⟨type, name, default⟩ => ⟨type, name, default⟩,
      fun ⟨type, name, default⟩ => ⟨type, name, default⟩⟩

instance (command : Command) : Decidable command.IsInline :=
  decidable_of_iff ((∀ name ∈ command.aliases, '\n' ∉ name.toList)
      ∧ ∀ arg ∈ command.args, arg.IsInline)
    ⟨fun ⟨aliases, args⟩ => ⟨aliases, args⟩, fun ⟨aliases, args⟩ => ⟨aliases, args⟩⟩

theorem Argument.IsInline.shown {arg : Argument} (inline : arg.IsInline) :
    '\n' ∉ arg.shown.toList := by
  unfold Argument.shown
  split
  next => simp [inline.type, inline.name]
  next text given => simp [inline.type, inline.name, inline.default text given]

/-- What `SignaturePart.write` makes of parts has only the line feeds of the arguments among
them. -/
theorem SignaturePart.not_mem_write {parts : List SignaturePart}
    (inline : ∀ arg ∈ parts.filterMap SignaturePart.argument?, arg.IsInline) :
    '\n' ∉ (SignaturePart.write parts).toList := by
  rw [SignaturePart.write, String.toList_join, List.mem_flatMap]
  rintro ⟨text, member, feed⟩
  obtain ⟨part, listed, rfl⟩ := List.mem_map.mp member
  cases part with
  | argument arg => exact (inline arg (List.mem_filterMap.mpr ⟨_, listed, rfl⟩)).shown feed
  | _ => revert feed; decide

namespace Command

variable {command : Command}

theorem IsInline.signature (inline : command.IsInline) : '\n' ∉ command.signature.toList := by
  rw [Command.signature, signatureOf_eq_write]
  refine SignaturePart.not_mem_write ?_
  rw [filterMap_signatureParts]
  exact inline.args

/-- The names beside one another have only their own line feeds. -/
theorem not_mem_intercalate {names : List String}
    (inline : ∀ name ∈ names, '\n' ∉ name.toList) : '\n' ∉ (" | ".intercalate names).toList := by
  induction names with
  | nil => exact List.not_mem_nil
  | cons first more ih =>
    rw [List.forall_mem_cons] at inline
    cases more with
    | nil =>
      rw [String.intercalate_singleton]
      exact inline.1
    | cons second more =>
      have rest := ih inline.2
      rw [String.intercalate_cons_cons, String.toList_append, String.toList_append,
        List.mem_append, List.mem_append, not_or, not_or]
      exact ⟨⟨inline.1, by decide⟩, rest⟩

theorem IsInline.aliasLine (inline : command.IsInline) : '\n' ∉ command.aliasLine.toList :=
  not_mem_intercalate inline.aliases

/-! ### The lines of the block -/

/-- None of `helpLines` has a line feed. -/
theorem IsInline.helpLines (inline : command.IsInline) :
    ∀ line ∈ command.helpLines, '\n' ∉ line.toList := by
  rw [Command.helpLines, List.cons_append, List.forall_mem_cons, List.forall_mem_append,
    List.forall_mem_map, List.forall_mem_map]
  refine ⟨?_, fun line member => ?_, fun arg member => ?_⟩
  · rw [withSignature_eq]
    split
    · exact inline.aliasLine
    · simp [inline.aliasLine, inline.signature]
  · simp [Text.not_mem_of_mem_lines member]
  · have shown := (inline.args arg member).shown
    unfold argumentLine
    split <;> simp [shown]

/-- At its line feeds, `help` is cut into the `helpLines` that it was written from. -/
theorem IsInline.splitOn_help (inline : command.IsInline) :
    command.help.toList.splitOn '\n' = command.helpLines.map String.toList ++ [[]] :=
  Text.splitOn_unlines inline.helpLines

theorem length_helpLines (command : Command) :
    command.helpLines.length
      = 1 + (Text.lines command.description.toList).length + command.args.length := by
  rw [helpLines, List.cons_append, List.length_cons, List.length_append, List.length_map,
    List.length_map]
  omega

/-! ### The lines of the arguments -/

/-- The line of an argument shows it behind a dash, and says at its end whether it is required. -/
theorem argumentLine_eq (arg : Argument) :
    argumentLine arg = "  - " ++ arg.shown ++ " "
      ++ if arg.isOptional then "(optional)" else "(required)" := by
  rw [argumentLine, String.append_assoc, String.append_assoc, String.append_assoc]
  split <;> rfl

/-- Of all texts as long as the two markers, `argumentLine` ends in its marker only. -/
theorem suffix_argumentLine_iff (arg : Argument) {ending : String} (long : ending.length = 10) :
    ending.toList <:+ (argumentLine arg).toList
      ↔ ending = if arg.isOptional then "(optional)" else "(required)" := by
  have line := argumentLine_eq arg
  generalize marked : (if arg.isOptional then "(optional)" else "(required)") = marker at line ⊢
  have long' : marker.length = 10 := by
    rw [← marked]
    split <;> rfl
  have ends : marker.toList <:+ (argumentLine arg).toList := by
    rw [line, String.toList_append]
    exact List.suffix_append _ _
  constructor
  · intro other
    have same : ending.toList.length = marker.toList.length := by
      rw [String.length_toList, String.length_toList, long, long']
    have within := List.suffix_of_suffix_length_le other ends (Nat.le_of_eq same)
    exact String.toList_inj.mp (within.eq_of_length same)
  · rintro rfl
    exact ends

theorem suffix_required_iff (arg : Argument) :
    "(required)".toList <:+ (argumentLine arg).toList ↔ arg.isOptional = false := by
  rw [suffix_argumentLine_iff arg rfl]
  cases arg.isOptional <;> decide

theorem suffix_optional_iff (arg : Argument) :
    "(optional)".toList <:+ (argumentLine arg).toList ↔ arg.isOptional = true := by
  rw [suffix_argumentLine_iff arg rfl]
  cases arg.isOptional <;> decide

/-- As many of the lines are marked as required as `requiredArity` says. -/
theorem countP_required (command : Command) :
    (command.args.map argumentLine).countP ("(required)".toList.isSuffixOf ·.toList)
      = command.requiredArity := by
  rw [List.countP_map, requiredArity]
  refine List.countP_congr fun arg _ => ?_
  rw [Function.comp_apply, List.isSuffixOf_iff_suffix, suffix_required_iff, Bool.not_eq_true']

/-! ### The whole block -/

/-- How `command.help` is laid out in lines, and what the lines of its arguments end in. -/
structure IsLaidOut (command : Command) : Prop where
  /-- The description falls into lines at its line feeds.  A carriage return before one is dropped,
  and behind the last one there is no line if nothing is left. -/
  described : ∃ pieces last, command.description.toList.splitOn '\n' = pieces ++ [last]
    ∧ Text.lines command.description.toList
      = pieces.map Text.dropReturn ++ if last = [] then [] else [last]
  /-- At its line feeds the block falls into the names with the signature, the lines of the
  description and a line for each argument.  Nothing stands behind the last line feed. -/
  cut : command.help.toList.splitOn '\n'
    = [(" | ".intercalate command.aliases
          ++ if command.args = [] then "" else " " ++ command.signature).toList]
      ++ (Text.lines command.description.toList).map ("    ".toList ++ ·)
      ++ command.args.map (fun arg => (argumentLine arg).toList) ++ [[]]
  /-- The number of its line feeds is that of these lines. -/
  size : command.help.toList.count '\n'
    = 1 + (Text.lines command.description.toList).length + command.args.length
  /-- The line of an argument shows it with its default. -/
  shown : ∀ arg ∈ command.args, argumentLine arg = "  - "
    ++ (arg.type ++ " " ++ arg.name ++ arg.default.elim "" (" = " ++ ·)) ++ " "
    ++ if arg.isOptional then "(optional)" else "(required)"
  /-- As many of these lines are marked as required as the command has required arguments. -/
  required : (command.args.map argumentLine).countP ("(required)".toList.isSuffixOf ·.toList)
    = command.requiredArity
  /-- Each of them is marked as its argument is, and not the other way. -/
  marked : ∀ arg ∈ command.args,
    ("(required)".toList <:+ (argumentLine arg).toList ↔ arg.isOptional = false)
      ∧ ("(optional)".toList <:+ (argumentLine arg).toList ↔ arg.isOptional = true)

end Command

/-- Where no name and no argument has a line feed, `help` has a line for the names, one for each
line of the description and one for each argument, and nothing else. -/
theorem help_isLaidOut {command : Command} (inline : command.IsInline) : command.IsLaidOut where
  described := Text.exists_lines_eq command.description.toList
  cut := by
    have heading : command.withSignature command.aliasLine = " | ".intercalate command.aliases
        ++ if command.args = [] then "" else " " ++ command.signature := by
      rw [Command.withSignature_eq]
      split
      · exact (String.append_empty).symm
      · exact String.append_assoc
    have indented : String.toList ∘ (fun line => "    " ++ String.ofList line)
        = ("    ".toList ++ ·) := by
      funext line
      exact String.toList_append.trans (congrArg ("    ".toList ++ ·) String.toList_ofList)
    rw [inline.splitOn_help, Command.helpLines, heading, List.map_append, List.map_cons,
      List.map_map, List.map_map, indented]
    rfl
  size := (Text.count_unlines inline.helpLines).trans command.length_helpLines
  shown arg _ := by rw [Command.argumentLine_eq, Argument.shown_eq]
  required := command.countP_required
  marked arg _ := ⟨Command.suffix_required_iff arg, Command.suffix_optional_iff arg⟩

/-- A command that takes a required argument behind an optional one, with a name that ends in a
carriage return and a description with an empty line. -/
theorem help_isLaidOut_translatex :
    let command : Command := ⟨["tx", "translatex\r"], "Translate\r\n\nvertices\r\n",
      [.required "float" "n", .optional "bool" "fade" "(required)", .required "axis" "along"]⟩
    command.IsInline ∧ command.IsLaidOut
      ∧ command.help
        = "tx | translatex\r \x7bfloat n [, bool fade = (required), axis along]\x7d\n"
          ++ "    Translate\n    \n    vertices\n"
          ++ "  - float n (required)\n  - bool fade = (required) (optional)\n"
          ++ "  - axis along (required)\n" :=
  ⟨by decide, help_isLaidOut (by decide), by decide +kernel⟩

end Wordbook
