import Wordbook.Proofs.Entry

/-!
# The parts of a signature

A signature is written argument by argument, and `signatureRest` opens the bracket of the optional
arguments on the way.  As a whole it is two rows of arguments, one before the bracket and one inside
it, with punctuation around them.

## Main Definitions

* `SignaturePart` — an argument or a mark of punctuation
* `SignaturePart.write` — parts one after the other
* `SignaturePart.layout` — the parts of a signature, before the bracket and inside it

## Main Statements

* `Command.isOptional_of_mem_take`, `Command.isOptional_of_mem_drop` — the first optional argument
  divides the arguments
* `Command.signatureOf_eq_write` — a signature is written from its parts
* `signature_layout` — which arguments stand where, and how many brackets there are

## Design Notes

The texts of arguments are arbitrary and may have brackets and commas of their own, so nothing can
be read off the signature itself.  That each argument is shown once, and that the bracket is closed,
is therefore said of the parts.
-/

namespace Wordbook

/-- A part of a signature. -/
inductive SignaturePart where
  /-- The brace before all arguments. -/
  | openBrace
  /-- The brace behind all arguments. -/
  | closeBrace
  /-- The bracket before the first optional argument. -/
  | openBracket
  /-- The bracket behind the last argument. -/
  | closeBracket
  /-- What stands between two arguments. -/
  | comma
  /-- An argument. -/
  | argument (arg : Argument)
deriving DecidableEq, Repr

/-- The text `Argument.shown` has the type and the name, and behind them the default if there is
one. -/
theorem Argument.shown_eq (arg : Argument) :
    arg.shown = arg.type ++ " " ++ arg.name ++ arg.default.elim "" (" = " ++ ·) := by
  rw [Argument.shown]
  cases arg.default with
  | none => exact String.append_empty.symm
  | some text => exact String.append_assoc

namespace SignaturePart

/-- How a part is written. -/
def text : SignaturePart → String
  | openBrace => "\x7b"
  | closeBrace => "\x7d"
  | openBracket => " ["
  | closeBracket => "]"
  | comma => ", "
  | argument arg => arg.shown

/-- The argument that a part is, if it is one. -/
def argument? : SignaturePart → Option Argument
  | argument arg => some arg
  | _ => none

/-- The part is one of the brackets around optional arguments. -/
def isBracket : SignaturePart → Bool
  | openBracket | closeBracket => true
  | _ => false

/-- The `text` of each part, one after the other. -/
def write (parts : List SignaturePart) : String := String.join (parts.map text)

/-- Arguments with a `comma` between any two. -/
def row (args : List Argument) : List SignaturePart := (args.map argument).intersperse comma

/-- The part of a signature that is in brackets; `first` says that no argument stands before it. -/
def bracketed (first : Bool) (args : List Argument) : List SignaturePart :=
  if args.isEmpty then []
  else [openBracket] ++ (if first then [] else [comma]) ++ row args ++ [closeBracket]

/-- The parts of a signature with the arguments `front` before the bracket and `back` inside it. -/
def layout (front back : List Argument) : List SignaturePart :=
  [openBrace] ++ row front ++ bracketed front.isEmpty back ++ [closeBrace]

/-! ### Writing -/

@[simp] theorem write_nil : write [] = "" := rfl

theorem write_cons (part : SignaturePart) (parts : List SignaturePart) :
    write (part :: parts) = part.text ++ write parts := String.join_cons

theorem write_singleton (part : SignaturePart) : write [part] = part.text := by
  rw [write_cons, write_nil, String.append_empty]

theorem write_append (parts others : List SignaturePart) :
    write (parts ++ others) = write parts ++ write others := by
  rw [write, List.map_append, String.join_append]
  rfl

theorem row_cons_cons (first second : Argument) (more : List Argument) :
    row (first :: second :: more) = argument first :: comma :: row (second :: more) := rfl

theorem write_row (args : List Argument) : write (row args) = Command.listed args := by
  induction args with
  | nil => rfl
  | cons first more ih =>
    cases more with
    | nil =>
      show write [argument first] = ", ".intercalate [first.shown]
      rw [write_singleton, String.intercalate_singleton]
      rfl
    | cons second more =>
      rw [row_cons_cons, write_cons, write_cons, ih]
      show first.shown ++ (", " ++ Command.listed (second :: more))
        = ", ".intercalate (first.shown :: second.shown :: more.map Argument.shown)
      rw [String.intercalate_cons_cons, String.append_assoc]
      rfl

theorem write_bracketed (first : Bool) (args : List Argument) :
    write (bracketed first args) = Command.bracket first args := by
  have separator : write (if first then [] else [comma]) = if first then "" else ", " := by
    cases first with
    | false => exact write_singleton comma
    | true => rfl
  rw [bracketed, Command.bracket]
  split
  · rfl
  · rw [write_append, write_append, write_append, write_singleton, write_singleton, write_row,
      separator]
    rfl

/-- The parts of `layout` are written as `Command.signatureOf` writes the arguments. -/
theorem write_layout (front back : List Argument) :
    write (layout front back)
      = "\x7b" ++ Command.listed front ++ Command.bracket front.isEmpty back ++ "\x7d" := by
  rw [layout, write_append, write_append, write_append, write_singleton, write_singleton,
    write_row, write_bracketed]
  rfl

/-! ### What the parts are -/

theorem filterMap_row (args : List Argument) : (row args).filterMap argument? = args := by
  induction args with
  | nil => rfl
  | cons first more ih =>
    cases more with
    | nil => rfl
    | cons second more => exact congrArg (first :: ·) ih

theorem filter_row (args : List Argument) : (row args).filter isBracket = [] := by
  induction args with
  | nil => rfl
  | cons first more ih =>
    cases more with
    | nil => rfl
    | cons second more => exact ih

/-- The arguments among the parts of `layout` are `front ++ back`. -/
theorem filterMap_layout (front back : List Argument) :
    (layout front back).filterMap argument? = front ++ back := by
  have inside : (bracketed front.isEmpty back).filterMap argument? = back := by
    rw [bracketed]
    split
    next none => exact (List.isEmpty_iff.mp none).symm
    next =>
      rw [List.filterMap_append, List.filterMap_append, filterMap_row]
      cases front <;> exact List.append_nil back
  rw [layout, List.filterMap_append, List.filterMap_append, List.filterMap_append, filterMap_row,
    inside]
  exact List.append_nil (front ++ back)

/-- The brackets among the parts of `layout` are one pair, or none if `back` is empty. -/
theorem filter_layout (front back : List Argument) :
    (layout front back).filter isBracket
      = if back.isEmpty then [] else [openBracket, closeBracket] := by
  have inside : (bracketed front.isEmpty back).filter isBracket
      = if back.isEmpty then [] else [openBracket, closeBracket] := by
    rw [bracketed]
    split
    · rfl
    · rw [List.filter_append, List.filter_append, filter_row]
      cases front <;> rfl
  rw [layout, List.filter_append, List.filter_append, List.filter_append, filter_row, inside]
  exact List.append_nil _

end SignaturePart

namespace Command

variable {args : List Argument}

/-! ### Where the bracket opens -/

/-- No argument before position `findIdx` is optional. -/
theorem isOptional_of_mem_take (args : List Argument) :
    ∀ arg ∈ args.take (args.findIdx Argument.isOptional), arg.isOptional = false := by
  intro arg member
  obtain ⟨i, inside, rfl⟩ := List.mem_take_iff_getElem.mp member
  exact List.not_of_lt_findIdx (Nat.lt_of_lt_of_le inside (Nat.min_le_left _ _))

/-- The argument at position `findIdx`, if there is one, is optional. -/
theorem isOptional_of_mem_drop (args : List Argument) :
    ∀ arg ∈ (args.drop (args.findIdx Argument.isOptional)).head?, arg.isOptional = true := by
  intro arg first
  rw [List.head?_drop, Option.mem_def, List.getElem?_eq_some_iff] at first
  obtain ⟨inside, rfl⟩ := first
  exact List.findIdx_getElem

/-- No argument is left from position `findIdx` on exactly if none is optional. -/
theorem isEmpty_drop_findIdx (args : List Argument) :
    (args.drop (args.findIdx Argument.isOptional)).isEmpty = !args.any Argument.isOptional := by
  rw [Bool.eq_iff_iff, List.isEmpty_iff, List.drop_eq_nil_iff, Bool.not_eq_true',
    ← Bool.not_eq_true, List.any_eq_true, ← List.findIdx_lt_length, Nat.not_lt]

/-- What `signatureOf` writes, cut at the first optional argument. -/
theorem signatureOf_eq (some : args ≠ []) :
    signatureOf args
      = "\x7b" ++ listed (args.take (args.findIdx Argument.isOptional))
        ++ bracket (args.take (args.findIdx Argument.isOptional)).isEmpty
          (args.drop (args.findIdx Argument.isOptional))
        ++ "\x7d" := by
  have divided := signatureOf_append (isOptional_of_mem_take args) (isOptional_of_mem_drop args)
  rw [List.take_append_drop] at divided
  exact divided some

/-- The bracket is there if some argument is optional, and a comma comes first if arguments stand
before it. -/
theorem bracket_drop_findIdx (some : args ≠ []) :
    bracket (args.take (args.findIdx Argument.isOptional)).isEmpty
        (args.drop (args.findIdx Argument.isOptional))
      = if args.any Argument.isOptional then
          " [" ++ (if 0 < args.findIdx Argument.isOptional then ", " else "")
            ++ listed (args.drop (args.findIdx Argument.isOptional)) ++ "]"
        else "" := by
  have first : (args.take (args.findIdx Argument.isOptional)).isEmpty = true
      ↔ ¬ 0 < args.findIdx Argument.isOptional := by
    rw [List.isEmpty_iff, List.take_eq_nil_iff, or_iff_left some, Nat.not_lt, Nat.le_zero]
  rw [bracket, isEmpty_drop_findIdx]
  cases args.any Argument.isOptional with
  | false => rfl
  | true => simp only [first, ite_not, Bool.not_true, Bool.false_eq_true, if_false, if_true]

/-! ### The parts -/

/-- The parts of a signature: the arguments before the first optional one, and the others in
brackets. -/
def signatureParts (args : List Argument) : List SignaturePart :=
  if args.isEmpty then []
  else SignaturePart.layout (args.take (args.findIdx Argument.isOptional))
    (args.drop (args.findIdx Argument.isOptional))

theorem signatureOf_eq_write (args : List Argument) :
    signatureOf args = SignaturePart.write (signatureParts args) := by
  rw [signatureParts]
  split
  next none =>
    rw [List.isEmpty_iff.mp none]
    rfl
  next some => rw [signatureOf_eq (mt List.isEmpty_iff.mpr some), SignaturePart.write_layout]

theorem filterMap_signatureParts (args : List Argument) :
    (signatureParts args).filterMap SignaturePart.argument? = args := by
  rw [signatureParts]
  split
  next none => exact (List.isEmpty_iff.mp none).symm
  next => rw [SignaturePart.filterMap_layout, List.take_append_drop]

theorem filter_signatureParts (args : List Argument) :
    (signatureParts args).filter SignaturePart.isBracket
      = if args.any Argument.isOptional then [.openBracket, .closeBracket] else [] := by
  rw [signatureParts]
  split
  next none =>
    rw [List.isEmpty_iff.mp none]
    rfl
  next =>
    rw [SignaturePart.filter_layout, isEmpty_drop_findIdx]
    cases args.any Argument.isOptional <;> rfl

end Command

/-- With `k` for the position of the first optional argument, `signatureOf` writes the texts of the
first `k` arguments and then, in brackets, those of all others.  It is written from parts among
which are all of `args`, each once and in their order, and at most one pair of brackets. -/
theorem signature_layout (args : List Argument) :
    let k := args.findIdx Argument.isOptional
    let text (arg : Argument) : String :=
      arg.type ++ " " ++ arg.name ++ arg.default.elim "" (" = " ++ ·)
    (Command.signatureOf args = if args = [] then "" else
      "\x7b" ++ ", ".intercalate ((args.take k).map text)
        ++ (if args.any Argument.isOptional then
          " [" ++ (if 0 < k then ", " else "") ++ ", ".intercalate ((args.drop k).map text) ++ "]"
          else "")
        ++ "\x7d")
      ∧ ∃ parts, Command.signatureOf args = SignaturePart.write parts
        ∧ parts.filterMap SignaturePart.argument? = args
        ∧ parts.filter SignaturePart.isBracket
          = if args.any Argument.isOptional then [.openBracket, .closeBracket] else [] := by
  intro k text
  have shown : Argument.shown = text := funext Argument.shown_eq
  refine ⟨?_, Command.signatureParts args, Command.signatureOf_eq_write args,
    Command.filterMap_signatureParts args, Command.filter_signatureParts args⟩
  split
  next none =>
    rw [none]
    rfl
  next some =>
    rw [Command.signatureOf_eq some, Command.bracket_drop_findIdx some, ← shown]
    rfl

/-- A required argument behind an optional one is shown in the bracket, and a bracket that opens
with the first argument has nothing before it. -/
example :
    let fade := Argument.optional "bool" "fade" "]"
    Command.signatureOf [.required "float" "n", fade, .required "axis" "along"]
        = "\x7bfloat n [, bool fade = ], axis along]\x7d"
      ∧ Command.signatureOf [fade] = "\x7b [bool fade = ]]\x7d" := by decide

end Wordbook
