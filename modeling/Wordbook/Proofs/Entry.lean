import Mathlib.Data.List.Induction
import Mathlib.Data.List.Infix
import Mathlib.Data.List.Nodup
import Wordbook.Signature

/-!
# Arguments in the order of a call

What the order of the arguments decides about a command: which types are named first, and where the
bracket of the signature opens.

## Main Definitions

* `withEarlier`, `collect` — the entries of a list, each with those before it, and what is said of
  them
* `ListsFirstUses` — names, each once and in the order of first use

## Main Statements

* `Command.argumentTypes_eq` — the types of the arguments, where each is used for the first time
* `ListsFirstUses.addName` — what the pass over the arguments keeps
* `Command.listsFirstUses_iff` — the types are the list of first uses, and there is no other
* `Command.signatureOf_append` — the signature of required arguments before an optional one

## Design Notes

A question about an argument often is one about those before it.  `collect` asks it of each argument
together with those, and a loop that carries something along is shown to give the same answers.

The names collected after each argument are those used so far, in the order of their first uses.  A
name that is used again is not added, and a new one is behind all others in both lists.
-/

namespace Wordbook

/-! ### Entries with those before them -/

section

variable {α β : Type}

/-- Each of `entries`, with the entries before it. -/
def withEarlier (entries : List α) : List (List α × α) := entries.inits.zip entries

/-- What `say` makes of each entry, given those before it. -/
def collect (say : List α → α → Option β) (entries : List α) : List β :=
  (withEarlier entries).filterMap (fun pair => say pair.1 pair.2)

@[simp] theorem collect_nil (say : List α → α → Option β) : collect say [] = [] := rfl

theorem withEarlier_cons (entry : α) (more : List α) :
    withEarlier (entry :: more)
      = ([], entry) :: (withEarlier more).map (fun pair => (entry :: pair.1, pair.2)) := by
  rw [withEarlier, List.inits_cons, List.zip_cons_cons, List.zip_map_left]
  rfl

theorem collect_cons (say : List α → α → Option β) (entry : α) (more : List α) :
    collect say (entry :: more)
      = (say [] entry).toList ++ collect (fun earlier => say (entry :: earlier)) more := by
  rw [collect, withEarlier_cons, List.filterMap_cons, List.filterMap_map]
  cases say [] entry <;> rfl

theorem collect_append (say : List α → α → Option β) (front back : List α) :
    collect say (front ++ back)
      = collect say front ++ collect (fun earlier => say (front ++ earlier)) back := by
  induction front generalizing say with
  | nil => rfl
  | cons entry front ih =>
    rw [List.cons_append, collect_cons, collect_cons, ih, List.append_assoc]
    rfl

theorem filter_collect (say : List α → α → Option β) (keep : β → Bool) (entries : List α) :
    (collect say entries).filter keep
      = collect (fun earlier entry => (say earlier entry).filter keep) entries := by
  rw [collect, collect, List.filter_filterMap]

/-- The members of `collect say entries`: each comes from an entry behind those before it. -/
theorem mem_collect {say : List α → α → Option β} {entries : List α} {said : β} :
    said ∈ collect say entries
      ↔ ∃ earlier entry later, entries = earlier ++ entry :: later
        ∧ say earlier entry = some said := by
  induction entries generalizing say with
  | nil => simp
  | cons first more ih =>
    rw [collect_cons, List.mem_append, Option.mem_toList, ih]
    constructor
    · rintro (said | ⟨earlier, entry, later, rfl, said⟩)
      · exact ⟨[], first, more, rfl, said⟩
      · exact ⟨first :: earlier, entry, later, rfl, said⟩
    · rintro ⟨_ | ⟨second, earlier⟩, entry, later, split, said⟩
      · obtain ⟨rfl, rfl⟩ := List.cons.inj split
        exact Or.inl said
      · obtain ⟨rfl, rfl⟩ := List.cons.inj split
        exact Or.inr ⟨earlier, entry, later, rfl, said⟩

end

namespace Command

/-! ### The types of the arguments -/

/-- Names that are added to `seen` by `addName` come in where they are new. -/
theorem foldl_addName (seen names : List String) :
    names.foldl addName seen = seen
      ++ collect (fun earlier name => if name ∈ seen ++ earlier then none else some name)
        names := by
  induction names generalizing seen with
  | nil => exact (List.append_nil seen).symm
  | cons name more ih =>
    rw [List.foldl_cons, ih, collect_cons, List.append_nil]
    by_cases known : name ∈ seen
    · have same : ∀ earlier other, other ∈ seen ++ name :: earlier ↔ other ∈ seen ++ earlier := by
        intro earlier other
        simp only [List.mem_append, List.mem_cons]
        constructor
        · rintro (old | rfl | new)
          · exact Or.inl old
          · exact Or.inl known
          · exact Or.inr new
        · exact Or.imp_right Or.inr
      simp only [addName_of_mem known, known, if_true, Option.toList_none, List.nil_append, same]
    · simp only [addName_of_not_mem known, known, if_false, Option.toList_some, List.append_assoc,
        List.singleton_append]

/-- The `argumentTypes` of a command are the types of its arguments, where each is used for the
first time. -/
theorem argumentTypes_eq (command : Command) :
    command.argumentTypes
      = collect (fun earlier type => if type ∈ earlier then none else some type)
        (command.args.map Argument.type) :=
  foldl_addName [] _

end Command

/-! ### Names in the order of first use -/

/-- The list `names` has the `wanted` names, each once and in the order in which `uses` has them
first. -/
structure ListsFirstUses (uses : List String) (wanted : String → Prop) (names : List String) :
    Prop where
  /-- No name is listed twice. -/
  nodup : names.Nodup
  /-- The wanted names are listed and no others. -/
  mem_iff : ∀ name, name ∈ names ↔ wanted name
  /-- Of two names the one that is used first comes first. -/
  ordered : names.Pairwise (fun name other => uses.idxOf name < uses.idxOf other)

namespace ListsFirstUses

variable {uses names others : List String} {wanted : String → Prop}

/-- There is only one list of the wanted names in the order of first use. -/
theorem unique (lists : ListsFirstUses uses wanted names)
    (lists' : ListsFirstUses uses wanted others) : names = others := by
  have same : names.Perm others := (List.perm_ext_iff_of_nodup lists.nodup lists'.nodup).mpr
    fun name => (lists.mem_iff name).trans (lists'.mem_iff name).symm
  exact same.eq_of_pairwise (fun _ _ _ _ before behind => absurd before (Nat.lt_asymm behind))
    lists.ordered lists'.ordered

/-- A `filter` of the names leaves the others in order. -/
theorem filter (lists : ListsFirstUses uses wanted names) (keep : String → Bool) :
    ListsFirstUses uses (fun name => wanted name ∧ keep name = true) (names.filter keep) where
  nodup := lists.nodup.filter keep
  mem_iff name := by rw [List.mem_filter, lists.mem_iff]
  ordered := lists.ordered.filter keep

/-- The names keep their order whatever is used behind them, as `List.idxOf` finds the first use. -/
theorem ordered_append (lists : ListsFirstUses uses (· ∈ uses) names) (later : List String) :
    names.Pairwise
      (fun name other => (uses ++ later).idxOf name < (uses ++ later).idxOf other) := by
  refine lists.ordered.imp_of_mem fun {name other} listed listed' before => ?_
  rw [List.idxOf_append_of_mem ((lists.mem_iff name).mp listed),
    List.idxOf_append_of_mem ((lists.mem_iff other).mp listed')]
  exact before

/-- One more use adds its `name` if it is new, and then again all names used so far are listed. -/
theorem addName (lists : ListsFirstUses uses (· ∈ uses) names) (name : String) :
    ListsFirstUses (uses ++ [name]) (· ∈ uses ++ [name]) (Command.addName names name) where
  nodup := by
    by_cases known : name ∈ names
    · rw [Command.addName_of_mem known]
      exact lists.nodup
    · rw [Command.addName_of_not_mem known, ← List.concat_eq_append]
      exact lists.nodup.concat known
  mem_iff other := by
    rw [Command.mem_addName, lists.mem_iff, List.mem_append, List.mem_singleton]
  ordered := by
    by_cases known : name ∈ names
    · rw [Command.addName_of_mem known]
      exact lists.ordered_append [name]
    · rw [Command.addName_of_not_mem known, List.pairwise_append]
      refine ⟨lists.ordered_append [name], List.pairwise_singleton _ _, ?_⟩
      intro other listed last isLast
      -- All earlier uses are before the place where the new name is used first.
      have used : other ∈ uses := (lists.mem_iff other).mp listed
      have unused : name ∉ uses := mt (lists.mem_iff name).mpr known
      rw [List.mem_singleton.mp isLast, List.idxOf_append_of_mem used,
        List.idxOf_append_of_notMem unused]
      exact Nat.lt_of_lt_of_le (List.idxOf_lt_length_of_mem used) (Nat.le_add_right _ _)

end ListsFirstUses

/-- Names that are added by `Command.addName` one after the other are listed in the order of first
use. -/
theorem listsFirstUses_foldl_addName (uses : List String) :
    ListsFirstUses uses (· ∈ uses) (uses.foldl Command.addName []) := by
  induction uses using List.reverseRecOn with
  | nil => exact ⟨List.nodup_nil, fun _ => Iff.rfl, List.Pairwise.nil⟩
  | append_singleton uses name ih =>
    rw [List.foldl_append, List.foldl_cons, List.foldl_nil]
    exact ih.addName name

namespace Command

/-! ### The types in the order of first use -/

/-- An argument of `command` has the given `type`. -/
def Uses (command : Command) (type : String) : Prop := ∃ arg ∈ command.args, arg.type = type

/-- The fold `argumentTypes` lists the types of the arguments in the order of first use. -/
theorem listsFirstUses_argumentTypes (command : Command) :
    ListsFirstUses (command.args.map Argument.type) command.Uses command.argumentTypes := by
  have lists := listsFirstUses_foldl_addName (command.args.map Argument.type)
  exact ⟨lists.nodup, fun type => (lists.mem_iff type).trans List.mem_map, lists.ordered⟩

/-- No other list has these types in this order. -/
theorem listsFirstUses_iff {command : Command} {types : List String} :
    ListsFirstUses (command.args.map Argument.type) command.Uses types
      ↔ types = command.argumentTypes := by
  constructor
  · intro lists
    exact lists.unique command.listsFirstUses_argumentTypes
  · rintro rfl
    exact command.listsFirstUses_argumentTypes

theorem mem_argumentTypes {command : Command} {type : String} :
    type ∈ command.argumentTypes ↔ ∃ arg ∈ command.args, arg.type = type :=
  command.listsFirstUses_argumentTypes.mem_iff type

/-! ### The signature -/

/-- What `String.intercalate` writes of several texts: the first, and each of the others behind a
comma. -/
theorem intercalate_cons (text : String) (more : List String) :
    ", ".intercalate (text :: more) = text ++ String.join (more.map (", " ++ ·)) := by
  induction more generalizing text with
  | nil => rw [String.intercalate_singleton, List.map_nil, String.join_nil, String.append_empty]
  | cons next others ih =>
    rw [String.intercalate_cons_cons, ih, List.map_cons, String.join_cons,
      String.append_assoc, String.append_assoc]

/-- The arguments behind the first one, each behind a comma. -/
def following (args : List Argument) : String :=
  String.join ((args.map Argument.shown).map (", " ++ ·))

theorem following_cons (arg : Argument) (more : List Argument) :
    following (arg :: more) = ", " ++ arg.shown ++ following more := by
  rw [following, List.map_cons, List.map_cons, String.join_cons]
  rfl

/-- The arguments between commas. -/
def listed (args : List Argument) : String := ", ".intercalate (args.map Argument.shown)

theorem listed_cons (arg : Argument) (more : List Argument) :
    listed (arg :: more) = arg.shown ++ following more := by
  rw [listed, List.map_cons, intercalate_cons]
  rfl

/-- Once `signatureRest` has opened the bracket, every argument stands inside it. -/
theorem signatureRest_opened (args : List Argument) :
    signatureRest false true args = following args ++ "]\x7d" := by
  induction args with
  | nil => rfl
  | cons arg more ih =>
    have closed : ¬ (arg.isOptional && !true) = true := by
      rw [Bool.not_true, Bool.and_false]
      exact Bool.false_ne_true
    rw [signatureRest, if_neg closed, if_neg Bool.false_ne_true, Bool.true_or,
      ih, following_cons, String.empty_append, String.append_assoc,
      String.append_assoc, String.append_assoc]

/-- The bracket opens before an optional argument.  Whether a comma comes next depends on
`first`. -/
theorem signatureRest_of_isOptional (first : Bool) {arg : Argument} (more : List Argument)
    (optional : arg.isOptional = true) :
    signatureRest first false (arg :: more)
      = " [" ++ (if first then "" else ", ") ++ listed (arg :: more) ++ "]\x7d" := by
  have opens : (arg.isOptional && !false) = true := by rw [optional]; rfl
  rw [signatureRest, if_pos opens, optional, Bool.false_or, signatureRest_opened, listed_cons,
    String.append_assoc, String.append_assoc, String.append_assoc, String.append_assoc,
    String.append_assoc]

/-- Required arguments stand before the bracket. -/
theorem signatureRest_append {front : List Argument}
    (required : ∀ arg ∈ front, arg.isOptional = false) (back : List Argument) :
    signatureRest false false (front ++ back)
      = following front ++ signatureRest false false back := by
  induction front with
  | nil => exact (String.empty_append).symm
  | cons arg more ih =>
    rw [List.forall_mem_cons] at required
    rw [List.cons_append, signatureRest, required.1, Bool.false_and, if_neg Bool.false_ne_true,
      if_neg Bool.false_ne_true, Bool.false_or, ih required.2, following_cons,
      String.empty_append, String.append_assoc, String.append_assoc, String.append_assoc]

/-- The part of a signature that is in brackets: the arguments from the first optional one on, if
there is one; `first` says that no argument stands before. -/
def bracket (first : Bool) (args : List Argument) : String :=
  if args.isEmpty then "" else " [" ++ (if first then "" else ", ") ++ listed args ++ "]"

theorem signatureRest_eq_bracket (first : Bool) {back : List Argument}
    (optional : ∀ arg ∈ back.head?, arg.isOptional = true) :
    signatureRest first false back = bracket first back ++ "\x7d" := by
  cases back with
  | nil => rfl
  | cons arg more =>
    have closing : "]\x7d" = "]" ++ "\x7d" := rfl
    rw [signatureRest_of_isOptional first more (optional arg rfl), bracket, List.isEmpty_cons,
      if_neg Bool.false_ne_true, closing, String.append_assoc, String.append_assoc,
      String.append_assoc, String.append_assoc, String.append_assoc]

/-- The signature of required arguments `front`, and of the others from the first optional one
on. -/
theorem signatureOf_append {front back : List Argument}
    (required : ∀ arg ∈ front, arg.isOptional = false)
    (optional : ∀ arg ∈ back.head?, arg.isOptional = true) (some : front ++ back ≠ []) :
    signatureOf (front ++ back)
      = "\x7b" ++ listed front ++ bracket front.isEmpty back ++ "\x7d" := by
  rw [signatureOf, List.isEmpty_eq_false_iff.mpr some, if_neg Bool.false_ne_true]
  cases front with
  | nil =>
    rw [List.nil_append, signatureRest_eq_bracket true optional, String.append_assoc,
      String.append_assoc]
    exact congrArg ("\x7b" ++ ·) (String.empty_append).symm
  | cons arg more =>
    rw [List.forall_mem_cons] at required
    rw [List.cons_append, signatureRest, required.1, Bool.false_and, if_neg Bool.false_ne_true,
      if_pos rfl, Bool.false_or, signatureRest_append required.2,
      signatureRest_eq_bracket false optional, listed_cons, List.isEmpty_cons,
      String.empty_append, String.empty_append]
    simp only [String.append_assoc]

/-! ### Commands that take no argument -/

/-- The text `signature` is empty exactly if the command takes no argument. -/
theorem signature_eq_empty_iff {command : Command} :
    command.signature = "" ↔ command.args = [] := by
  rw [signature, signatureOf]
  cases command.args with
  | nil => exact iff_of_true rfl rfl
  | cons arg more =>
    refine iff_of_false (fun empty => ?_) (List.cons_ne_nil arg more)
    rw [List.isEmpty_cons, if_neg Bool.false_ne_true, String.append_eq_empty_iff] at empty
    exact absurd empty.1 (by decide)

/-- The signature stands behind `text` if the command takes arguments. -/
theorem withSignature_eq (command : Command) (text : String) :
    command.withSignature text
      = if command.args = [] then text else text ++ " " ++ command.signature := by
  simp only [withSignature, String.isEmpty_iff, signature_eq_empty_iff]

end Command

end Wordbook
