import Wordbook.Proofs.Lint
import Wordbook.Proofs.Lookup
import Wordbook.Proofs.Registration

/-!
# What tidy dictionaries promise

A dictionary is used the same way whether or not `lint` has warnings about it.  This module says
what holds of look-ups, descriptions, panels and signatures if it has none.

## Main Definitions

* `Dictionary.typeDocs` — the help blocks of types, as they follow the help of a command
* `Dictionary.Registers` — a type is registered under an identifier
* `Dictionary.IsReliable` — what holds of a dictionary without warnings

## Main Statements

* `Dictionary.IsTidy.findIndex_eq` — every alias leads to the command that declares it
* `Dictionary.IsTidy.exists_docs` — every type of an argument has a help block
* `Dictionary.IsTidy.signature_eq` — the bracket of a signature holds the optional arguments
* `isReliable_of_lint_eq_nil` — all of this where the checks find nothing
-/

namespace Wordbook

namespace Dictionary

variable {d : Dictionary} {command : Command}

/-- The help blocks of `types`, as they follow the help of a command: an empty line, a line with
`ValueType.id`, and a line for each of `ValueType.notes`, four spaces in. -/
def typeDocs (types : List ValueType) : String :=
  String.join (types.map (fun type =>
    "\n" ++ type.id ++ "\n" ++ String.join (type.notes.map (fun note => "    " ++ note ++ "\n"))))

/-- The text `ValueType.help` is such a block, without the empty line. -/
theorem help_eq (type : ValueType) :
    type.help
      = type.id ++ "\n" ++ String.join (type.notes.map (fun note => "    " ++ note ++ "\n")) := by
  have indented : ∀ notes : List String, Text.unlines (notes.map ("    " ++ ·))
      = String.join (notes.map (fun note => "    " ++ note ++ "\n")) := by
    intro notes
    induction notes with
    | nil => rfl
    | cons note more ih =>
      rw [List.map_cons, Text.unlines_cons, ih, List.map_cons, String.join_cons]
  rw [ValueType.help, Text.unlines_cons, indented]

theorem typeDocs_eq (types : List ValueType) :
    typeDocs types = String.join (types.map (fun type => "\n" ++ type.help)) := by
  simp only [typeDocs, help_eq, String.append_assoc]

theorem typeDocs_cons (type : ValueType) (more : List ValueType) :
    typeDocs (type :: more) = "\n" ++ type.help ++ typeDocs more := by
  rw [typeDocs_eq, List.map_cons, String.join_cons, ← typeDocs_eq]

/-- What holds of `d` once `lint` finds nothing. -/
structure IsReliable (d : Dictionary) : Prop where
  /-- Every alias leads to the command that declares it. -/
  found : ∀ i command, d.command? i = some command → ∀ name ∈ command.aliases,
    d.findIndex name = some i
  /-- Every type of an argument is found by `findType`, and so `Session.describe`, asked for any
  alias in any session, answers with the help of the command and one block for each of them. -/
  described : ∀ command ∈ d.commands, ∃ docs : List ValueType,
    command.argumentTypes.map d.findType = docs.map some
      ∧ docs.map ValueType.id = command.argumentTypes
      ∧ ∀ settings coloured, ∀ name ∈ command.aliases,
        (Session.mk d settings).describe coloured name = .ok (command.help ++ typeDocs docs)
  /-- The panel about a word that is resolved, if it explains types, has one block for each type of
  the command that `Completion.best` names. -/
  shown : ∀ passes text cursor, ((Completer.mk d passes).complete text cursor).state = .resolved →
    ∃ command ∈ d.commands, ∃ name,
      ((Completer.mk d passes).complete text cursor).best d = some (command, name)
        ∧ ∃ docs : List ValueType, command.argumentTypes.map d.findType = docs.map some
          ∧ docs.map ValueType.id = command.argumentTypes
          ∧ ∀ panel : Panel, panel.showTypes = true →
            panel.render d ((Completer.mk d passes).complete text cursor)
              = command.help ++ typeDocs docs ++ Panel.alsoLine (d.primaryAliases
                ((Completer.mk d passes).complete text cursor).candidates.tail)
  /-- A signature, unless it is empty, has the first `requiredArity` arguments before the bracket,
  which are the required ones, and the optional arguments inside it. -/
  signature : ∀ command ∈ d.commands,
    command.args.take command.requiredArity = command.args.filter (!·.isOptional)
      ∧ command.signature = if command.args.isEmpty then "" else
        "\x7b" ++ Command.listed (command.args.take command.requiredArity)
          ++ Command.bracket (command.requiredArity == 0) (command.args.filter Argument.isOptional)
          ++ "\x7d"

/-! ### Aliases -/

/-- Where no alias belongs to two commands, `findIndex` leads from each to the one that declares
it. -/
theorem IsTidy.findIndex_eq (tidy : d.IsTidy) (indexed : d.IsIndexed) {i : Nat}
    (holds : d.command? i = some command) {name : String} (declared : name ∈ command.aliases) :
    d.findIndex name = some i := by
  refine indexed.findIndex_eq_some_iff_isLeast.mpr ⟨⟨command, holds, declared⟩, ?_⟩
  rintro j ⟨other, holds', declared'⟩
  exact Nat.le_of_eq (tidy.own i j command other holds holds' name declared declared')

theorem IsTidy.find_eq (tidy : d.IsTidy) (indexed : d.IsIndexed) (member : command ∈ d.commands)
    {name : String} (declared : name ∈ command.aliases) : d.find name = some command := by
  obtain ⟨i, holds⟩ := List.mem_iff_getElem?.mp member
  rw [find, tidy.findIndex_eq indexed holds declared, Option.bind_some]
  exact holds

/-! ### Types -/

/-- Some type of `d` has the identifier `id`. -/
def Registers (d : Dictionary) (id : String) : Prop := ∃ type ∈ d.types, type.id = id

/-- The look-up `findType` returns the first type that is registered under `id`. -/
theorem findType_eq_some_iff {id : String} {type : ValueType} :
    d.findType id = some type ↔ type.id = id
      ∧ ∃ earlier later, d.types = earlier ++ type :: later ∧ ∀ other ∈ earlier, other.id ≠ id := by
  simp only [findType, List.find?_eq_some_iff_append, beq_iff_eq, Bool.not_eq_true',
    beq_eq_false_iff_ne]

theorem isSome_findType_iff {id : String} : (d.findType id).isSome = true ↔ d.Registers id := by
  simp only [findType, List.find?_isSome, beq_iff_eq, Registers]

/-- Types that `findType` returns have the identifiers they were looked up by. -/
theorem map_id_filterMap_findType (d : Dictionary) (types : List String) :
    (types.filterMap d.findType).map ValueType.id
      = types.filter (fun type => (d.findType type).isSome) := by
  rw [List.map_filterMap, ← List.filterMap_eq_filter]
  refine List.filterMap_congr fun type _ => ?_
  cases found : d.findType type with
  | none => rw [Option.map_none, Option.guard, found, Option.isSome_none, if_neg Bool.false_ne_true]
  | some doc =>
    rw [Option.map_some, Option.guard, found, Option.isSome_some, if_pos rfl,
      (findType_eq_some_iff.mp found).1]

/-- Where the types of all arguments are documented, `findType` returns one for each. -/
theorem IsTidy.exists_docs (tidy : d.IsTidy) (member : command ∈ d.commands) :
    ∃ docs : List ValueType, command.argumentTypes.map d.findType = docs.map some
      ∧ docs.map ValueType.id = command.argumentTypes := by
  have known : ∀ type ∈ command.argumentTypes, (d.findType type).isSome = true := by
    intro type used
    obtain ⟨arg, given, rfl⟩ := Command.mem_argumentTypes.mp used
    exact isSome_findType_iff.mpr (tidy.documented command member arg given)
  refine ⟨command.argumentTypes.filterMap d.findType, map_eq_map_some_filterMap known, ?_⟩
  rw [map_id_filterMap_findType, List.filter_eq_self]
  exact known

/-- What a session says of types that are found is their `typeDocs`. -/
theorem join_typeText {types : List String} {docs : List ValueType}
    (found : types.map d.findType = docs.map some) (settings : Settings) (coloured : Bool) :
    String.join (types.map ((Session.mk d settings).typeText coloured)) = typeDocs docs := by
  induction types generalizing docs with
  | nil =>
    cases docs with
    | nil => rfl
    | cons doc more => cases found
  | cons type more ih =>
    cases docs with
    | nil => cases found
    | cons doc others =>
      obtain ⟨first, rest⟩ := List.cons.inj found
      rw [List.map_cons, String.join_cons, ih rest, Session.typeText, first,
        typeDocs_cons]

/-- What a panel says of types is the `typeDocs` of those that are found. -/
theorem typeHelp_eq_typeDocs (d : Dictionary) (types : List String) :
    Panel.typeHelp d types = typeDocs (types.filterMap d.findType) := by
  have folded : ∀ blocks : List String, blocks.foldr (· ++ ·) "" = String.join blocks := by
    intro blocks
    induction blocks with
    | nil => rfl
    | cons block more ih =>
      rw [List.foldr_cons, ih, String.join_cons]
  rw [Panel.typeHelp, folded, typeDocs_eq]

/-- If all of `types` are found, the panel has the `typeDocs` of all. -/
theorem typeHelp_eq {types : List String} {docs : List ValueType}
    (found : types.map d.findType = docs.map some) : Panel.typeHelp d types = typeDocs docs := by
  rw [typeHelp_eq_typeDocs, filterMap_of_map_eq_map_some found]

/-! ### Signatures -/

/-- Where optional arguments come last, the bracket of a signature holds just them. -/
theorem IsTidy.signature_eq (tidy : d.IsTidy) (member : command ∈ d.commands) :
    command.args.take command.requiredArity = command.args.filter (!·.isOptional)
      ∧ command.signature = if command.args.isEmpty then "" else
        "\x7b" ++ Command.listed (command.args.take command.requiredArity)
          ++ Command.bracket (command.requiredArity == 0) (command.args.filter Argument.isOptional)
          ++ "\x7d" := by
  obtain ⟨front, back, split, required, optional⟩ :=
    filter_isSuffix_iff.mp (tidy.optional command member)
  have noneInFront : front.filter Argument.isOptional = [] :=
    List.filter_eq_nil_iff.mpr fun arg inside => Bool.eq_false_iff.mp (required arg inside)
  have allInBack : back.filter Argument.isOptional = back := List.filter_eq_self.mpr optional
  have allInFront : front.filter (!·.isOptional) = front :=
    List.filter_eq_self.mpr fun arg inside => by rw [required arg inside]; rfl
  have noneInBack : back.filter (!·.isOptional) = [] :=
    List.filter_eq_nil_iff.mpr fun arg inside => by
      rw [optional arg inside]
      exact Bool.false_ne_true
  have arity : command.requiredArity = front.length := by
    rw [Command.requiredArity, List.countP_eq_length_filter, split, List.filter_append, allInFront,
      noneInBack, List.append_nil]
  have isFirst : (front.length == 0) = front.isEmpty := by cases front <;> rfl
  rw [arity, Command.signature, split, List.take_left, List.filter_append, allInFront, noneInBack,
    List.append_nil, List.filter_append, noneInFront, allInBack, List.nil_append, isFirst]
  refine ⟨rfl, ?_⟩
  split
  case isTrue none => rw [List.isEmpty_iff.mp none, Command.signatureOf_nil]
  case isFalse some =>
    exact Command.signatureOf_append required
      (fun arg first => optional arg (List.mem_of_head? first)) (mt List.isEmpty_iff.mpr some)

/-! ### Readers -/

/-- An indexed dictionary that `IsTidy` is reliable. -/
theorem IsTidy.isReliable (tidy : d.IsTidy) (indexed : d.IsIndexed) : d.IsReliable where
  found _ _ holds _ declared := tidy.findIndex_eq indexed holds declared
  described command member := by
    obtain ⟨docs, found, ids⟩ := tidy.exists_docs member
    refine ⟨docs, found, ids, fun settings coloured name declared => ?_⟩
    rw [Session.describe_of_find (tidy.find_eq indexed member declared), join_typeText found]
  shown passes text cursor resolved := by
    have ranked := (Completer.mk d passes).isRankedBy_complete text cursor
    obtain ⟨_, command, name, -, -, holds, best, -⟩ :=
      ranked.exists_best (Completion.candidates_ne_nil_of_resolved resolved)
    have member : command ∈ d.commands := List.mem_of_getElem? holds
    obtain ⟨docs, found, ids⟩ := tidy.exists_docs member
    refine ⟨command, member, name, best, docs, found, ids, fun panel explains => ?_⟩
    rw [Panel.render, resolved]
    simp only [Panel.renderResolved, best, explains, if_true, typeHelp_eq found]
  signature _ member := tidy.signature_eq member

end Dictionary

/-- For all registrations, if `lint` finds nothing in the dictionary that they build, it is
reliable: aliases are not shadowed, `Session.describe` and the panel explain every type of an
argument, and signatures tell required arguments from optional ones. -/
theorem isReliable_of_lint_eq_nil (name : String) (entries : List Registration)
    (clean : (Dictionary.registered name entries).lint = []) :
    (Dictionary.registered name entries).IsReliable :=
  have indexed := Dictionary.isIndexed_registered name entries
  (indexed.lint_eq_nil_iff.mp clean).isReliable indexed

/-- Two commands whose names open with the same letters, one of them with an optional argument, and
the types of its arguments.  The description and the panel are written out. -/
theorem isReliable_of_lint_eq_nil_twist :
    let entries : List Registration := [.command ⟨["twx", "twistx"], "Twist",
        [.required "float" "t", .required "bool" "", .optional "float" "toff" "0.0"]⟩,
      .type ⟨"float", ["Fraction value", "0.0"]⟩, .type ⟨"bool", []⟩, .command ⟨["tw"], "", []⟩]
    let d := Dictionary.registered "test" entries
    let help := "twx | twistx \x7bfloat t, bool  [, float toff = 0.0]\x7d\n    Twist\n"
      ++ "  - float t (required)\n  - bool  (required)\n  - float toff = 0.0 (optional)\n"
    let docs := "\nfloat\n    Fraction value\n    0.0\n\nbool\n"
    d.lint = [] ∧ d.IsReliable
      ∧ (Session.mk d {}).describe false "twistx" = .ok (help ++ docs)
      ∧ Panel.render {} d ((Completer.mk d 1).complete "twx" 3) = help ++ docs :=
  ⟨by decide, isReliable_of_lint_eq_nil "test" _ (by decide), by decide +kernel,
    by decide +kernel⟩

end Wordbook
