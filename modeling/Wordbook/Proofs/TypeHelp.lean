import Wordbook.Proofs.Tidy

/-!
# The types that a panel explains

The panel about a resolved word has the help of the command and then that of the types of its
arguments.  A dictionary need not have them all, and may have some of them several times.  This
module says which types are explained, in which order, and by which of their registrations.

## Main Definitions

* `Dictionary.Documents` — the registered types of the arguments of a command

## Main Statements

* `Dictionary.documents_iff` — these are the types that are found
* `Dictionary.Documents.render` — the panel has a help block for each of them
* `panel_explains_types` — the types of a command, and what the panel says of them

## Design Notes

Help blocks are arbitrary texts, and which types they are about cannot be read off the panel.  What
is shown is therefore said of the list of types that the blocks are written from, and this list is
told by what it has and in which order.
-/

namespace Wordbook

namespace Dictionary

variable {d : Dictionary} {command : Command} {docs : List ValueType}

/-! ### The registered types -/

/-- The list `docs` has the registered types of the arguments of `command`, in the order in which
they are explained. -/
structure Documents (d : Dictionary) (command : Command) (docs : List ValueType) : Prop where
  /-- Types that are used and registered are listed and no others, each once and in the order in
  which the arguments use them first. -/
  listed : ListsFirstUses (command.args.map Argument.type)
    (fun type => command.Uses type ∧ d.Registers type) (docs.map ValueType.id)
  /-- If several types are registered under an identifier, the first one is meant. -/
  first : ∀ doc ∈ docs, ∃ earlier later, d.types = earlier ++ doc :: later
    ∧ ∀ other ∈ earlier, other.id ≠ doc.id

/-- What `findType` returns for `argumentTypes` are the registered types of the arguments. -/
theorem documents_filterMap_findType (d : Dictionary) (command : Command) :
    d.Documents command (command.argumentTypes.filterMap d.findType) where
  listed := by
    have lists := command.listsFirstUses_argumentTypes.filter fun type => (d.findType type).isSome
    simp only [isSome_findType_iff] at lists
    rw [map_id_filterMap_findType]
    exact lists
  first doc listed := by
    obtain ⟨type, -, found⟩ := List.mem_filterMap.mp listed
    obtain ⟨rfl, earliest⟩ := findType_eq_some_iff.mp found
    exact earliest

/-- The types of `docs` are what `findType` returns for their identifiers. -/
theorem Documents.filterMap_findType (documents : d.Documents command docs) :
    (docs.map ValueType.id).filterMap d.findType = docs := by
  apply filterMap_of_map_eq_map_some
  rw [List.map_map]
  refine List.map_congr_left fun doc listed => ?_
  exact findType_eq_some_iff.mpr ⟨rfl, documents.first doc listed⟩

/-- The list `docs` of registered types is unique: it has what `findType` returns for
`argumentTypes`. -/
theorem documents_iff :
    d.Documents command docs ↔ docs = command.argumentTypes.filterMap d.findType := by
  have found := d.documents_filterMap_findType command
  constructor
  · intro documents
    calc docs
        = (docs.map ValueType.id).filterMap d.findType := documents.filterMap_findType.symm
      _ = ((command.argumentTypes.filterMap d.findType).map ValueType.id).filterMap d.findType :=
          congrArg (List.filterMap d.findType) (documents.listed.unique found.listed)
      _ = command.argumentTypes.filterMap d.findType := found.filterMap_findType
  · rintro rfl
    exact found

/-! ### The panel -/

/-- The panel about a word that is resolved has the help of the best command and, if it explains
types, `typeDocs docs`. -/
theorem Documents.render (documents : d.Documents command docs) {completion : Completion}
    (resolved : completion.state = .resolved) {name : String}
    (best : completion.best d = some (command, name)) (panel : Panel) :
    panel.render d completion
      = command.help ++ (if panel.showTypes then typeDocs docs else "")
        ++ Panel.alsoLine (d.primaryAliases completion.candidates.tail) := by
  rw [Panel.render, resolved]
  simp only [Panel.renderResolved, best, typeHelp_eq_typeDocs, documents_iff.mp documents]

end Dictionary

/-- The list `argumentTypes` is the only one that has the types of the arguments, each once and in
the order of first use.  Where a word is resolved, `Completion.best` names a command, and a panel
that explains types has a block for each of its types that is registered, by its first registration,
once and in the same order; it passes over those that are not. -/
theorem panel_explains_types (d : Dictionary) :
    (∀ (command : Command) (types : List String),
      ListsFirstUses (command.args.map Argument.type) command.Uses types
        ↔ types = command.argumentTypes)
      ∧ (∀ (command : Command) (docs : List ValueType), d.Documents command docs
        ↔ docs = command.argumentTypes.filterMap d.findType)
      ∧ (∀ (completion : Completion) (command : Command) (name : String) (docs : List ValueType),
        completion.state = .resolved → completion.best d = some (command, name) →
        d.Documents command docs → ∀ panel : Panel, panel.render d completion
          = command.help ++ (if panel.showTypes then Dictionary.typeDocs docs else "")
            ++ Panel.alsoLine (d.primaryAliases completion.candidates.tail))
      ∧ ∀ passes text cursor, ((Completer.mk d passes).complete text cursor).state = .resolved →
        ∃ command name, ((Completer.mk d passes).complete text cursor).best d
          = some (command, name) := by
  refine ⟨fun _ _ => Command.listsFirstUses_iff, fun _ _ => Dictionary.documents_iff,
    fun _ _ _ _ resolved best documents => documents.render resolved best, ?_⟩
  intro passes text cursor resolved
  have ranked := (Completer.mk d passes).isRankedBy_complete text cursor
  obtain ⟨-, command, name, -, -, -, best, -⟩ :=
    ranked.exists_best (Completion.candidates_ne_nil_of_resolved resolved)
  exact ⟨command, name, best⟩

/-- A command that uses a type twice, and another that is registered nowhere; the first one is
registered twice. -/
theorem panel_explains_types_twist :
    let command : Command := ⟨["twx", "twistx"], "Twist", [.required "float" "t",
      .required "axis" "along", .optional "bool" "fade" "0", .optional "float" "toff" "0.0"]⟩
    let d := ((((Dictionary.empty "test").addType ⟨"bool", []⟩).addType
      ⟨"float", ["Fraction value"]⟩).addType ⟨"float", ["Again"]⟩).addCommand command
    let completion := (Completer.mk d 1).complete "twx" 3
    completion.state = .resolved ∧ completion.best d = some (command, "twx")
      ∧ command.argumentTypes = ["float", "axis", "bool"]
      ∧ d.Documents command [⟨"float", ["Fraction value"]⟩, ⟨"bool", []⟩]
      ∧ Panel.render {} d completion
        = command.help ++ "\nfloat\n    Fraction value\n\nbool\n" := by
  intro command d completion
  have documents := ((panel_explains_types d).2.1 command
    [⟨"float", ["Fraction value"]⟩, ⟨"bool", []⟩]).mpr (by decide)
  have shown := (panel_explains_types d).2.2.1 completion command "twx" _ (by decide) (by decide)
    documents {}
  exact ⟨by decide, by decide, by decide, documents, shown.trans (by decide +kernel)⟩

end Wordbook
