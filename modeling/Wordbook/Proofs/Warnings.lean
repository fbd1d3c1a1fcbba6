import Wordbook.Proofs.Lint

/-!
# Warnings about a dictionary that grows

How a registration changes `lint`: a command adds its own warnings behind all others, and a type
adds or takes away warnings about its identifier only.

## Main Definitions

* `Warning.misses` — a warning that a type is not documented
* `Dictionary.Revises` — what a type that is registered changes of the warnings

## Main Statements

* `Dictionary.IsIndexed.lint_addCommand` — a command adds its `findingsAt` to `lint`
* `Dictionary.findingsAt_addType` — a type takes away the warnings that it is not documented
* `lint_incremental` — both, for dictionaries as they are built

## Design Notes

The checks look every alias up anew, in an index that has grown.  The `findings`, though, are said
of an alias by the commands before its own, and a new command comes behind all of these.
-/

namespace Wordbook

namespace Warning

/-- The warning says that the type `id` of an argument is not documented. -/
def misses (id : String) : Warning → Bool
  | unknownArgumentType _ _ type => type == id
  | _ => false

theorem misses_unknownArgumentType (id : String) (command : Nat) (name type : String) :
    (unknownArgumentType command name type).misses id = (type == id) := rfl

end Warning

namespace Dictionary

variable {d : Dictionary} {position : Nat} {warning : Warning}

/-! ### What there is to find about the commands -/

/-- What `findingsAt` has about the commands of `d`, one after the other. -/
def commandFindings (d : Dictionary) : List Warning :=
  d.commands.zipIdx.flatMap (fun (command, position) => d.findingsAt position command)

theorem findings_eq (d : Dictionary) :
    d.findings = collect documentedAgain (d.types.map ValueType.id) ++ d.commandFindings := rfl

theorem ne_duplicateType_of_mem (member : warning ∈ d.commandFindings) (id : String) :
    warning ≠ .duplicateType id := by
  rintro rfl
  obtain ⟨_, -, found⟩ := List.mem_flatMap.mp member
  cases command?_of_mem_findingsAt found

/-! ### A new command -/

/-- What `findingsAt` has about a command depends on the commands before it only, so a command
behind it changes nothing. -/
theorem findingsAt_addCommand (inside : position ≤ d.size) (command other : Command) :
    (d.addCommand command).findingsAt position other = d.findingsAt position other := by
  have before : (d.addCommand command).declaredBefore position = d.declaredBefore position := by
    funext name
    rw [declaredBefore, declaredBefore, commands_addCommand,
      List.take_append_of_le_length inside]
  rw [findingsAt, findingsAt, before]
  rfl

theorem findings_addCommand (d : Dictionary) (command : Command) :
    (d.addCommand command).findings = d.findings ++ d.findingsAt d.size command := by
  have old : d.commands.zipIdx.flatMap
        (fun (other, position) => (d.addCommand command).findingsAt position other)
      = d.commandFindings := by
    refine List.flatMap_congr ?_
    rintro ⟨other, position⟩ member
    have inside := (List.getElem?_eq_some_iff.mp (List.mem_zipIdx_iff_getElem?.mp member)).1
    exact findingsAt_addCommand (Nat.le_of_lt inside) command other
  have new : (d.addCommand command).findingsAt d.commands.length command
      = d.findingsAt d.size command := findingsAt_addCommand (Nat.le_refl _) command command
  rw [findings_eq, findings_eq, commandFindings, commands_addCommand, List.zipIdx_append,
    List.flatMap_append, old, List.zipIdx_singleton, List.flatMap_singleton, List.append_assoc,
    ← new, Nat.zero_add]
  rfl

/-- A new command adds its own `findingsAt` behind all other warnings. -/
theorem IsIndexed.lint_addCommand (indexed : d.IsIndexed) (command : Command) :
    (d.addCommand command).lint = d.lint ++ d.findingsAt d.size command := by
  rw [(indexed.addCommand command).lint_eq, indexed.lint_eq, findings_addCommand]

/-! ### A new type -/

/-- A new type adds the warning `documentedAgain`, or none. -/
theorem collect_documentedAgain_addType (d : Dictionary) (type : ValueType) :
    collect documentedAgain ((d.addType type).types.map ValueType.id)
      = collect documentedAgain (d.types.map ValueType.id)
        ++ (documentedAgain (d.types.map ValueType.id) type.id).toList := by
  rw [types_addType, List.map_append, List.map_singleton, collect_append, collect_cons,
    List.append_nil, collect_nil, List.append_nil]

theorem forall_ne_addType {type : ValueType} {used : String} :
    (∀ documented ∈ (d.addType type).types, documented.id ≠ used)
      ↔ (∀ documented ∈ d.types, documented.id ≠ used) ∧ type.id ≠ used := by
  rw [types_addType, List.forall_mem_append, List.forall_mem_singleton]

/-- A new type takes away the warning that a type is `undocumented` if it is that type. -/
theorem undocumented_addType (d : Dictionary) (type : ValueType) (position : Nat) (name : String)
    (earlier : List String) (used : String) :
    (d.addType type).undocumented position name earlier used
      = (d.undocumented position name earlier used).filter (!·.misses type.id) := by
  simp only [undocumented, forall_ne_addType]
  by_cases missing : used ∉ earlier ∧ ∀ documented ∈ d.types, documented.id ≠ used
  · rw [if_pos missing, Option.filter_some, Warning.misses_unknownArgumentType]
    by_cases same : type.id = used
    · rw [if_neg (fun new => new.2.2 same), same, beq_self_eq_true]
      rfl
    · rw [if_pos ⟨missing.1, missing.2, same⟩, beq_false_of_ne (Ne.symm same)]
      rfl
  · rw [if_neg missing, if_neg (fun new => missing ⟨new.1, new.2.1⟩), Option.filter_none]

/-- The same holds of all `findingsAt` a command. -/
theorem findingsAt_addType (d : Dictionary) (type : ValueType) (position : Nat)
    (command : Command) : (d.addType type).findingsAt position command
      = (d.findingsAt position command).filter (!·.misses type.id) := by
  rw [findingsAt, findingsAt]
  split
  next => rfl
  next name more _ =>
    have late : (collect (requiredLate position name) command.args).filter (!·.misses type.id)
        = collect (requiredLate position name) command.args := by
      refine List.filter_eq_self.mpr fun warning member => ?_
      obtain ⟨_, _, _, -, said⟩ := mem_collect.mp member
      rw [eq_of_requiredLate said]
      rfl
    have shared : (command.aliases.filterMap (d.declaredBefore position)).filter (!·.misses type.id)
        = command.aliases.filterMap (d.declaredBefore position) := by
      refine List.filter_eq_self.mpr fun warning member => ?_
      obtain ⟨_, -, said⟩ := List.mem_filterMap.mp member
      obtain ⟨_, rfl⟩ := exists_of_declaredBefore said
      rfl
    rw [List.filter_append, List.filter_append, late, shared, filter_collect]
    simp only [← undocumented_addType]
    rfl

/-- A type whose identifier is known already takes nothing away from `findingsAt`. -/
theorem findingsAt_addType_of_mem {type : ValueType} (known : type.id ∈ d.types.map ValueType.id)
    (position : Nat) (command : Command) :
    (d.addType type).findingsAt position command = d.findingsAt position command := by
  obtain ⟨first, member, sameId⟩ := List.mem_map.mp known
  have same (used : String) : (∀ documented ∈ (d.addType type).types, documented.id ≠ used)
      ↔ ∀ documented ∈ d.types, documented.id ≠ used := by
    rw [forall_ne_addType, and_iff_left_iff_imp, ← sameId]
    exact fun none => none first member
  have said (name : String) :
      (d.addType type).undocumented position name = d.undocumented position name := by
    funext earlier used
    simp only [undocumented, same]
  simp only [findingsAt, said]
  rfl

theorem commandFindings_addType (d : Dictionary) (type : ValueType) :
    (d.addType type).commandFindings = d.commandFindings.filter (!·.misses type.id) := by
  rw [commandFindings, commandFindings, List.filter_flatMap]
  exact List.flatMap_congr fun _ _ => d.findingsAt_addType type _ _

theorem commandFindings_addType_of_mem {type : ValueType}
    (known : type.id ∈ d.types.map ValueType.id) :
    (d.addType type).commandFindings = d.commandFindings :=
  List.flatMap_congr fun _ _ => findingsAt_addType_of_mem known _ _

/-- The warnings `documentedAgain` are not about a type that is missing. -/
theorem filter_collect_documentedAgain (d : Dictionary) (id : String) :
    (collect documentedAgain (d.types.map ValueType.id)).filter (!·.misses id)
      = collect documentedAgain (d.types.map ValueType.id) := by
  refine List.filter_eq_self.mpr fun warning member => ?_
  obtain ⟨_, _, _, -, said⟩ := mem_collect.mp member
  rw [eq_of_documentedAgain said]
  rfl

/-- What `addType` changes of the warnings about `d`. -/
structure Revises (d : Dictionary) (type : ValueType) : Prop where
  /-- If no type has its identifier, the warnings that this type is not documented go, and no
  others. -/
  first : (d.types.map ValueType.id).count type.id = 0 →
    (d.addType type).lint = d.lint.filter (!·.misses type.id)
  /-- If one type has it, the warning `duplicateType` comes behind those of other types, and before
  all others. -/
  second : (d.types.map ValueType.id).count type.id = 1 → ∃ front back, d.lint = front ++ back
    ∧ (∀ warning ∈ front, ∃ id, warning = .duplicateType id)
    ∧ (∀ warning ∈ back, ∀ id, warning ≠ .duplicateType id)
    ∧ (d.addType type).lint = front ++ .duplicateType type.id :: back
  /-- If several types have it, nothing changes. -/
  later : 2 ≤ (d.types.map ValueType.id).count type.id → (d.addType type).lint = d.lint

theorem IsIndexed.revises (indexed : d.IsIndexed) (type : ValueType) : d.Revises type := by
  have after : (d.addType type).lint = collect documentedAgain (d.types.map ValueType.id)
      ++ (documentedAgain (d.types.map ValueType.id) type.id).toList
      ++ (d.addType type).commandFindings := by
    rw [(indexed.addType type).lint_eq, findings_eq, collect_documentedAgain_addType]
  have before := indexed.lint_eq.trans d.findings_eq
  refine ⟨fun none => ?_, fun once => ?_, fun often => ?_⟩
  · rw [after, before, List.filter_append, filter_collect_documentedAgain, commandFindings_addType,
      documentedAgain, if_neg (by omega), Option.toList_none, List.append_nil]
  · have known : type.id ∈ d.types.map ValueType.id := List.count_pos_iff.mp (by omega)
    refine ⟨_, _, before, fun warning member => ?_, fun _ => ne_duplicateType_of_mem, ?_⟩
    · obtain ⟨_, id, _, -, said⟩ := mem_collect.mp member
      exact ⟨id, eq_of_documentedAgain said⟩
    · rw [after, commandFindings_addType_of_mem known, documentedAgain, if_pos once,
        Option.toList_some, List.append_assoc, List.singleton_append]
  · have known : type.id ∈ d.types.map ValueType.id := List.count_pos_iff.mp (by omega)
    rw [after, before, commandFindings_addType_of_mem known, documentedAgain, if_neg (by omega),
      Option.toList_none, List.append_nil]

end Dictionary

/-- For all registrations, `addCommand` changes `lint` by the `findingsAt` the new command, behind
all other warnings, and `addType` changes it as `Revises` says: the first type of an identifier
takes warnings away, the second adds one, and later ones change nothing. -/
theorem lint_incremental (name : String) (entries : List Registration) :
    let d := Dictionary.registered name entries
    (∀ command, (d.addCommand command).lint = d.lint ++ d.findingsAt d.size command
      ∧ ∀ warning ∈ d.findingsAt d.size command, warning.command? = some d.size)
    ∧ ∀ type, d.Revises type := by
  have indexed := Dictionary.isIndexed_registered name entries
  refine ⟨fun command => ⟨indexed.lint_addCommand command, fun _ => ?_⟩, indexed.revises⟩
  exact Dictionary.command?_of_mem_findingsAt

/-- A type that is registered takes a warning away, and when it is registered again it adds one. -/
example :
    let d := (Dictionary.empty "test").addCommand
      { aliases := ["tx"], args := [.required "axis" "along"] }
    let documented := d.addType { id := "axis" }
    let again := documented.addType { id := "axis" }
    d.lint = [.unknownArgumentType 0 "tx" "axis"] ∧ documented.lint = []
      ∧ again.lint = [.duplicateType "axis"]
      ∧ (again.addType { id := "axis" }).lint = again.lint := by decide

end Wordbook
