import Wordbook.Proofs.Record
import Wordbook.Proofs.Toml.Flat
import Wordbook.Settings

/-!
# Settings that are given in a document

A settings document gives some of the settings and leaves the others out.  Whichever it gives, in
whatever order and however it writes them, it is read as those settings with the defaults in all
other places.

## Main Definitions

* `Settings.Given` — the settings that a document gives
* `Settings.Given.members` — the members of the table that gives them
* `Settings.Given.settings` — the settings that they come to
* `Settings.slots` — the fields of the settings

## Main Statements

* `Settings.Given.parse_of_denotes` — a document that gives settings is read as these
* `Settings.Given.exists_denotes` — there is such a document, unless a number is out of range
-/

namespace Wordbook

namespace Settings

/-! ### Fields -/

/-- The fields of the settings, as slots of `Settings.record`. -/
def slots : List (Slot Settings) :=
  [⟨"dialect", BuiltIn, builtInOf, builtIn,
      fun builtIn settings => { settings with builtIn := builtIn }⟩,
    ⟨"dialect_file", Option String, Tree.asOptional Tree.asPath, dialectFile,
      fun path settings => { settings with dialectFile := path }⟩,
    ⟨"max_scan_passes", Nat, Tree.asCount, passes,
      fun passes settings => { settings with passes := passes }⟩,
    ⟨"max_candidates", Nat, Tree.asCount, maxCandidates,
      fun count settings => { settings with maxCandidates := count }⟩,
    ⟨"toc_missing_marker", Char, Tree.asCharacter, marker,
      fun marker settings => { settings with marker := marker }⟩,
    ⟨"history_file", Option String, Tree.asOptional Tree.asPath, historyFile,
      fun path settings => { settings with historyFile := path }⟩]

theorem hasSlots : record.HasSlots slots where
  fields := rfl
  distinct := by decide
  take := by
    simp only [slots, List.forall_mem_cons, List.not_mem_nil, false_imp_iff, implies_true, and_true]
    exact ⟨fun _ _ => bind_pure_comp .., fun _ _ => bind_pure_comp .., fun _ _ => bind_pure_comp ..,
      fun _ _ => bind_pure_comp .., fun _ _ => bind_pure_comp .., fun _ _ => bind_pure_comp ..⟩
  get_set := by simp [slots]
  get_set_of_ne := by simp [slots]
  ext := by
    rintro ⟨_, _, _, _, _, _⟩ ⟨_, _, _, _, _, _⟩ same
    simpa [slots] using same

/-! ### What a document gives -/

/-- The settings that a document gives.  A field is `none` if the document leaves it out. -/
structure Given where
  /-- The built-in dialect. -/
  builtIn : Option BuiltIn := none
  /-- The path of the dialect document. -/
  dialectFile : Option String := none
  /-- How many passes the search for a word may take. -/
  passes : Option Nat := none
  /-- How many candidates a panel lists. -/
  maxCandidates : Option Nat := none
  /-- What stands for a letter without commands in a table of contents. -/
  marker : Option Char := none
  /-- Where the lines of the interactive loop are kept. -/
  historyFile : Option String := none
deriving DecidableEq, Repr

namespace Given

/-- The member of a table under `key`, if there is a value for it. -/
def member {β : Type} (key : String) (scalar : β → Scalar) (value? : Option β) :
    List (String × Scalar) :=
  value?.toList.map (fun value => (key, scalar value))

/-- The members of the table that has the settings given. -/
def members (given : Given) : List (String × Scalar) :=
  member "dialect" (fun builtIn => .text builtIn.name) given.builtIn
    ++ member "dialect_file" .text given.dialectFile
    ++ member "max_scan_passes" .count given.passes
    ++ member "max_candidates" .count given.maxCandidates
    ++ member "toc_missing_marker" (fun c => .text (String.singleton c)) given.marker
    ++ member "history_file" .text given.historyFile

/-- The settings `given`, with the defaults in all other places. -/
def settings (given : Given) : Settings where
  builtIn := given.builtIn.getD ({} : Settings).builtIn
  dialectFile := given.dialectFile
  passes := given.passes.getD ({} : Settings).passes
  maxCandidates := given.maxCandidates.getD ({} : Settings).maxCandidates
  marker := given.marker.getD ({} : Settings).marker
  historyFile := given.historyFile

/-- The numbers that are given fit into a document, where they have 64 bits and a sign. -/
structure Fits (given : Given) : Prop where
  /-- The passes. -/
  passes : ∀ n, given.passes = some n → n ≤ 2 ^ 63 - 1
  /-- The candidates. -/
  maxCandidates : ∀ n, given.maxCandidates = some n → n ≤ 2 ^ 63 - 1

section Member

variable {β : Type} {key other : String} {scalar : β → Scalar} {value? : Option β}

theorem filter_member_self :
    (member key scalar value?).filter (fun entry => entry.1 = key) = member key scalar value? := by
  cases value? <;> simp [member]

theorem filter_member_of_ne (differs : key ≠ other) :
    (member key scalar value?).filter (fun entry => entry.1 = other) = [] := by
  cases value? <;> simp [member, differs]

theorem map_fst_member_sublist : ((member key scalar value?).map Prod.fst).Sublist [key] := by
  cases value? <;> simp [member]

theorem mem_member_iff {entry : String × Scalar} :
    entry ∈ member key scalar value?
      ↔ ∃ value, value? = some value ∧ entry = (key, scalar value) := by
  cases value? <;> simp [member]

/-- In whatever order the members stand, `Tree.under` has the value of a field under its name. -/
theorem under_of_perm {inOrder members : List (String × Scalar)} (perm : inOrder.Perm members)
    (here : members.filter (fun entry => entry.1 = key) = member key scalar value?) :
    Tree.under key (inOrder.map (fun entry => (some entry.1, entry.2.tree)))
      = value?.toList.map (fun value => (scalar value).tree) := by
  have found := perm.filter (fun entry => entry.1 = key)
  rw [here] at found
  have same : inOrder.filter (fun entry => entry.1 = key) = member key scalar value? := by
    cases value? with
    | none => exact List.perm_nil.mp found
    | some value => exact List.perm_singleton.mp found
  rw [Tree.under, List.filter_map, List.map_map]
  simp only [Function.comp_def, Option.some.injEq, same, member, List.map_map]

variable {inOrder members : List (String × Scalar)} (perm : inOrder.Perm members)
  (here : members.filter (fun entry => entry.1 = key) = member key scalar value?)

include perm here

/-- A field that is given is read as its value, and one that is not has its default `absent`. -/
theorem reads_getD {read : Tree → Reading β} (reads : ∀ value, read (scalar value).tree = .ok value)
    (absent : β) :
    let trees := inOrder.map (fun entry => (some entry.1, entry.2.tree))
    (key ∉ record.required ∧ Tree.under key trees = [] ∧ value?.getD absent = absent)
      ∨ ∃ t, Tree.under key trees = [t] ∧ read t = .ok (value?.getD absent) := by
  have under := under_of_perm perm here
  cases value? with
  | none => exact Or.inl ⟨List.not_mem_nil, under, rfl⟩
  | some value => exact Or.inr ⟨_, under, reads value⟩

/-- A field that may be absent is read as it is given. -/
theorem reads_optional {read : Tree → Reading β}
    (reads : ∀ value, (scalar value).tree.asOptional read = .ok (some value)) :
    let trees := inOrder.map (fun entry => (some entry.1, entry.2.tree))
    (key ∉ record.required ∧ Tree.under key trees = [] ∧ value? = none)
      ∨ ∃ t, Tree.under key trees = [t] ∧ t.asOptional read = .ok value? := by
  have under := under_of_perm perm here
  cases value? with
  | none => exact Or.inl ⟨List.not_mem_nil, under, rfl⟩
  | some value => exact Or.inr ⟨_, under, reads value⟩

end Member

variable {given : Given} {inOrder : List (String × Scalar)}

/-- No field is given twice. -/
theorem nodup_members (given : Given) : (given.members.map Prod.fst).Nodup := by
  have among : (given.members.map Prod.fst).Sublist record.fields := by
    simp only [members, List.map_append]
    exact ((((map_fst_member_sublist.append map_fst_member_sublist).append
      map_fst_member_sublist).append map_fst_member_sublist).append
      map_fst_member_sublist).append map_fst_member_sublist
  exact among.nodup (by decide)

/-- Each field has the one `member` that gives it, or none. -/
theorem filter_members (given : Given) :
    given.members.filter (fun entry => entry.1 = "dialect")
        = member "dialect" (fun builtIn => .text builtIn.name) given.builtIn
      ∧ given.members.filter (fun entry => entry.1 = "dialect_file")
        = member "dialect_file" .text given.dialectFile
      ∧ given.members.filter (fun entry => entry.1 = "max_scan_passes")
        = member "max_scan_passes" .count given.passes
      ∧ given.members.filter (fun entry => entry.1 = "max_candidates")
        = member "max_candidates" .count given.maxCandidates
      ∧ given.members.filter (fun entry => entry.1 = "toc_missing_marker")
        = member "toc_missing_marker" (fun c => .text (String.singleton c)) given.marker
      ∧ given.members.filter (fun entry => entry.1 = "history_file")
        = member "history_file" .text given.historyFile := by
  simp [members, filter_member_self, filter_member_of_ne]

theorem builtInOf_name (builtIn : BuiltIn) : builtInOf (.text builtIn.name) = .ok builtIn := by
  cases builtIn <;> decide +kernel

theorem asCharacter_singleton (c : Char) :
    (Tree.text (String.singleton c)).asCharacter = .ok c := by
  simp [Tree.asCharacter]

/-- The table that gives settings is read by `Settings.record` as these, in whatever order it gives
them. -/
theorem read_flatTree (perm : inOrder.Perm given.members) :
    record.read false (Toml.flatTree inOrder) = .ok given.settings := by
  have readable : record.Readable (inOrder.map (fun entry => (some entry.1, entry.2.tree))) := by
    intro tree inside
    obtain ⟨entry, -, rfl⟩ := List.mem_map.mp inside
    refine ⟨entry.1, rfl, fun _ => ?_⟩
    cases entry.2 <;> rfl
  obtain ⟨dialect, dialectFile, passes, maxCandidates, marker, historyFile⟩ := given.filter_members
  rw [Toml.flatTree, hasSlots.read_table_iff false readable]
  simp only [slots, List.forall_mem_cons, List.not_mem_nil, false_imp_iff, implies_true, and_true]
  exact ⟨reads_getD perm dialect builtInOf_name _, reads_optional perm dialectFile (fun _ => rfl),
    reads_getD perm passes (fun _ => rfl) _, reads_getD perm maxCandidates (fun _ => rfl) _,
    reads_getD perm marker asCharacter_singleton _, reads_optional perm historyFile (fun _ => rfl)⟩

/-- A number among the members is that of the passes or that of the candidates. -/
theorem eq_or_eq_of_mem_members {entry : String × Scalar} (inside : entry ∈ given.members) {n : Nat}
    (counts : entry.2 = .count n) : given.passes = some n ∨ given.maxCandidates = some n := by
  simp only [members, List.mem_append, mem_member_iff] at inside
  rcases inside with ((((⟨_, -, rfl⟩ | ⟨_, -, rfl⟩) | ⟨m, present, rfl⟩) | ⟨m, present, rfl⟩)
    | ⟨_, -, rfl⟩) | ⟨_, -, rfl⟩
  · cases counts
  · cases counts
  · exact Or.inl (Scalar.count.inj counts ▸ present)
  · exact Or.inr (Scalar.count.inj counts ▸ present)
  · cases counts
  · cases counts

/-- A document that denotes the members, in any order, is read by `Settings.parse` as the settings
`given`. -/
theorem parse_of_denotes {members : List (String × Scalar)} (perm : members.Perm given.members)
    {limit : Nat} {text : String} (denotes : Toml.Denotes limit text (.table (Toml.flat members))) :
    parse text = .ok given.settings := by
  obtain ⟨inOrder, same, read⟩ := Toml.read_of_denotes_flat denotes
  rw [parse, read]
  exact read_flatTree (same.trans perm)

/-- Settings whose numbers `Fits` have a document, in whatever order the members are to stand. -/
theorem exists_denotes (fits : given.Fits) {members : List (String × Scalar)}
    (perm : members.Perm given.members) :
    ∃ text, Toml.Denotes 1 text (.table (Toml.flat members)) := by
  refine Toml.exists_denotes_flat ((perm.map Prod.fst).nodup_iff.mpr given.nodup_members)
    (fun entry inside n counts => ?_)
  have small : n ≤ 2 ^ 63 - 1 := by
    rcases eq_or_eq_of_mem_members (perm.mem_iff.mp inside) counts with present | present
    · exact fits.passes n present
    · exact fits.maxCandidates n present
  omega

end Given

end Settings

end Wordbook
