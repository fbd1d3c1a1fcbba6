import Mathlib.Data.List.Nodup
import Mathlib.Data.List.Perm.Basic
import Wordbook.Proofs.Toml.Layout
import Wordbook.Toml.Item

/-!
# Tables put together key by key

A TOML document is put together by one change after the other, and each change goes to one key of a
table.  So what comes to be under a key is known from the changes that go there, and these are
changes to the item under it.

## Main Definitions

* `Change` — an entry or a header that changes a table
* `Change.Turns` — what a change makes of the item under its key
* `TurnsAll` — what changes make of an item, one after the other

## Main Statements

* `Change.Turns.apply` — a change goes to one key and leaves the others as they are
* `run_of_turnsAll` — a table is changed as its items are, key by key
* `turnsAll_nest`, `turnsAll_nest_new`, `turnsAll_nest_last` — changes inside of an item are changes
  of the table that it is

## Design Notes

The order of the members of a table is not kept: the header of a table that is there already moves
it behind the others.  Everything is therefore said of look-ups, and of keys without repetition.

`Change.Turns` has no case for what is refused.  Nothing that makes a table is.
-/

namespace Wordbook.Toml

/-- What a change puts at its place. -/
inductive Load where
  /-- A value. -/
  | value (t : Tree)
  /-- A table with entries. -/
  | table (entries : List Entry)
  /-- The next of a row of tables. -/
  | element (entries : List Entry)

/-- How the tables on the way of a change come to be, if there are none. -/
def Load.missing : Load → Kind
  | .value _ => .dotted
  | _ => .implicit

/-- An entry or a header that changes a table. -/
structure Change where
  /-- The way to the place. -/
  path : List String
  /-- The key at the place. -/
  key : String
  /-- What is put there. -/
  load : Load

namespace Change

/-- The table `members` with the change. -/
def apply (change : Change) (members : Members) : Option Members :=
  match change.load with
  | .value t => addEntry members change.path change.key t
  | .table entries => openTable members change.path change.key entries
  | .element entries => openElement members change.path change.key entries

/-- The key of the table that the change goes to. -/
def first (change : Change) : String := change.path.headD change.key

/-- The change as one of a table that has under `key` the table of this change. -/
def nest (key : String) (change : Change) : Change := ⟨key :: change.path, change.key, change.load⟩

/-- The change of an entry. -/
def ofEntry (entry : Entry) : Change := ⟨entry.path, entry.key, .value entry.value⟩

/-- What a change makes of the item under its key, as far as it may. -/
inductive Turns : Change → Option Item → Item → Prop
  | value (key : String) (t : Tree) : Turns ⟨[], key, .value t⟩ none (.value t)
  | table (key : String) {entries : List Entry} {filled : Members}
    (made : addEntries [] entries = some filled) :
    Turns ⟨[], key, .table entries⟩ none (.table .explicit filled)
  | fill (key : String) {entries : List Entry} {old filled : Members}
    (made : addEntries old entries = some filled) :
    Turns ⟨[], key, .table entries⟩ (some (.table .implicit old)) (.table .explicit filled)
  | element (key : String) {entries : List Entry} {filled : Members}
    (made : addEntries [] entries = some filled) :
    Turns ⟨[], key, .element entries⟩ none (.tables [filled])
  | next (key : String) {entries : List Entry} {filled : Members} (rows : List Members)
    (made : addEntries [] entries = some filled) :
    Turns ⟨[], key, .element entries⟩ (some (.tables rows)) (.tables (rows ++ [filled]))
  | create (key : String) {change : Change} {inner : Members}
    (made : change.apply [] = some inner) :
    Turns (change.nest key) none (.table change.load.missing inner)
  | inside (key : String) {change : Change} {kind : Kind} {old inner : Members}
    (reaches : change.load.missing = .dotted → kind = .dotted)
    (made : change.apply old = some inner) :
    Turns (change.nest key) (some (.table kind old)) (.table kind inner)
  | last (key : String) {change : Change} (rows : List Members) {old inner : Members}
    (header : change.load.missing = .implicit) (made : change.apply old = some inner) :
    Turns (change.nest key) (some (.tables (rows ++ [old]))) (.tables (rows ++ [inner]))

end Change

/-! ### Look-ups -/

/-- The table `changed` has `item` under `key`, and all else as `members`. -/
structure Sets (members : Members) (key : String) (item : Item) (changed : Members) : Prop where
  /-- The item is under the key. -/
  here : changed.lookup key = some item
  /-- The other keys keep theirs. -/
  others : ∀ other, other ≠ key → changed.lookup other = members.lookup other
  /-- No key is there twice. -/
  distinct : (members.map Prod.fst).Nodup → (changed.map Prod.fst).Nodup

/-- A key that `lookup` does not find is none of the keys. -/
theorem not_mem_of_lookup_eq_none {members : Members} {key : String}
    (fresh : members.lookup key = none) : key ∉ members.map Prod.fst := by
  intro member
  obtain ⟨⟨_, item⟩, inside, rfl⟩ := List.mem_map.mp member
  have differs := List.lookup_eq_none_iff.mp fresh _ inside
  rw [bne_self_eq_false] at differs
  cases differs

/-- Where no key is there twice, `lookup` finds what stands beside a key. -/
theorem lookup_eq_some_iff_mem {members : Members} (distinct : (members.map Prod.fst).Nodup)
    {key : String} {item : Item} : members.lookup key = some item ↔ (key, item) ∈ members := by
  have inside : ∀ {met}, members.lookup key = some met → (key, met) ∈ members := by
    intro met there
    obtain ⟨front, back, rfl, -⟩ := List.lookup_eq_some_iff.mp there
    exact List.mem_append_right front List.mem_cons_self
  refine ⟨inside, fun member => ?_⟩
  cases there : members.lookup key with
  | none => exact absurd (List.mem_map_of_mem member) (not_mem_of_lookup_eq_none there)
  | some met =>
    have same := List.inj_on_of_nodup_map distinct (inside there) member rfl
    rw [(Prod.mk.inj same).2]

/-- A new item comes behind the others. -/
theorem sets_concat {members : Members} {key : String} (fresh : members.lookup key = none)
    (item : Item) : Sets members key item (members ++ [(key, item)]) where
  here := by rw [List.lookup_append, fresh, Option.none_or, List.lookup_cons_self]
  others := by
    intro other differs
    rw [List.lookup_append, List.lookup_cons, beq_eq_false_iff_ne.mpr differs, List.lookup_nil,
      Option.or_none]
  distinct := by
    intro distinct
    rw [List.map_append, List.map_singleton]
    exact List.Nodup.append distinct (List.nodup_singleton key)
      (List.disjoint_singleton.mpr (not_mem_of_lookup_eq_none fresh))

theorem map_fst_put {members : Members} {key : String} {old : Item}
    (there : members.lookup key = some old) (item : Item) :
    (put members key item).map Prod.fst = members.map Prod.fst := by
  induction members with
  | nil => cases there
  | cons member more ih =>
    obtain ⟨other, met⟩ := member
    by_cases same : other = key
    · rw [put, if_pos same, List.map_cons, List.map_cons, same]
    · rw [List.lookup_cons, beq_eq_false_iff_ne.mpr (Ne.symm same)] at there
      rw [put, if_neg same, List.map_cons, List.map_cons, ih there]

/-- An item that is `put` takes the place of the one under its key. -/
theorem sets_put {members : Members} {key : String} {old : Item}
    (there : members.lookup key = some old) (item : Item) :
    Sets members key item (put members key item) where
  here := by
    induction members with
    | nil => cases there
    | cons member more ih =>
      obtain ⟨other, met⟩ := member
      by_cases same : other = key
      · rw [put, if_pos same, List.lookup_cons_self]
      · rw [List.lookup_cons, beq_eq_false_iff_ne.mpr (Ne.symm same)] at there
        rw [put, if_neg same, List.lookup_cons, beq_eq_false_iff_ne.mpr (Ne.symm same)]
        exact ih there
  others := by
    intro name differs
    induction members with
    | nil => cases there
    | cons member more ih =>
      obtain ⟨other, met⟩ := member
      by_cases same : other = key
      · rw [put, if_pos same, same, List.lookup_cons, List.lookup_cons,
          beq_eq_false_iff_ne.mpr differs]
      · rw [List.lookup_cons, beq_eq_false_iff_ne.mpr (Ne.symm same)] at there
        rw [put, if_neg same, List.lookup_cons, List.lookup_cons, ih there]
  distinct := by
    intro distinct
    rwa [map_fst_put there]

/-- An item that takes the place of the one under its key may move behind the others. -/
theorem sets_move (members : Members) (key : String) (item : Item) :
    Sets members key item
      (members.filter (fun member => member.1 != key) ++ [(key, item)]) := by
  have fresh : (members.filter (fun member => member.1 != key)).lookup key = none := by
    rw [List.lookup_eq_none_iff]
    intro member inside
    have kept := (List.mem_filter.mp inside).2
    rw [bne_iff_ne] at kept ⊢
    exact Ne.symm kept
  have set := sets_concat fresh item
  refine ⟨set.here, fun other differs => ?_, fun distinct => ?_⟩
  · rw [set.others other differs]
    clear set fresh
    induction members with
    | nil => rfl
    | cons member more ih =>
      obtain ⟨name, met⟩ := member
      by_cases same : name = key
      · have dropped : ¬ (name != key) = true := by
          rw [bne_iff_ne]
          exact not_not_intro same
        rw [List.filter_cons, if_neg dropped, ih, List.lookup_cons, same,
          beq_eq_false_iff_ne.mpr differs]
      · have kept : (name != key) = true := bne_iff_ne.mpr same
        rw [List.filter_cons, if_pos kept, List.lookup_cons, List.lookup_cons,
          ih]
  · exact set.distinct (List.Nodup.sublist (List.Sublist.map _ List.filter_sublist) distinct)

/-! ### One change -/

/-- What `within` does at the end of a path does not depend on where the path began, unless it ends
there. -/
theorem within_congr {missing kind kind' : Kind} {final final' : Kind → Members → Option Members}
    {path : List String} {members : Members}
    (ends : path = [] → final kind members = final' kind' members)
    (same : path ≠ [] → final = final') :
    within missing final path kind members = within missing final' path kind' members := by
  cases path with
  | nil =>
    rw [within, within]
    exact ends rfl
  | cons key path =>
    obtain rfl := same (List.cons_ne_nil key path)
    rw [within, within]

namespace Change

/-- A nested change is applied by `within` as the change is in the table there. -/
theorem exists_final (key : String) (change : Change) :
    ∃ final, (∀ members, (change.nest key).apply members
        = within change.load.missing final (key :: change.path) .explicit members)
      ∧ ∀ kind members, (change.load.missing = .dotted → kind = .dotted) →
        within change.load.missing final change.path kind members = change.apply members := by
  obtain ⟨path, name, load⟩ := change
  cases load with
  | value t =>
    refine ⟨_, fun _ => rfl, fun kind members reaches => ?_⟩
    obtain rfl := reaches rfl
    refine within_congr (fun ends => ?_) (fun goesOn => ?_)
    · subst ends
      rfl
    · funext kind inner
      have same : (kind = .dotted ↔ key :: path = []) ↔ (kind = .dotted ↔ path = []) :=
        iff_congr Iff.rfl (iff_of_false (List.cons_ne_nil key path) goesOn)
      exact if_congr same rfl rfl
  | table entries =>
    exact ⟨_, fun _ => rfl, fun _ _ _ => within_congr (fun _ => rfl) (fun _ => rfl)⟩
  | element entries =>
    exact ⟨_, fun _ => rfl, fun _ _ _ => within_congr (fun _ => rfl) (fun _ => rfl)⟩

/-- A change that `Turns` the item under its first key is applied: it sets that key and leaves the
others as they are. -/
theorem Turns.apply {change : Change} {members : Members} {item : Item}
    (turns : change.Turns (members.lookup change.first) item) :
    ∃ changed, change.apply members = some changed ∧ Sets members change.first item changed := by
  generalize found : members.lookup change.first = old at turns
  cases turns with
  | value key t =>
    refine ⟨_, ?_, sets_concat found _⟩
    simp only [Change.apply, addEntry, within, show members.lookup key = none from found]
    rfl
  | table key made =>
    refine ⟨_, ?_, sets_concat found _⟩
    simp only [Change.apply, openTable, within, show members.lookup key = none from found, made]
    rfl
  | fill key made =>
    refine ⟨_, ?_, sets_move members key _⟩
    simp only [Change.apply, openTable, within, show members.lookup key = _ from found, made]
    rfl
  | element key made =>
    refine ⟨_, ?_, sets_concat found _⟩
    simp only [Change.apply, openElement, within, show members.lookup key = none from found, made]
    rfl
  | next key rows made =>
    refine ⟨_, ?_, sets_put found _⟩
    simp only [Change.apply, openElement, within, show members.lookup key = _ from found, made]
    rfl
  | @create key change inner made =>
    obtain ⟨final, starts, goesOn⟩ := change.exists_final key
    refine ⟨_, ?_, sets_concat found _⟩
    rw [starts, within, show members.lookup key = none from found]
    simp only [goesOn change.load.missing [] id, made]
    rfl
  | @inside key change kind old inner reaches made =>
    obtain ⟨final, starts, goesOn⟩ := change.exists_final key
    refine ⟨_, ?_, sets_put found _⟩
    have allowed : ¬ (change.load.missing = .dotted ∧ kind = .explicit) := by
      rintro ⟨dotted, rfl⟩
      cases reaches dotted
    rw [starts, within, show members.lookup key = _ from found]
    simp only [if_neg allowed, goesOn kind old reaches, made]
    rfl
  | @last key change rows old inner header made =>
    obtain ⟨final, starts, goesOn⟩ := change.exists_final key
    refine ⟨_, ?_, sets_put found _⟩
    have noDotted : change.load.missing = .dotted → Kind.explicit = .dotted := by
      rw [header]
      exact nofun
    rw [starts, within, show members.lookup key = _ from found]
    simp only [List.getLast?_concat, List.dropLast_concat, Option.bind_eq_bind, Option.bind_some,
      goesOn .explicit old noDotted, made]
    rfl

end Change

/-! ### Changes one after the other -/

/-- The table with the changes, one after the other. -/
def run (members : Members) (changes : List Change) : Option Members :=
  changes.foldlM (fun members change => change.apply members) members

theorem run_cons (members : Members) (change : Change) (more : List Change) :
    run members (change :: more) = (change.apply members).bind (fun next => run next more) := rfl

theorem run_singleton (members : Members) (change : Change) :
    run members [change] = change.apply members := by
  rw [run_cons]
  exact Option.bind_fun_some _

theorem run_append (members : Members) (changes more : List Change) :
    run members (changes ++ more) = (run members changes).bind (fun next => run next more) :=
  List.foldlM_append

/-- The changes of entries are `run` as `addEntries` adds them. -/
theorem run_ofEntry (members : Members) (entries : List Entry) :
    run members (entries.map Change.ofEntry) = addEntries members entries := by
  rw [run, addEntries, List.foldlM_map]
  rfl

/-- What changes make of an item, one after the other. -/
inductive TurnsAll : Option Item → List Change → Option Item → Prop
  | nil (item? : Option Item) : TurnsAll item? [] item?
  | cons {old : Option Item} {change : Change} {next : Item} {more : List Change}
    {last : Option Item} (first : change.Turns old next) (others : TurnsAll (some next) more last) :
    TurnsAll old (change :: more) last

theorem eq_of_turnsAll_nil {old last : Option Item} (turns : TurnsAll old [] last) :
    last = old := by
  cases turns
  rfl

theorem exists_of_turnsAll_cons {old last : Option Item} {change : Change} {more : List Change}
    (turns : TurnsAll old (change :: more) last) :
    ∃ next, change.Turns old next ∧ TurnsAll (some next) more last := by
  cases turns with
  | cons first others => exact ⟨_, first, others⟩

theorem TurnsAll.append {old next last : Option Item} {changes more : List Change}
    (first : TurnsAll old changes next) (others : TurnsAll next more last) :
    TurnsAll old (changes ++ more) last := by
  induction first with
  | nil => exact others
  | cons turns _ ih => exact .cons turns (ih others)

/-- A table is changed by `run` as its items are by `TurnsAll`, key by key. -/
theorem run_of_turnsAll {members : Members} {changes : List Change} {items : String → Option Item}
    (turns : ∀ key, TurnsAll (members.lookup key)
      (changes.filter (fun change => change.first = key)) (items key))
    (distinct : (members.map Prod.fst).Nodup) :
    ∃ changed, run members changes = some changed ∧ (∀ key, changed.lookup key = items key)
      ∧ (changed.map Prod.fst).Nodup := by
  induction changes generalizing members with
  | nil =>
    refine ⟨members, rfl, fun key => ?_, distinct⟩
    have same := turns key
    rw [List.filter_nil] at same
    exact (eq_of_turnsAll_nil same).symm
  | cons change more ih =>
    have here := turns change.first
    rw [List.filter_cons, if_pos (decide_eq_true rfl)] at here
    obtain ⟨next, first, others⟩ := exists_of_turnsAll_cons here
    obtain ⟨changed, made, set⟩ := first.apply
    have later : ∀ key, TurnsAll (changed.lookup key)
        (more.filter (fun change => change.first = key)) (items key) := by
      intro key
      by_cases same : key = change.first
      · rw [same, set.here]
        exact others
      · have untouched := turns key
        have dropped : ¬ decide (change.first = key) = true := by
          rw [decide_eq_true_eq]
          exact Ne.symm same
        rw [List.filter_cons, if_neg dropped] at untouched
        rwa [set.others key same]
    obtain ⟨result, ran, looked, keys⟩ := ih later (set.distinct distinct)
    exact ⟨result, by rw [run_cons, made, Option.bind_some, ran], looked, keys⟩

/-! ### Changes inside of an item -/

/-- Changes inside of an item change it one after the other, if each of them may. -/
theorem turnsAll_map_nest (key : String) (item : Members → Item) {changes : List Change}
    {old inner : Members}
    (turns : ∀ change ∈ changes, ∀ {old inner : Members}, change.apply old = some inner →
      (change.nest key).Turns (some (item old)) (item inner))
    (made : run old changes = some inner) :
    TurnsAll (some (item old)) (changes.map (Change.nest key)) (some (item inner)) := by
  induction changes generalizing old with
  | nil =>
    cases made
    exact .nil _
  | cons change more ih =>
    rw [List.forall_mem_cons] at turns
    rw [run_cons] at made
    obtain ⟨next, first, made⟩ := Option.bind_eq_some_iff.mp made
    exact .cons (turns.1 first) (ih turns.2 made)

/-- Changes inside of a table change that table. -/
theorem turnsAll_nest (key : String) {kind : Kind} {changes : List Change} {old inner : Members}
    (reach : ∀ change ∈ changes, change.load.missing = .dotted → kind = .dotted)
    (made : run old changes = some inner) :
    TurnsAll (some (.table kind old)) (changes.map (Change.nest key))
      (some (.table kind inner)) :=
  turnsAll_map_nest key (.table kind) (fun change member => .inside key (reach change member)) made

/-- Changes inside of a table that is not there begin with an empty one. -/
theorem turnsAll_nest_new (key : String) {change : Change} {more : List Change} {inner : Members}
    (reach : ∀ later ∈ more, later.load.missing = .dotted → change.load.missing = .dotted)
    (made : run [] (change :: more) = some inner) :
    TurnsAll none ((change :: more).map (Change.nest key))
      (some (.table change.load.missing inner)) := by
  rw [run_cons] at made
  obtain ⟨next, first, made⟩ := Option.bind_eq_some_iff.mp made
  exact .cons (.create key first) (turnsAll_nest key reach made)

/-- Changes inside of a row of tables change the last one. -/
theorem turnsAll_nest_last (key : String) (rows : List Members) {changes : List Change}
    {old inner : Members} (headers : ∀ change ∈ changes, change.load.missing = .implicit)
    (made : run old changes = some inner) :
    TurnsAll (some (.tables (rows ++ [old]))) (changes.map (Change.nest key))
      (some (.tables (rows ++ [inner]))) :=
  turnsAll_map_nest key (fun inner => .tables (rows ++ [inner]))
    (fun change member => .last key rows (headers change member)) made

end Wordbook.Toml
