import Wordbook.Document
import Wordbook.Proofs.Schema
import Wordbook.Proofs.Toml.Tables

/-!
# Dialects in TOML

A dialect that is written as a TOML document and read back is the same dialect.

## Main Definitions

* `Command.members` — the members of the table of a command
* `Dialect.front` — the entries before any header
* `Dialect.members` — the members of a document

## Main Statements

* `Command.foldlM_toBlocks` — the sections of a command add one table, with those of its arguments
* `Dialect.read_toBlocks` — the blocks of a dialect are read as one table
* `Dialect.parse_render_toml` — what is written is read back

## Design Notes

An empty row stands before all headers and another one under them, so the order of the members
depends on which rows are empty.  The reader is indifferent to it.
-/

namespace Wordbook

open Toml

/-! ### Keys -/

/-- The parts of `path` and the `keys` below it can be written without quotes, and there are not too
many parts. -/
def areBare (path keys : List String) : Bool :=
  path.all isBare && keys.all isBare && decide (path.length < levels)

theorem isBare_of_areBare {block : Block} (path keys : List String) (named : block.path = path)
    (filled : block.entries.map Prod.fst = keys) (bare : areBare path keys = true) :
    block.IsBare := by
  subst named filled
  simp only [areBare, Bool.and_eq_true, List.all_eq_true, decide_eq_true_iff] at bare
  exact ⟨bare.1.1, bare.2, fun entry member => bare.1.2 _ (List.mem_map_of_mem member)⟩

theorem ValueType.isBare_toBlock (type : ValueType) : type.toBlock.IsBare :=
  isBare_of_areBare ["types"] ["id", "syntax"] rfl rfl (by decide)

theorem Argument.isBare_toBlock (arg : Argument) : arg.toBlock.IsBare := by
  obtain ⟨type, name, default⟩ := arg
  cases default with
  | none =>
    exact isBare_of_areBare ["commands", "args"] ["type", "name"] rfl rfl (by decide)
  | some text =>
    exact isBare_of_areBare ["commands", "args"] ["type", "name", "default"] rfl rfl (by decide)

theorem Command.isBare_toBlocks (command : Command) :
    ∀ block ∈ command.toBlocks, block.IsBare := by
  rw [toBlocks, List.forall_mem_cons, List.forall_mem_map]
  refine ⟨?_, fun arg _ => arg.isBare_toBlock⟩
  exact isBare_of_areBare ["commands"] ["aliases", "description"] rfl rfl (by decide)

/-- No argument has a key twice among the entries of its block. -/
theorem Argument.nodup_toBlock (arg : Argument) :
    (arg.toBlock.entries.map Prod.fst).Nodup := by
  obtain ⟨type, name, default⟩ := arg
  cases default with
  | none => show ["type", "name"].Nodup; decide
  | some text => show ["type", "name", "default"].Nodup; decide

/-! ### Commands -/

namespace Command

/-- The entries of a command. -/
def entries (command : Command) : List (String × Content) :=
  [("aliases", .texts command.aliases), ("description", .text command.description)]

/-- The members of the table of a command. -/
def members (command : Command) : Members :=
  valueMembers command.entries
    ++ rowMembers "args" (command.args.map (fun arg => valueMembers arg.toBlock.entries))

/-- The sections of a command: its table, and the tables of its arguments inside it. -/
theorem map_part_toBlocks (command : Command) :
    command.toBlocks.map Block.part
      = elementSections [] "commands" [command.entries]
        ++ elementSections ["commands"] "args"
          (command.args.map (fun arg => arg.toBlock.entries)) := by
  rw [toBlocks, List.map_cons, elementSections, elementSections, List.map_map, List.map_map]
  rfl

/-- The sections of a command add one table to the row `elements` of commands, with those of its
arguments. -/
theorem foldlM_toBlocks {front : Members} (fresh : front.lookup "commands" = none)
    (elements : List Members) (command : Command) :
    (command.toBlocks.map Block.part).foldlM addSection (front ++ rowMembers "commands" elements)
      = some (front ++ rowMembers "commands" (elements ++ [command.members])) := by
  have keys : ∀ row ∈ [command.entries], (row.map Prod.fst).Nodup := by
    rw [List.forall_mem_singleton]
    show ["aliases", "description"].Nodup
    decide
  have table := foldlM_elementSections fresh keys elements
  have argKeys : ∀ row ∈ command.args.map (fun arg => arg.toBlock.entries),
      (row.map Prod.fst).Nodup :=
    List.forall_mem_map.mpr (fun arg _ => arg.nodup_toBlock)
  have newKey : (valueMembers command.entries).lookup "args" = none := rfl
  have args := foldlM_elementSections newKey argKeys []
  have noArgs : rowMembers "args" [] = [] := rfl
  rw [noArgs, List.append_nil, List.nil_append, List.map_map] at args
  rw [map_part_toBlocks, List.foldlM_append, table, List.map_singleton, Option.bind_eq_bind,
    Option.bind_some, foldlM_elementSections_within fresh, args]
  rfl

/-- The sections of `commands` add their tables one after the other. -/
theorem foldlM_flatMap_toBlocks {front : Members} (fresh : front.lookup "commands" = none)
    (elements : List Members) (commands : List Command) :
    ((commands.flatMap toBlocks).map Block.part).foldlM addSection
        (front ++ rowMembers "commands" elements)
      = some (front ++ rowMembers "commands" (elements ++ commands.map members)) := by
  induction commands generalizing elements with
  | nil => rw [List.map_nil, List.append_nil]; rfl
  | cons command more ih =>
    rw [List.flatMap_cons, List.map_append, List.foldlM_append, foldlM_toBlocks fresh,
      Option.bind_eq_bind, Option.bind_some, ih, List.append_assoc,
      List.singleton_append, List.map_cons]

end Command

/-! ### Trees -/

/-- The trees of `rowMembers` are one member with the trees of its tables. -/
theorem memberTrees_rowMembers (key : String) (elements : List Members) :
    memberTrees (rowMembers key elements)
      = Record.named (rowMember .rows key
        (elements.map (fun members => .table (memberTrees members) true))) := by
  cases elements with
  | nil => rfl
  | cons first more =>
    show [(some key, Tree.rows (elementTrees (first :: more)))] = _
    rw [elementTrees_eq_map]
    rfl

theorem ValueType.tree_toBlock (type : ValueType) :
    .table (memberTrees (valueMembers type.toBlock.entries)) true = type.tree := rfl

theorem Argument.tree_toBlock (arg : Argument) :
    .table (memberTrees (valueMembers arg.toBlock.entries)) true = arg.tree := by
  obtain ⟨type, name, default⟩ := arg
  cases default <;> rfl

theorem Command.tree_members (command : Command) :
    .table (memberTrees command.members) true = command.tree .rows := by
  have args : (command.args.map (fun arg => valueMembers arg.toBlock.entries)).map
      (fun members => .table (memberTrees members) true) = command.args.map Argument.tree := by
    rw [List.map_map]
    exact List.map_congr_left (fun arg _ => arg.tree_toBlock)
  rw [members, memberTrees_append, memberTrees_rowMembers, args]
  rfl

/-! ### Dialects -/

namespace Dialect

variable (dialect : Dialect)

/-- The entries before any header: the name, and the rows that are empty. -/
def front : List (String × Content) :=
  ("name", .text dialect.name)
    :: (emptyRow "types" dialect.types ++ emptyRow "commands" dialect.commands)

/-- The members of the row of types. -/
def typeMembers : Members :=
  rowMembers "types" (dialect.types.map (fun type => valueMembers type.toBlock.entries))

/-- The members of the row of commands. -/
def commandMembers : Members := rowMembers "commands" (dialect.commands.map Command.members)

/-- The members of a document. -/
def members : Members := valueMembers dialect.front ++ dialect.typeMembers ++ dialect.commandMembers

theorem isBare_toBlocks : ∀ block ∈ dialect.toBlocks, block.IsBare := by
  rw [toBlocks, List.forall_mem_cons, List.forall_mem_append]
  refine ⟨?_, ?_, ?_⟩
  · obtain ⟨name, types, commands⟩ := dialect
    cases types <;> cases commands
    · exact isBare_of_areBare [] ["name", "types", "commands"] rfl rfl (by decide)
    · exact isBare_of_areBare [] ["name", "types"] rfl rfl (by decide)
    · exact isBare_of_areBare [] ["name", "commands"] rfl rfl (by decide)
    · exact isBare_of_areBare [] ["name"] rfl rfl (by decide)
  · exact List.forall_mem_map.mpr (fun type _ => type.isBare_toBlock)
  · intro block member
    obtain ⟨command, -, inside⟩ := List.mem_flatMap.mp member
    exact command.isBare_toBlocks block inside

/-- All blocks but the first have a header. -/
theorem headed_toBlocks :
    ∀ row ∈ dialect.types.map ValueType.toBlock ++ dialect.commands.flatMap Command.toBlocks,
      row.path ≠ [] := by
  rw [List.forall_mem_append]
  constructor
  · exact List.forall_mem_map.mpr (fun type _ => List.cons_ne_nil _ _)
  · intro row member
    obtain ⟨command, -, inside⟩ := List.mem_flatMap.mp member
    rw [Command.toBlocks, List.mem_cons, List.mem_map] at inside
    rcases inside with rfl | ⟨arg, -, rfl⟩
    · exact List.cons_ne_nil _ _
    · exact List.cons_ne_nil _ _

/-- The entries of `front` are added to the empty table, as their keys differ. -/
theorem addEntries_front :
    addEntries [] (dialect.front.map Entry.ofContent) = some (valueMembers dialect.front) := by
  have distinct : (dialect.front.map Prod.fst).Nodup := by
    obtain ⟨name, types, commands⟩ := dialect
    cases types <;> cases commands
    · show ["name", "types", "commands"].Nodup; decide
    · show ["name", "types"].Nodup; decide
    · show ["name", "commands"].Nodup; decide
    · show ["name"].Nodup; decide
  exact addEntries_ofContent distinct (fun _ _ => rfl)

/-- The sections of the types add the row of types. -/
theorem foldlM_types :
    ((dialect.types.map ValueType.toBlock).map Block.part).foldlM addSection
        (valueMembers dialect.front)
      = some (valueMembers dialect.front ++ dialect.typeMembers) := by
  obtain ⟨name, types, commands⟩ := dialect
  cases types with
  | nil => exact congrArg some (List.append_nil _).symm
  | cons type more =>
    have fresh : (valueMembers (front ⟨name, type :: more, commands⟩)).lookup "types" = none := by
      cases commands <;> rfl
    have keys : ∀ row ∈ (type :: more).map (fun type => type.toBlock.entries),
        (row.map Prod.fst).Nodup := by
      rw [List.forall_mem_map]
      intro type _
      show ["id", "syntax"].Nodup
      decide
    have rows := foldlM_elementSections fresh keys []
    have none : rowMembers "types" [] = [] := rfl
    rw [none, List.append_nil, List.nil_append, List.map_map, elementSections, List.map_map] at rows
    rw [List.map_map]
    exact rows

/-- The sections of the commands add the row of commands. -/
theorem foldlM_commands :
    ((dialect.commands.flatMap Command.toBlocks).map Block.part).foldlM addSection
        (valueMembers dialect.front ++ dialect.typeMembers)
      = some dialect.members := by
  obtain ⟨name, types, commands⟩ := dialect
  cases commands with
  | nil => exact congrArg some (List.append_nil _).symm
  | cons command more =>
    have fresh : (valueMembers (front ⟨name, types, command :: more⟩)
        ++ typeMembers ⟨name, types, command :: more⟩).lookup "commands" = none := by
      cases types <;> rfl
    have rows := Command.foldlM_flatMap_toBlocks fresh [] (command :: more)
    have none : rowMembers "commands" [] = [] := rfl
    rw [none, List.append_nil] at rows
    exact rows

/-- The blocks that `toBlocks` makes of a dialect are read as one table. -/
theorem read_toBlocks :
    Toml.read (writeBlocks dialect.toBlocks)
      = some (.table (memberTrees dialect.members) true) := by
  have read := read_writeBlocks dialect.isBare_toBlocks dialect.headed_toBlocks
  rw [toBlocks, read, List.map_cons, List.map_append, assemble]
  have first : addSection [] (Block.part ⟨[], dialect.front⟩)
      = some (valueMembers dialect.front) := dialect.addEntries_front
  rw [front] at first
  rw [List.foldlM_cons, first, Option.bind_eq_bind, Option.bind_some, List.foldlM_append]
  rw [← front, foldlM_types, Option.bind_eq_bind, Option.bind_some, foldlM_commands]
  rfl

/-- The trees of `members`: those of the entries before any header, and rows that are not empty. -/
theorem memberTrees_members :
    memberTrees dialect.members
      = Record.named (dialect.front.map (fun entry => (entry.1, entry.2.tree))
        ++ rowMember .rows "types" (dialect.types.map ValueType.tree)
        ++ rowMember .rows "commands" (dialect.commands.map (Command.tree .rows))) := by
  have types : (dialect.types.map (fun type => valueMembers type.toBlock.entries)).map
      (fun members => .table (memberTrees members) true) = dialect.types.map ValueType.tree := by
    rw [List.map_map]
    exact List.map_congr_left (fun type _ => type.tree_toBlock)
  have commands : (dialect.commands.map Command.members).map
      (fun members => .table (memberTrees members) true)
        = dialect.commands.map (Command.tree .rows) := by
    rw [List.map_map]
    exact List.map_congr_left (fun command _ => command.tree_members)
  rw [members, memberTrees_append, memberTrees_append, memberTrees_valueMembers, typeMembers,
    memberTrees_rowMembers, types, commandMembers, memberTrees_rowMembers, commands]
  simp only [Record.named, List.map_append, List.map_map]
  rfl

/-- For every dialect, the document that `Dialect.render` writes is parsed as that dialect. -/
theorem parse_render_toml :
    Dialect.parse .toml (dialect.render .toml) = .ok dialect := by
  have made : Dialect.ofTree false (.table (memberTrees dialect.members) true) = .ok dialect := by
    rw [memberTrees_members]
    obtain ⟨name, types, commands⟩ := dialect
    -- A row is a list before all headers if it is empty, and stands under headers if it is not.
    cases types <;> cases commands
    · exact ofTree_rows false Tree.isRow_listed Tree.isRow_listed Tree.isRow_rows _ (Or.inl rfl)
    · exact ofTree_rows false Tree.isRow_listed Tree.isRow_rows Tree.isRow_rows _ (Or.inl rfl)
    · exact ofTree_rows false Tree.isRow_rows Tree.isRow_listed Tree.isRow_rows _ (Or.inr rfl)
    · exact ofTree_rows false Tree.isRow_rows Tree.isRow_rows Tree.isRow_rows _ (Or.inl rfl)
  rw [Dialect.parse, Dialect.render, Dialect.ofToml, read_toBlocks]
  exact made

end Dialect

end Wordbook
