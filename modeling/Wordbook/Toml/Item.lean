import Wordbook.Tree

/-!
# Tables under construction

A TOML document names its tables one after the other and fills them piece by piece.  This module
says which pieces fit together.

## Main Definitions

* `Item` — a value, a table or an array of tables
* `within` — changes the table at the end of a path
* `addEntry` — gives a table one more entry
* `openTable`, `openElement` — add a table under a header
* `Item.tree` — the tree of an item

## Design Notes

A table comes to be in one of three ways: under a header of its own, on the path to another header,
or on the path of a dotted key.  The first is closed to dotted keys from elsewhere; the second may
still get its header, once; the third never gets one.  Values, and with them inline tables and
arrays, are closed to all that follows.
-/

namespace Wordbook.Toml

/-- How a table came to be. -/
inductive Kind where
  /-- It has a header. -/
  | explicit
  /-- It stands on the path of a header. -/
  | implicit
  /-- It stands on the path of a dotted key. -/
  | dotted
deriving DecidableEq, Repr

/-- An entry of a table under construction. -/
inductive Item where
  /-- A value, which nothing can be added to. -/
  | value (tree : Tree)
  /-- A table. -/
  | table (kind : Kind) (members : List (String × Item))
  /-- Tables in a row, of which only the last can be added to. -/
  | tables (elements : List (List (String × Item)))
deriving Repr, Inhabited

/-- The entries of a table under construction, in the order in which they came to be. -/
abbrev Members := List (String × Item)

/-- Puts an item in the place of the one under the same key, or behind all others if there is
none. -/
def put (members : Members) (key : String) (item : Item) : Members :=
  match members with
  | [] => [(key, item)]
  | (other, old) :: more =>
    if other = key then (key, item) :: more else (other, old) :: put more key item

/-- Changes the table at the end of a path, given how that table came to be.  Tables that the path
lacks come to be on the way, as `missing` says.  A path of a dotted key does not lead into tables
with a header. -/
def within (missing : Kind) (change : Kind → Members → Option Members) :
    List String → Kind → Members → Option Members
  | [], kind, members => change kind members
  | key :: path, _, members =>
    match members.lookup key with
    | none => do
      let inner ← within missing change path missing []
      some (members ++ [(key, .table missing inner)])
    | some (.value _) => none
    | some (.tables elements) => do
      let last ← elements.getLast?
      let inner ← within missing change path .explicit last
      some (put members key (.tables (elements.dropLast ++ [inner])))
    | some (.table kind inner) =>
      if missing = .dotted ∧ kind = .explicit then none
      else do
        let inner ← within missing change path kind inner
        some (put members key (.table kind inner))

/-- Gives a table one more entry under a dotted key.  The table at the end of the path must have
come to be by dotted keys, and the last part of the key must be new there. -/
def addEntry (members : Members) (path : List String) (key : String) (value : Tree) :
    Option Members :=
  within .dotted
    (fun kind inner =>
      if (kind = .dotted) ↔ path = [] then none
      else if (inner.lookup key).isSome then none
      else some (inner ++ [(key, .value value)]))
    path .explicit members

/-- A dotted key with its value. -/
structure Entry where
  /-- All parts of the key but the last. -/
  path : List String
  /-- The last part of the key. -/
  key : String
  /-- The value. -/
  value : Tree
deriving Repr

/-- Gives a table some more entries. -/
def addEntries (members : Members) (entries : List Entry) : Option Members :=
  entries.foldlM (fun members entry => addEntry members entry.path entry.key entry.value) members

/-- Adds the table of a header.  Its key must be new, or stand for a table that has only been on the
path of other headers; that one moves behind the others. -/
def openTable (members : Members) (path : List String) (key : String) (entries : List Entry) :
    Option Members :=
  within .implicit
    (fun _ inner =>
      match inner.lookup key with
      | none => do
        let filled ← addEntries [] entries
        some (inner ++ [(key, .table .explicit filled)])
      | some (.table .implicit old) => do
        let filled ← addEntries old entries
        some (inner.filter (fun member => member.1 != key) ++ [(key, .table .explicit filled)])
      | some _ => none)
    path .explicit members

/-- Adds a table to the row of tables of a header.  The key must be new or stand for such a row. -/
def openElement (members : Members) (path : List String) (key : String) (entries : List Entry) :
    Option Members :=
  within .implicit
    (fun _ inner =>
      match inner.lookup key with
      | none => do
        let filled ← addEntries [] entries
        some (inner ++ [(key, .tables [filled])])
      | some (.tables elements) => do
        let filled ← addEntries [] entries
        some (put inner key (.tables (elements ++ [filled])))
      | some _ => none)
    path .explicit members

mutual

/-- The tree of an item. -/
def Item.tree : Item → Tree
  | .value t => t
  | .table _ members => .table (memberTrees members) true
  | .tables elements => .rows (elementTrees elements)

/-- The trees of the entries of a table. -/
def memberTrees : List (String × Item) → List (Option String × Tree)
  | [] => []
  | (key, item) :: more => (some key, item.tree) :: memberTrees more

/-- The trees of tables in a row. -/
def elementTrees : List (List (String × Item)) → List Tree
  | [] => []
  | members :: more => .table (memberTrees members) true :: elementTrees more

end

/-- The table that entries make by themselves; none if they do not fit together. -/
def tableOf (entries : List Entry) : Option Tree :=
  (addEntries [] entries).map (fun members => .table (memberTrees members) true)

@[simp] theorem addEntries_nil (members : Members) : addEntries members [] = some members := rfl

@[simp] theorem memberTrees_nil : memberTrees [] = [] := rfl

end Wordbook.Toml
