import Wordbook.Dialect
import Wordbook.Record

/-!
# The schema of dialect documents

Which fields the records of a dialect document have, and how a dialect is read from a document tree.

## Main Definitions

* `Argument.record`, `Command.record`, `ValueType.record`, `Dialect.record` — the records
* `Dialect.ofTree` — the dialect that a document holds

## Design Notes

Only the names of things are required: the name of a dialect, the identifier of a type, the aliases
of a command and the type of an argument.  All else is empty unless the document says otherwise.
-/

namespace Wordbook

/-- The fields of a type. -/
def ValueType.record : Record ValueType where
  title := "struct TypeDescriptor"
  fields := ["id", "syntax"]
  required := ["id"]
  blank := ⟨"", []⟩
  take key t value :=
    match key with
    | "id" => do return { value with id := ← t.asText }
    | _ => do return { value with notes := ← t.asList Tree.asText }

/-- The fields of an argument. -/
def Argument.record : Record Argument where
  title := "struct ArgumentDescriptor"
  fields := ["type", "name", "default"]
  required := ["type"]
  blank := ⟨"", "", none⟩
  take key t value :=
    match key with
    | "type" => do return { value with type := ← t.asText }
    | "name" => do return { value with name := ← t.asText }
    | _ => do return { value with default := ← t.asOptional Tree.asText }

/-- The fields of a command.  `strict` refuses arguments that are written as lists with too many
items. -/
def Command.record (strict : Bool) : Record Command where
  title := "struct CommandDescriptor"
  fields := ["aliases", "description", "args"]
  required := ["aliases"]
  blank := ⟨[], "", []⟩
  take key t value :=
    match key with
    | "aliases" => do return { value with aliases := ← t.asList Tree.asText }
    | "description" => do return { value with description := ← t.asText }
    | _ => do return { value with args := ← t.asList (Argument.record.read strict) }

/-- The fields of a dialect.  `strict` refuses records that are written as lists with too many
items. -/
def Dialect.record (strict : Bool) : Record Dialect where
  title := "struct DialectFile"
  fields := ["name", "types", "commands"]
  required := ["name"]
  blank := ⟨"", [], []⟩
  take key t value :=
    match key with
    | "name" => do return { value with name := ← t.asText }
    | "types" => do return { value with types := ← t.asList (ValueType.record.read strict) }
    | _ => do return { value with commands := ← t.asList ((Command.record strict).read strict) }

/-- The dialect that a document holds. -/
def Dialect.ofTree (strict : Bool) (t : Tree) : Reading Dialect :=
  (Dialect.record strict).read strict t

end Wordbook
