import Wordbook.Format
import Wordbook.Json.Reader
import Wordbook.Json.Value
import Wordbook.Schema
import Wordbook.Toml.Printer
import Wordbook.Toml.Reader

/-!
# Dialect documents

How a dialect is read from a document and written as one, in either notation.

## Main Definitions

* `Dialect.parse` — the dialect of a document
* `Dialect.load` — the dialect of the document at a path
* `Dialect.toJson`, `Dialect.toBlocks` — what is written, before it is text
* `Dialect.render` — the document of a dialect

## Design Notes

A TOML document is read to its end before anything is made of it.  A JSON document is read as it
comes, so the first thing in it that does not fit is reported even if the text goes wrong later.

What a reader would fill in anyway is left out in both notations: the arguments of a command that
has none, and the default of a required argument.
-/

namespace Wordbook

/-! ### Reading -/

/-- The dialect of a TOML document. -/
def Dialect.ofToml (text : String) : Reading Dialect :=
  match Toml.read text with
  | none => .error .malformed
  | some tree => Dialect.ofTree false tree

/-- The dialect of a JSON document. -/
def Dialect.ofJson (text : String) : Reading Dialect :=
  match Json.read text with
  | (tree, clean) => do
    let dialect ← Dialect.ofTree true tree
    if clean then .ok dialect else .error .malformed

/-- The dialect of a document. -/
def Dialect.parse : Format → String → Reading Dialect
  | .toml => Dialect.ofToml
  | .json => Dialect.ofJson

/-- Why the document at a path holds no dialect. -/
inductive LoadFailure where
  /-- The path does not tell the notation. -/
  | unsupported (extension : String)
  /-- There is nothing to read at the path. -/
  | unreadable
  /-- The document is refused. -/
  | refused (format : Format) (problem : Problem)
deriving DecidableEq, Repr

/-- The dialect of the document at a path; `contents` is what stands there, if it can be read.  The
path has to tell the notation before the document counts. -/
def Dialect.load (path : String) (contents : Option String) : Except LoadFailure Dialect :=
  match Format.ofPath? path with
  | none => .error (.unsupported (Format.extension path))
  | some format =>
    match contents with
    | none => .error .unreadable
    | some text => (Dialect.parse format text).mapError (.refused format)

/-! ### Writing JSON -/

/-- The JSON object of a type. -/
def ValueType.toJson (type : ValueType) : Json.Value :=
  .object [("id", .string type.id), ("syntax", .strings type.notes)]

/-- The JSON object of an argument. -/
def Argument.toJson (arg : Argument) : Json.Value :=
  .object ([("type", .string arg.type), ("name", .string arg.name)]
    ++ arg.default.toList.map (fun text => ("default", .string text)))

/-- The JSON object of a command. -/
def Command.toJson (command : Command) : Json.Value :=
  .object ([("aliases", .strings command.aliases), ("description", .string command.description)]
    ++ if command.args.isEmpty then [] else [("args", .array (command.args.map Argument.toJson))])

/-- The JSON object of a dialect. -/
def Dialect.toJson (dialect : Dialect) : Json.Value :=
  .object [("name", .string dialect.name),
    ("types", .array (dialect.types.map ValueType.toJson)),
    ("commands", .array (dialect.commands.map Command.toJson))]

/-! ### Writing TOML -/

/-- The table of a type. -/
def ValueType.toBlock (type : ValueType) : Toml.Block :=
  ⟨["types"], [("id", .text type.id), ("syntax", .texts type.notes)]⟩

/-- The table of an argument. -/
def Argument.toBlock (arg : Argument) : Toml.Block :=
  ⟨["commands", "args"], [("type", .text arg.type), ("name", .text arg.name)]
    ++ arg.default.toList.map (fun text => ("default", .text text))⟩

/-- The table of a command, and those of its arguments. -/
def Command.toBlocks (command : Command) : List Toml.Block :=
  ⟨["commands"],
      [("aliases", .texts command.aliases), ("description", .text command.description)]⟩
    :: command.args.map Argument.toBlock

/-- The entry that stands for an empty row of tables; a row with tables needs none. -/
def emptyRow {α : Type} (key : String) (row : List α) : List (String × Toml.Content) :=
  if row.isEmpty then [(key, .texts [])] else []

/-- The tables of a dialect, after what stands before any table. -/
def Dialect.toBlocks (dialect : Dialect) : List Toml.Block :=
  ⟨[], ("name", .text dialect.name)
      :: (emptyRow "types" dialect.types ++ emptyRow "commands" dialect.commands)⟩
    :: (dialect.types.map ValueType.toBlock ++ dialect.commands.flatMap Command.toBlocks)

/-- The document of a dialect. -/
def Dialect.render (dialect : Dialect) : Format → String
  | .toml => Toml.writeBlocks dialect.toBlocks
  | .json => dialect.toJson.write

end Wordbook
