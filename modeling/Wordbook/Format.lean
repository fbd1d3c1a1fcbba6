/-!
# Document formats

The notations that dialect documents are written in, and how a name or a path tells which.

## Main Definitions

* `Format` — a notation
* `Format.ofName?` — the notation of a name
* `Format.ofPath?` — the notation of the document at a path
* `extension` — the extension of a path
-/

namespace Wordbook

/-- A notation for documents. -/
inductive Format where
  /-- Tables under headers, line by line. -/
  | toml
  /-- Values in brackets. -/
  | json
deriving DecidableEq, Repr

namespace Format

/-- The notation with the given name, in ASCII letters of either case. -/
def ofName? (name : String) : Option Format :=
  match name.map Char.toLower with
  | "toml" => some toml
  | "json" => some json
  | _ => none

/-- Why a name is refused. -/
def unsupportedMessage (name : String) : String :=
  "unsupported dialect file format: " ++ name.map Char.toLower

/-- The parts of a path between slashes. -/
def components : List Char → List (List Char)
  | [] => [[]]
  | '/' :: rest => [] :: components rest
  | c :: rest =>
    match components rest with
    | [] => [[c]]
    | part :: more => (c :: part) :: more

/-- The last part of a path that names something.  Slashes and single dots at the end do not count;
a path that ends in two dots, or has no part, names nothing. -/
def fileName? (path : List Char) : Option (List Char) :=
  match ((components path).filter (fun part => !part.isEmpty && part != ['.'])).getLast? with
  | none => none
  | some part => if part = ['.', '.'] then none else some part

/-- What stands behind the last dot of a file name.  A dot at its front does not count. -/
def extensionOf (name : List Char) : List Char :=
  let behind := (name.reverse.takeWhile (· != '.')).reverse
  if behind.length + 1 < name.length then behind else []

/-- The extension of a path; empty if it has none. -/
def extension (path : String) : String :=
  match fileName? path.toList with
  | none => ""
  | some name => String.ofList (extensionOf name)

/-- The notation of the document at a path. -/
def ofPath? (path : String) : Option Format := ofName? (extension path)

end Format

end Wordbook
