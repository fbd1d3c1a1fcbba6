import Wordbook.Toml.Item
import Wordbook.Toml.Scalar
import Wordbook.Toml.Text

/-!
# TOML values

Keys and values, as they stand at the front of a document.

## Main Definitions

* `lexKey` — a dotted key
* `lexValue` — a value

## Design Notes

Values may be nested, but only so deep: `lexValue` counts down the levels that are left.
-/

namespace Wordbook.Toml

/-- One more than the greatest number of levels in values and of parts in keys. -/
def levels : Nat := 80

/-- A part of a key: a string of one line, or characters that need no quotes. -/
def lexKeyPart (cs : List Char) : Option (List Char × List Char) :=
  match lexLine cs with
  | some found => some found
  | none =>
    match cs.takeWhile isBareKey with
    | [] => none
    | part => some (part, cs.dropWhile isBareKey)

/-- The parts of a dotted key, and what follows.  Blanks may stand around each part. -/
def lexKeyParts (cs : List Char) : Option (List String × List Char) :=
  match lexKeyPart (skipBlanks cs) with
  | none => none
  | some (part, rest) =>
    match skipBlanks rest with
    | '.' :: more =>
      if more.length < cs.length then
        match lexKeyParts more with
        | none => none
        | some (parts, rest) => some (String.ofList part :: parts, rest)
      else none
    | rest => some ([String.ofList part], rest)
termination_by cs.length

/-- A dotted key as its path and its last part, and what follows. -/
def lexKey (cs : List Char) : Option (List String × String × List Char) :=
  match lexKeyParts cs with
  | none => none
  | some (parts, rest) =>
    match parts.getLast? with
    | none => none
    | some key => if parts.length < levels then some (parts.dropLast, key, rest) else none

/-- The items of a list up to its end, and what follows.  A comma may stand behind the last one. -/
def lexItems (item : List Char → Option (Tree × List Char)) (cs : List Char) :
    Option (List Tree × List Char) :=
  match skipSpace cs with
  | ']' :: rest => some ([], rest)
  | start =>
    match item start with
    | none => none
    | some (t, rest) =>
      match skipSpace rest with
      | ']' :: rest => some ([t], rest)
      | ',' :: rest =>
        if rest.length < cs.length then
          match lexItems item rest with
          | none => none
          | some (items, rest) => some (t :: items, rest)
        else none
      | _ => none
termination_by cs.length

/-- A key and its value, and what follows. -/
def lexEntry (value : List Char → Option (Tree × List Char)) (cs : List Char) :
    Option (Entry × List Char) :=
  match lexKey cs with
  | some (path, key, '=' :: rest) =>
    match value (skipBlanks rest) with
    | none => none
    | some (t, rest) => some (⟨path, key, t⟩, rest)
  | _ => none

/-- The entries of an inline table up to its end, and what follows. -/
def lexEntries (value : List Char → Option (Tree × List Char)) (cs : List Char) :
    Option (List Entry × List Char) :=
  match lexEntry value cs with
  | none => none
  | some (entry, rest) =>
    match skipBlanks rest with
    | '}' :: rest => some ([entry], rest)
    | ',' :: rest =>
      if rest.length < cs.length then
        match lexEntries value rest with
        | none => none
        | some (entries, rest) => some (entry :: entries, rest)
      else none
    | _ => none
termination_by cs.length

/-- The inline table behind its opening sign, and what follows. -/
def lexInline (value : List Char → Option (Tree × List Char)) (cs : List Char) :
    Option (Tree × List Char) :=
  match skipBlanks cs with
  | '}' :: rest => some (.table [] true, rest)
  | start =>
    match lexEntries value start with
    | none => none
    | some (entries, rest) => (tableOf entries).map (·, rest)

/-- The string or scalar at the front of a document, and what follows. -/
def lexSimple (cs : List Char) : Option (Tree × List Char) :=
  match lexString cs with
  | some (text, rest) => some (.text (String.ofList text), rest)
  | none => lexScalar cs

/-- The value at the front of a document, and what follows; `depth` levels are left. -/
def lexValue : Nat → List Char → Option (Tree × List Char)
  | depth + 1, '[' :: rest =>
    (lexItems (lexValue depth) rest).map (fun (items, rest) => (.list items true, rest))
  | depth + 1, '{' :: rest => lexInline (lexValue depth) rest
  | _, cs => lexSimple cs

end Wordbook.Toml
