import Wordbook.Json.Token

/-!
# Reading JSON

The tree of a JSON text.

## Main Definitions

* `Frame` — a container that is open
* `State` — how far a text has been read
* `State.step` — reads one more token
* `read` — the tree of a text, and whether the text is nothing more

## Design Notes

The tokens are read from left to right with the open containers on a stack, so a text may be nested
to any depth.  A token that cannot stand where it stands ends the reading: the tree then holds what
came before, and is marked as cut off there.
-/

namespace Wordbook.Json

/-- A container that is open, with its parts so far, the last one first. -/
inductive Frame where
  /-- A list. -/
  | list (items : List Tree)
  /-- A table, between two members. -/
  | table (members : List (Option String × Tree))
  /-- A table whose last member has a name and no value yet. -/
  | member (members : List (Option String × Tree)) (key : Option String)
deriving Repr

/-- What may come next. -/
inductive Expect where
  /-- A value. -/
  | value
  /-- The first item of a list, or its end. -/
  | firstItem
  /-- The name of a member. -/
  | key
  /-- The name of the first member of a table, or the end of the table. -/
  | firstKey
  /-- The colon behind a name. -/
  | colon
  /-- A comma, or the end of the innermost container. -/
  | comma
deriving DecidableEq, Repr

/-- How far a text has been read. -/
inductive State where
  /-- Inside of the text. -/
  | reading (expect : Expect) (frames : List Frame)
  /-- The tree is complete, or will not be; `clean` if nothing else was found. -/
  | ended (tree : Tree) (clean : Bool)
deriving Repr

/-- Puts a part that was cut off into the containers around it. -/
def enclose : List Frame → Tree → Tree
  | [], t => t
  | .list items :: frames, t => enclose frames (.list (t :: items).reverse false)
  | .table members :: frames, _ => enclose frames (.table members.reverse false)
  | .member members key :: frames, t => enclose frames (.table ((key, t) :: members).reverse false)

/-- The tree of a text that goes wrong inside of the given containers. -/
def cutOff : List Frame → Tree
  | .list items :: frames => enclose frames (.list items.reverse false)
  | frames => enclose frames .broken

namespace State

/-- The text goes wrong here. -/
def fail (frames : List Frame) : State := .ended (cutOff frames) false

/-- Puts a complete value where one is expected. -/
def deliver (frames : List Frame) (t : Tree) : State :=
  match frames with
  | [] => .ended t true
  | .list items :: frames => .reading .comma (.list (t :: items) :: frames)
  | .member members key :: frames => .reading .comma (.table ((key, t) :: members) :: frames)
  | .table _ :: _ => fail frames

/-- Reads a token where a value is expected. -/
def value (frames : List Frame) : Token → State
  | .openList => .reading .firstItem (.list [] :: frames)
  | .openTable => .reading .firstKey (.table [] :: frames)
  | .scalar t => deliver frames t
  | .text none => deliver frames .unreadable
  | .text (some s) => deliver frames (.text s)
  | _ => fail frames

/-- Reads a token where the name of a member is expected. -/
def key (frames : List Frame) : Token → State
  | .text name =>
    match frames with
    | .table members :: frames => .reading .colon (.member members name :: frames)
    | _ => fail frames
  | _ => fail frames

/-- Reads a token behind a complete part of the innermost container. -/
def comma (frames : List Frame) : Token → State
  | .comma =>
    match frames with
    | .list _ :: _ => .reading .value frames
    | .table _ :: _ => .reading .key frames
    | _ => fail frames
  | .closeList =>
    match frames with
    | .list items :: frames => deliver frames (.list items.reverse true)
    | _ => fail frames
  | .closeTable =>
    match frames with
    | .table members :: frames => deliver frames (.table members.reverse true)
    | _ => fail frames
  | _ => fail frames

/-- Reads one more token. -/
def step : State → Token → State
  | .ended t _, _ => .ended t false
  | .reading .value frames, token => value frames token
  | .reading .firstItem frames, .closeList => comma frames .closeList
  | .reading .firstItem frames, token => value frames token
  | .reading .key frames, token => key frames token
  | .reading .firstKey frames, .closeTable => comma frames .closeTable
  | .reading .firstKey frames, token => key frames token
  | .reading .colon frames, .colon => .reading .value frames
  | .reading .colon frames, _ => fail frames
  | .reading .comma frames, token => comma frames token

/-- The tree that was read when the text ends, and whether the text is that tree and nothing
more. -/
def finish : State → Tree × Bool
  | .ended t clean => (t, clean)
  | .reading _ frames => (cutOff frames, false)

end State

/-- The tree of a text, and whether nothing else stands in the text. -/
def read (text : String) : Tree × Bool :=
  ((tokens text.toList).foldl State.step (.reading .value [])).finish

end Wordbook.Json
