import PackageLoader.Json.Token

/-!
JSON documents, as `serde_json` documents them for `from_slice`: one value and nothing behind it.
Tokens are taken one at a time by a machine with a stack of open arrays and objects; at the first
token that fits nowhere, and at the end of the text, what is open is closed with the fault.
-/
namespace PackageLoader.Json

open Text

/-- What an open array waits for. -/
inductive ArrayStage where
  | first
  | item
  | next
  deriving DecidableEq, Repr

/-- What an open object waits for. -/
inductive ObjectStage where
  | first
  | key
  | colon (key : RawString)
  | value (key : RawString)
  | next
  deriving DecidableEq, Repr

/-- An open array or object with what it holds so far, last first. -/
inductive Frame where
  | array (items : List Tree) (stage : ArrayStage)
  | object (members : List (RawString × Tree)) (stage : ObjectStage)

/-- A document: its value and whether anything follows it. -/
structure Document where
  tree : Tree
  trailing : Bool

/-- How far the reading of a document is: inside some frames, innermost first, or behind the
value. -/
inductive Reading where
  | inside (frames : List Frame)
  | behind (document : Document)

/-- Closes all frames around a value that ends in a fault. -/
def closeAround (fault : Fault) (value : Tree) : List Frame → Tree
  | [] => value
  | .array items _ :: outer =>
    closeAround fault (.array (value :: items).reverse (some fault)) outer
  | .object members (.value key) :: outer =>
    closeAround fault (.object ((key, value) :: members).reverse (some fault)) outer
  | .object members _ :: outer =>
    closeAround fault (.object members.reverse (some fault)) outer

/-- Closes all frames at a fault in the innermost one. Where a value or the colon in front of it is
missing, a broken value stands in its place. -/
def closeAll (fault : Fault) : List Frame → Tree
  | [] => .broken fault
  | .array items .next :: outer => closeAround fault (.array items.reverse (some fault)) outer
  | .array items _ :: outer =>
    closeAround fault (.array (.broken fault :: items).reverse (some fault)) outer
  | .object members (.colon key) :: outer | .object members (.value key) :: outer =>
    closeAround fault (.object ((key, .broken fault) :: members).reverse (some fault)) outer
  | .object members _ :: outer => closeAround fault (.object members.reverse (some fault)) outer

/-- The reading behind a value with a fault. -/
def stopAt (tree : Tree) : Reading :=
  .behind ⟨tree, false⟩

/-- Puts a value into the innermost frame. -/
def place (value : Tree) : List Frame → Reading
  | [] => .behind ⟨value, false⟩
  | .array items _ :: outer => .inside (.array (value :: items) .next :: outer)
  | .object members (.value key) :: outer =>
    .inside (.object ((key, value) :: members) .next :: outer)
  | frames => .inside frames

/-- The fault that a value without parts ends in. -/
def Tree.fault? : Tree → Option Fault
  | .broken fault | .brokenNumber fault => some fault
  | .string s => s.fault?
  | _ => none

/-- Puts a value without parts into the innermost frame. -/
def placeScalar (value : Tree) (frames : List Frame) : Reading :=
  match value.fault? with
  | none => place value frames
  | some fault => stopAt (closeAround fault value frames)

/-- Reads a token where a value is wanted. -/
def startValue (frames : List Frame) : Token → Reading
  | .openArray => .inside (.array [] .first :: frames)
  | .openObject => .inside (.object [] .first :: frames)
  | .string s => placeScalar (.string s) frames
  | .scalar value => placeScalar value frames
  | _ => stopAt (closeAll .malformed frames)

/-- Reads a token with respect to the innermost frame. -/
def step (frames : List Frame) (token : Token) : Reading :=
  match frames, token with
  | .array items .first :: outer, .closeArray | .array items .next :: outer, .closeArray =>
    place (.array items.reverse none) outer
  | .array items .next :: outer, .comma => .inside (.array items .item :: outer)
  | .object members .first :: outer, .closeObject
  | .object members .next :: outer, .closeObject => place (.object members.reverse none) outer
  | .object members .next :: outer, .comma => .inside (.object members .key :: outer)
  | .object members .first :: outer, .string key | .object members .key :: outer, .string key =>
    match key.fault? with
    | none => .inside (.object members (.colon key) :: outer)
    | some fault => stopAt (closeAll fault (.object members (.colon key) :: outer))
  | .object members (.colon key) :: outer, .colon =>
    .inside (.object members (.value key) :: outer)
  | [], token | .array _ .first :: _, token | .array _ .item :: _, token
  | .object _ (.value _) :: _, token => startValue frames token
  | _, _ => stopAt (closeAll .malformed frames)

/-- Reads one more token. -/
def Reading.next : Reading → Token → Reading
  | inside frames, token => step frames token
  | behind document, _ => .behind { document with trailing := true }

/-- The document at the end of the text. -/
def Reading.finish : Reading → Document
  | inside frames => ⟨closeAll .cutShort frames, false⟩
  | behind document => document

/-- Reads a document. -/
def Document.read (text : Bytes) : Document :=
  ((tokens text).foldl Reading.next (.inside [])).finish

end PackageLoader.Json
