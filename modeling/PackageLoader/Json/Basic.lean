import PackageLoader.Text.Utf8

/-!
JSON values, and JSON texts as far as they can be read, as `serde_json` reads them from bytes. A
reading is a tree that may end in a fault: behind a fault nothing is read, so a text has at most
one, and who walks the tree in order meets everything that stands before it. Strings and numbers
are kept as they are written, because what is wrong with them depends on whether somebody wants to
know their value.
-/
namespace PackageLoader.Json

open Text

/-- A value. -/
inductive Value where
  | null
  | boolean (b : Bool)
  | natural (n : Nat)
  | string (s : String)
  | array (items : List Value)
  | object (members : List (String × Value))

/-- What is wrong with a text: something stands where it may not, or the text ends too early. -/
inductive Fault where
  | malformed
  | cutShort
  deriving DecidableEq, Repr

/-- What is wrong at a place where the given bytes follow. -/
def faultAt (rest : Bytes) : Fault :=
  if rest.isEmpty then .cutShort else .malformed

/-- A piece of a string: a byte, or the code unit that an escape by number spells. -/
inductive Piece where
  | byte (b : UInt8)
  | unit (n : Nat)
  deriving DecidableEq, Repr

/-- A string as it is written, up to its end or to a fault. -/
structure RawString where
  pieces : List Piece
  fault? : Option Fault
  deriving DecidableEq, Repr

/-- A number as it is written. -/
structure Number where
  negative : Bool
  whole : List Nat
  fraction? : Option (List Nat)
  exponent? : Option Int
  deriving DecidableEq, Repr

/-- What was read of a value. -/
inductive Tree where
  | broken (fault : Fault)
  | null
  | boolean (b : Bool)
  | number (n : Number)
  | brokenNumber (fault : Fault)
  | string (s : RawString)
  | array (items : List Tree) (fault? : Option Fault)
  | object (members : List (RawString × Tree)) (fault? : Option Fault)

/-! ## Strings -/

namespace RawString

/-- Whether a code unit is the first one of a pair. -/
def isLeading (n : Nat) : Bool :=
  0xD800 ≤ n && n ≤ 0xDBFF

/-- Whether a code unit is the second one of a pair. -/
def isTrailing (n : Nat) : Bool :=
  0xDC00 ≤ n && n ≤ 0xDFFF

/-- The bytes that pieces spell. Two code units that are not characters by themselves are one
character if they make a pair, and a fault otherwise; a first one at the end may have been cut
short of its second one. -/
def bytesOf (fault? : Option Fault) : List Piece → Except Fault Bytes
  | [] => match fault? with
    | none => .ok []
    | some fault => .error fault
  | .byte b :: rest => (bytesOf fault? rest).map (b :: ·)
  | .unit n :: rest =>
    if isTrailing n then .error .malformed
    else if isLeading n then
      match rest with
      | .unit m :: rest =>
        if isTrailing m then
          let c := Char.ofNat (0x10000 + (n - 0xD800) * 0x400 + (m - 0xDC00))
          (bytesOf fault? rest).map (String.utf8EncodeChar c ++ ·)
        else .error .malformed
      | .byte _ :: _ => .error .malformed
      | [] => .error (fault?.getD .malformed)
    else (bytesOf fault? rest).map (String.utf8EncodeChar (Char.ofNat n) ++ ·)

/-- The text of a string. Ill-formed bytes are noticed at its end. -/
def text (s : RawString) : Except Fault String := do
  match decodeUtf8? (← bytesOf s.fault? s.pieces) with
  | some text => .ok text
  | none => .error .malformed

/-- Checks a string whose text nobody wants. -/
def check (s : RawString) : Except Fault Unit :=
  match s.fault? with
  | none => .ok ()
  | some fault => .error fault

end RawString

/-! ## Passing over values -/

namespace Tree

mutual

/-- Checks a value that nobody wants. A broken number is then malformed even if it is cut short. -/
def check : Tree → Except Fault Unit
  | broken fault => .error fault
  | brokenNumber _ => .error .malformed
  | string s => s.check
  | array items fault? => do
    checkItems items
    checkEnd fault?
  | object members fault? => do
    checkMembers members
    checkEnd fault?
  | _ => .ok ()

/-- Checks the end of an array or object. -/
def checkEnd : Option Fault → Except Fault Unit
  | none => .ok ()
  | some fault => .error fault

/-- Checks the items of an array. -/
def checkItems : List Tree → Except Fault Unit
  | [] => .ok ()
  | item :: rest => do
    check item
    checkItems rest

/-- Checks the members of an object. -/
def checkMembers : List (RawString × Tree) → Except Fault Unit
  | [] => .ok ()
  | member :: rest => do
    checkMember member
    checkMembers rest

/-- Checks a member of an object. -/
def checkMember : RawString × Tree → Except Fault Unit
  | (key, value) => do
    key.check
    check value

end

end Tree

end PackageLoader.Json
