import PackageLoader.Json.Document
import PackageLoader.Json.Number
import PackageLoader.Request.Basic
import PackageLoader.Text.Base64
import PackageLoader.Text.Quoted

/-!
Reading requests from JSON. The text is walked once from front to back and the first problem on
the way is the one reported, whether it is a fault of the text or a value of the wrong kind. As
`serde` documents derived readers, a request may also be an array of its fields in order. File
contents are decoded only when the whole overlay has been read.
-/
namespace PackageLoader

open Text Json

/-- Why a request is refused. What was found and what was wanted is given in words. -/
inductive RequestError where
  | text (fault : Fault)
  | wrongType (found wanted : String)
  | wrongValue (found wanted : String)
  | duplicateField (name : String)
  | wrongContents (file : Path)
  deriving DecidableEq, Repr

/-- The wording of a problem. -/
def RequestError.message : RequestError → String
  | text .malformed => "malformed text"
  | text .cutShort => "text cut short"
  | wrongType found wanted => "invalid type: " ++ found ++ ", expected " ++ wanted
  | wrongValue found wanted => "invalid value: " ++ found ++ ", expected " ++ wanted
  | duplicateField name => "duplicate field `" ++ name ++ "`"
  | wrongContents file => "overlay " ++ file.text

namespace Request

/-- The result of a reading of the text. -/
def ofText (read : Except Fault α) : Except RequestError α :=
  read.mapError .text

/-- A value in words. -/
def describe : Tree → Except RequestError String
  | .broken fault | .brokenNumber fault => .error (.text fault)
  | .null => .ok "null"
  | .boolean b => .ok ("boolean `" ++ toString b ++ "`")
  | .number n =>
    match n.value? with
    | some value => .ok value.describe
    | none => .error (.text .malformed)
  | .string s => do return "string " ++ quoted (← ofText s.text)
  | .array _ _ => .ok "sequence"
  | .object _ _ => .ok "map"

/-- Refuses a value of the wrong type. -/
def refuse (tree : Tree) (wanted : String) : Except RequestError α := do
  .error (.wrongType (← describe tree) wanted)

/-- Reads a load mode. -/
def readMode : Tree → Except RequestError LoadMode
  | .number n =>
    match n.value? with
    | some (.natural n) =>
      if n < 1 <<< 32 then .ok ⟨UInt32.ofNat n⟩
      else .error (.wrongValue (NumberValue.natural n).describe "u32")
    | some (.negative n) => .error (.wrongValue (NumberValue.negative n).describe "u32")
    | _ => refuse (.number n) "u32"
  | tree => refuse tree "u32"

/-- Reads a boolean. -/
def readBoolean : Tree → Except RequestError Bool
  | .boolean b => .ok b
  | tree => refuse tree "a boolean"

/-- Reads a string. -/
def readText : Tree → Except RequestError String
  | .string s => ofText s.text
  | tree => refuse tree "a string"

/-- Reads a list of strings. -/
def readTexts : Tree → Except RequestError (List String)
  | .array items fault? => do
    let texts ← items.mapM readText
    ofText (Tree.checkEnd fault?)
    return texts
  | tree => refuse tree "a sequence"

/-- Reads the contents of an overlaid file. -/
def decodeContents (entry : Path × String) : Except RequestError (Path × Bytes) :=
  match Base64.decode? entry.2.toList with
  | some bytes => .ok (entry.1, bytes)
  | none => .error (.wrongContents entry.1)

/-- `overlay_serde::deserialize`: reads an overlay. Of several contents for one path the last ones
count. -/
def readOverlay : Tree → Except RequestError Overlay
  | .null => .ok .empty
  | .object members fault? => do
    let entries ← members.mapM fun (key, value) => do
      return (Path.mk (← ofText key.text), ← readText value)
    ofText (Tree.checkEnd fault?)
    return .ofList (← (Table.ofList entries).entries.mapM decodeContents)
  | tree => refuse tree "a map"

/-- The fields read so far. -/
structure Fields where
  mode? : Option LoadMode := none
  env? : Option (List String) := none
  buildFlags? : Option (List String) := none
  tests? : Option Bool := none
  overlay? : Option Overlay := none

namespace Fields

/-- The names of the fields, in order. -/
def names : List String :=
  ["Mode", "Env", "BuildFlags", "Tests", "Overlay"]

/-- Refuses a field that has been read before. -/
def once (name : String) (before : Option α) (read : Except RequestError α) :
    Except RequestError α :=
  if before.isSome then .error (.duplicateField name) else read

/-- Reads the value of the field with a name. Fields with other names are passed over. -/
def readField (f : Fields) (name : String) (value : Tree) : Except RequestError Fields := do
  if name = "Mode" then return { f with mode? := ← once name f.mode? (readMode value) }
  else if name = "Env" then return { f with env? := ← once name f.env? (readTexts value) }
  else if name = "BuildFlags" then
    return { f with buildFlags? := ← once name f.buildFlags? (readTexts value) }
  else if name = "Tests" then return { f with tests? := ← once name f.tests? (readBoolean value) }
  else if name = "Overlay" then
    return { f with overlay? := ← once name f.overlay? (readOverlay value) }
  else
    ofText value.check
    return f

/-- Reads a member of an object. -/
def readMember (f : Fields) (member : RawString × Tree) : Except RequestError Fields := do
  f.readField (← ofText member.1.text) member.2

/-- The request with the given fields; a field that is absent has its default. -/
def request (f : Fields) : Request :=
  let blank : Request := {}
  { mode := f.mode?.getD blank.mode
    env := f.env?.getD blank.env
    buildFlags := f.buildFlags?.getD blank.buildFlags
    tests := f.tests?.getD blank.tests
    overlay := f.overlay?.getD blank.overlay }

/-- Reads the fields of an object or array. An array has no items behind the last field. -/
def read : Tree → Except RequestError Fields
  | .object members fault? => do
    let f ← members.foldlM readMember {}
    ofText (Tree.checkEnd fault?)
    return f
  | .array items fault? => do
    let f ← (names.zip items).foldlM (fun f (name, value) => f.readField name value) {}
    if items.length > names.length then throw (.text .malformed)
    ofText (Tree.checkEnd fault?)
    return f
  | tree => refuse tree "struct DriverRequest"

end Fields

/-- `DriverRequest::from_json`: reads a request. -/
def read (bytes : Bytes) : Except RequestError Request := do
  let document := Document.read bytes
  let f ← Fields.read document.tree
  if document.trailing then throw (.text .malformed)
  return f.request

end Request

end PackageLoader
