import PackageLoader.Descriptor.Basic
import PackageLoader.Number.Decimal
import PackageLoader.Toml.Document

/-!
Descriptors written as TOML documents, such as `module = "gno.land/p/demo/avl"`. The fields are
checked by ascending key. A value of another type is refused in the words of `serde`, and unknown
fields are passed over as long as every number in them fits some number type.
-/
namespace PackageLoader

open Text

/-- An integer in words. Beyond 64 bits the width is named; beyond 128 bits there are no words. -/
def integerText? (n : Int) : Option String :=
  let text := "integer `" ++ toString n ++ "`"
  if -(1 <<< 63 : Nat) ≤ n ∧ n < (1 <<< 64 : Nat) then some text
  else if -(1 <<< 127 : Nat) ≤ n ∧ n < (1 <<< 127 : Nat) then some (text ++ " as i128")
  else if 0 ≤ n ∧ n < (1 <<< 128 : Nat) then some (text ++ " as u128")
  else none

/-- How floating point numbers are written in messages: always positional, a tie goes up. -/
def messageStyle : Decimal.Style := ⟨none, .up⟩

/-- A floating point number in words, unless it is too large. -/
def floatText? (x : Toml.Float) : Option String :=
  let sign (negative : Bool) : String := if negative then "-" else ""
  let text? := match x with
    | .nan => some "NaN"
    | .infinity negative => some (sign negative ++ "inf")
    | .number negative digits exponent =>
      (Binary64.ofDecimal? digits exponent).map fun b =>
        sign negative ++ Decimal.write messageStyle b
  text?.map fun text => "floating point `" ++ text ++ "`"

/-- A value in words, unless it is written as a number and is none or fits no type. -/
def valueText? : Toml.Value → Option String
  | .string text _ => some ("string " ++ quoted text)
  | .integer n? _ => n?.bind integerText?
  | .float x _ => floatText? x
  | .boolean b _ => some ("boolean `" ++ toString b ++ "`")
  | .dateTime _ | .table _ _ _ => some "map"
  | .array _ _ _ => some "sequence"

/-- The fault of a value that is not of the type wanted. -/
def mismatch (value : Toml.Value) (wanted : String) : DescriptorError :=
  .fault value.line <| match valueText? value with
    | some found => .wrongType found wanted
    | none => .malformedText

mutual

/-- Checks that every number in a value fits some type. -/
def checkNumbers : Toml.Value → Except DescriptorError Unit
  | .array items _ _ => checkNumbersIn items
  | .table entries _ _ => checkNumbersOf entries
  | value => if (valueText? value).isSome then .ok () else .error (.fault value.line .malformedText)

/-- Checks the numbers in the items of an array. -/
def checkNumbersIn : List Toml.Value → Except DescriptorError Unit
  | [] => .ok ()
  | item :: rest => do
    checkNumbers item
    checkNumbersIn rest

/-- Checks the numbers in the entries of a table. -/
def checkNumbersOf : List (String × Toml.Value) → Except DescriptorError Unit
  | [] => .ok ()
  | e :: rest => do
    checkNumbersOfEntry e
    checkNumbersOf rest

/-- Checks the numbers in an entry of a table. -/
def checkNumbersOfEntry : String × Toml.Value → Except DescriptorError Unit
  | (_, value) => checkNumbers value

end

/-- The text of a string. -/
def readString : Toml.Value → Except DescriptorError String
  | .string text _ => .ok text
  | value => .error (mismatch value "a string")

/-- The truth value of a boolean. -/
def readBoolean : Toml.Value → Except DescriptorError Bool
  | .boolean b _ => .ok b
  | value => .error (mismatch value "a boolean")

/-- A replacement of which some sides are known. -/
structure ReplacementReading where
  old? : Option String := none
  new? : Option String := none

/-- Reads one field of a replacement. -/
def ReplacementReading.readField (r : ReplacementReading) (field : String × Toml.Value) :
    Except DescriptorError ReplacementReading := do
  if field.1 = "old" then return { r with old? := some (← readString field.2) }
  else if field.1 = "new" then return { r with new? := some (← readString field.2) }
  else
    checkNumbers field.2
    return r

/-- Reads a replacement: a table with both sides, or an array that starts with them. -/
def readReplacementValue (value : Toml.Value) : Except DescriptorError Replacement :=
  let missing (name : String) : Except DescriptorError Replacement :=
    .error (.fault value.line (.missingField name))
  match value with
  | .table entries _ _ => do
    let r ← entries.foldlM ReplacementReading.readField {}
    match r.old?, r.new? with
    | none, _ => missing "old"
    | some _, none => missing "new"
    | some old, some new => .ok ⟨old, new⟩
  | .dateTime _ => missing "old"
  | .array (old :: new :: _) _ _ => do return ⟨← readString old, ← readString new⟩
  | .array [old] _ line => do
    let _ ← readString old
    .error (.fault line (.wrongLength 1))
  | .array [] _ line => .error (.fault line (.wrongLength 0))
  | value => .error (mismatch value "struct Replace")

/-- Reads the list of replacements. -/
def readReplacements : Toml.Value → Except DescriptorError (List Replacement)
  | .array items _ _ => items.mapM readReplacementValue
  | value => .error (mismatch value "a sequence")

/-- `TomlModFile`: what the fields so far have said. -/
structure FieldReading where
  module? : Option String := none
  version? : Option String := none
  draft : Bool := false
  restricted : Bool := false
  replaces : List Replacement := []

/-- Reads one field of a descriptor. -/
def FieldReading.readField (r : FieldReading) (field : String × Toml.Value) :
    Except DescriptorError FieldReading := do
  if field.1 = "module" then return { r with module? := some (← readString field.2) }
  else if field.1 = "gno" then return { r with version? := some (← readString field.2) }
  else if field.1 = "draft" then return { r with draft := ← readBoolean field.2 }
  else if field.1 = "private" then return { r with restricted := ← readBoolean field.2 }
  else if field.1 = "replace" then return { r with replaces := ← readReplacements field.2 }
  else
    checkNumbers field.2
    return r

/-- `ModFile::parse_toml`: reads a descriptor of fields. An invalid module path is reported on the
first line. -/
def readFields (text : String) : Except DescriptorError Descriptor := do
  let entries ← (Toml.readDocument text).mapError (.fault · .malformedText)
  let r ← entries.foldlM FieldReading.readField {}
  match r.module? with
  | none => .error .missingModule
  | some path =>
    if isModulePath path.toList then
      return { module := path, version? := r.version?, draft := r.draft,
               restricted := r.restricted, replaces := r.replaces }
    else .error (.fault 1 (.invalidPathValue path))

end PackageLoader
