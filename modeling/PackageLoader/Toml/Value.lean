import PackageLoader.Toml.Scalar

/-!
TOML values, each with the line that it starts on, as the `toml` library hands them to the reader
of the fields. A table also knows how it came to be, which decides whether it may be extended
later in the text.
-/
namespace PackageLoader.Toml

/-- How a table came to be: by a header of its own, as a step on the way to another header, as a
step of a dotted key, or in braces. -/
inductive TableKind where
  | header
  | implicit
  | dotted
  | inline
  deriving DecidableEq, Repr

/-- A value. The digits of an integer are not looked at closely, so some spell no number. -/
inductive Value where
  | string (text : String) (line : Nat)
  | integer (n? : Option Int) (line : Nat)
  | float (x : Float) (line : Nat)
  | boolean (b : Bool) (line : Nat)
  | dateTime (line : Nat)
  | array (items : List Value) (ofTables : Bool) (line : Nat)
  | table (entries : List (String × Value)) (kind : TableKind) (line : Nat)

/-- The entries of a table by ascending key. -/
abbrev Entries := List (String × Value)

namespace Value

/-- The line that a value starts on. -/
def line : Value → Nat
  | string _ line | integer _ line | float _ line | boolean _ line | dateTime line
  | array _ _ line | table _ _ line => line

end Value

/-- Reads an integer with a mark for its base, given without the mark. -/
def readMarked (base : Nat) (digits : List Char) (line : Nat) : Except Malformed Value :=
  if digits.all fun c => isDigitIn base c || c = '_' then
    match withoutUnderscores? (isDigitIn 16) digits with
    | some plain => .ok (.integer (integerIn? base plain) line)
    | none => .error line
  else .error line

/-- Reads a number, date or time by what stands behind its first digits. The text is also given
without its sign. Behind an underscore an integer may hold anything, but spells no number then. -/
def readUnmarked (text unsigned : List Char) (line : Nat) : Except Malformed Value :=
  let behind := unsigned.dropWhile Char.isDigit
  if behind.head? = some '-' || behind.head? = some ':' then
    if isDateTime text then .ok (.dateTime line) else .error line
  else if behind.contains ' ' then .error line
  else if behind.any fun c => c = '.' || c = 'e' || c = 'E' then
    match withoutUnderscores? Char.isDigit text, readFloat? (takeSign text).1 unsigned with
    | some _, some x => .ok (.float x line)
    | _, _ => .error line
  else if !behind.isEmpty && behind.head? ≠ some '_' then .error line
  else if unsigned.head? = some '0' && unsigned.length > 1 then .error line
  else match withoutUnderscores? (isDigitIn 16) text with
    | some plain => .ok (.integer (integerIn? 10 plain) line)
    | none => .error line

/-- Reads a bare scalar by its first character. Numbers in other bases than ten have no sign. -/
def readBare (text : List Char) (line : Nat) : Except Malformed Value :=
  let (negative, unsigned) := takeSign text
  let isSigned := unsigned.length < text.length
  match unsigned with
  | '0' :: 'x' :: digits => if isSigned then .error line else readMarked 16 digits line
  | '0' :: 'o' :: digits => if isSigned then .error line else readMarked 8 digits line
  | '0' :: 'b' :: digits => if isSigned then .error line else readMarked 2 digits line
  | c :: _ =>
    if c.isDigit || c = '_' then readUnmarked text unsigned line
    else if unsigned = "inf".toList then .ok (.float (.infinity negative) line)
    else if unsigned = "nan".toList then .ok (.float .nan line)
    else if text = "true".toList then .ok (.boolean true line)
    else if text = "false".toList then .ok (.boolean false line)
    else .error line
  | [] => .error line

/-- Reads a scalar. -/
def readScalar (raw : Raw) : Except Malformed Value :=
  match raw.quote? with
  | some quote => (readQuoted quote raw).map fun cs => .string (String.ofList cs) raw.line
  | none => readBare raw.text raw.line

end PackageLoader.Toml
