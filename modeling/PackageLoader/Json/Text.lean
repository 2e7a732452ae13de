import PackageLoader.Json.Basic
import PackageLoader.Text.Quoted

/-!
The text of JSON values, as `to_vec` of `serde_json` writes it, without any blanks. In strings,
quotes, backslashes and controls are escaped, controls by a letter if they have one; every other
character stands for itself.
-/
namespace PackageLoader.Json

open Text

/-- An escape by number. -/
def unitEscape (n : Nat) : List Char :=
  let digits := hexDigits n
  ['\\', 'u'] ++ List.replicate (4 - digits.length) '0' ++ digits

/-- A character inside a string. -/
def escaped (c : Char) : List Char :=
  if c = '"' then ['\\', '"']
  else if c = '\\' then ['\\', '\\']
  else if c = '\x08' then ['\\', 'b']
  else if c = '\x0c' then ['\\', 'f']
  else if c = '\n' then ['\\', 'n']
  else if c = '\r' then ['\\', 'r']
  else if c = '\t' then ['\\', 't']
  else if c.toNat < 0x20 then unitEscape c.toNat
  else [c]

/-- A string with its quotes. -/
def stringText (s : String) : List Char :=
  '"' :: s.toList.flatMap escaped ++ ['"']

/-- Texts with commas between them. -/
def withCommas (texts : List (List Char)) : List Char :=
  (texts.intersperse [',']).flatten

namespace Value

mutual

/-- The characters of a value. -/
def chars : Value → List Char
  | null => "null".toList
  | boolean b => (if b then "true" else "false").toList
  | natural n => Nat.toDigits 10 n
  | string s => stringText s
  | array items => '[' :: withCommas (itemChars items) ++ [']']
  | object members => '\x7b' :: withCommas (memberChars members) ++ ['\x7d']

/-- The characters of the items of an array. -/
def itemChars : List Value → List (List Char)
  | [] => []
  | item :: rest => chars item :: itemChars rest

/-- The characters of the members of an object. -/
def memberChars : List (String × Value) → List (List Char)
  | [] => []
  | member :: rest => charsOfMember member :: memberChars rest

/-- The characters of a member: its key, a colon and its value. -/
def charsOfMember : String × Value → List Char
  | (key, value) => stringText key ++ ':' :: chars value

end

/-- The text of a value. -/
def text (v : Value) : String :=
  String.ofList v.chars

end Value

end PackageLoader.Json
