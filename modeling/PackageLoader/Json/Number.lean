import PackageLoader.Json.Basic
import PackageLoader.Number.Decimal

/-!
The values of JSON numbers, as `serde_json` computes them without its exact mode. Integers are
exact within 64 bits. All other numbers are approximated: the digits that fit 64 bits are rounded
once and then scaled by a power of ten, which rounds again; a number that gets too large has no
value.
-/
namespace PackageLoader.Json

/-- The value of a number. A negative integer is given by its size. -/
inductive NumberValue where
  | natural (n : Nat)
  | negative (size : Nat)
  | float (negative : Bool) (size : Binary64)
  deriving DecidableEq, Repr

/-- Appends digits to a number as long as it fits 64 bits, and gives the digits left over. -/
def absorb (n : Nat) : List Nat → Nat × List Nat
  | [] => (n, [])
  | d :: rest => if n * 10 + d < 1 <<< 64 then absorb (n * 10 + d) rest else (n, d :: rest)

/-- The greatest power of ten within the format. -/
def maxPower : Nat := 308

/-- The nearest number to a power of ten. -/
def powerOfTen? (power : Nat) : Option Binary64 :=
  Binary64.ofDecimal? 1 power

/-- A number times a power of ten, unless it gets too large. -/
def scaleUp? (b : Binary64) (power : Nat) : Option Binary64 :=
  if power ≤ maxPower then (powerOfTen? power).bind b.mul?
  else if b.mantissa = 0 then some b
  else none

/-- A number divided by the greatest power of ten. -/
def stepDown? (b : Binary64) : Option Binary64 :=
  (powerOfTen? maxPower).bind b.div?

/-- A number divided by a power of ten, which is done in steps if the power is too large. -/
def scaleDown? (b : Binary64) (power : Nat) : Option Binary64 :=
  if power ≤ maxPower then (powerOfTen? power).bind b.div?
  else if b.mantissa = 0 then some b
  else (stepDown? b).bind fun smaller => scaleDown? smaller (power - maxPower)
termination_by power
decreasing_by
  have : 0 < maxPower := by decide
  omega

/-- A number scaled by a power of ten. -/
def scale? (b : Binary64) (power : Int) : Option Binary64 :=
  if power < 0 then scaleDown? b power.natAbs else scaleUp? b power.natAbs

/-- The value of a number, if it is not too large. Minus zero is not an integer. -/
def Number.value? (n : Number) : Option NumberValue :=
  let (whole, dropped) := absorb 0 n.whole
  let fraction := n.fraction?.getD []
  let (digits, ignored) := absorb whole fraction
  let power : Int := dropped.length - (fraction.length - ignored.length : Nat) + n.exponent?.getD 0
  if n.fraction?.isNone && n.exponent?.isNone && dropped.isEmpty then
    if !n.negative then some (.natural whole)
    else if whole ≠ 0 && whole ≤ 1 <<< 63 then some (.negative whole)
    else (Binary64.nearest? whole 1).map fun size => .float true size
  else ((Binary64.nearest? digits 1).bind (scale? · power)).map fun size => .float n.negative size

/-- How floating point numbers are written in messages: positional if the first digit stands at
most five places behind the point and the point at most sixteen behind it; a tie goes to the even
digit. -/
def floatStyle : Decimal.Style := ⟨some (-5, 16), .even⟩

/-- A number in words. -/
def NumberValue.describe : NumberValue → String
  | natural n => "integer `" ++ toString n ++ "`"
  | negative n => "integer `-" ++ toString n ++ "`"
  | float minus size =>
    "floating point `" ++ (if minus then "-" else "") ++ Decimal.write floatStyle size ++ "`"

end PackageLoader.Json
