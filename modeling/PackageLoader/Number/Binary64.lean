/-!
Finite numbers in the binary64 format, without their sign: a mantissa below 2^53 times a power of
two. Rounding takes an exact quotient to the nearest of them, and a tie to the even mantissa.
-/
namespace PackageLoader

/-- The number `mantissa * 2 ^ exponent`. -/
structure Binary64 where
  mantissa : Nat
  exponent : Int
  deriving DecidableEq, Repr

namespace Binary64

/-- The least exponent; numbers below the normal range have it. -/
def minExponent : Int := -1074

/-- The greatest exponent. -/
def maxExponent : Int := 971

/-- Zero. -/
def zero : Binary64 := ⟨0, minExponent⟩

/-- A quotient divided by a power of two, as a quotient. -/
def shiftDown (num den : Nat) (exponent : Int) : Nat × Nat :=
  (num <<< (-exponent).toNat, den <<< exponent.toNat)

/-- The nearest number to a quotient; none if it is too large for the format. -/
def nearest? (num den : Nat) : Option Binary64 :=
  if num = 0 then some zero
  else
    let guess := max ((num.log2 : Int) - den.log2 - 52) minExponent
    let (n, d) := shiftDown num den guess
    let exponent := if n / d < 1 <<< 52 && guess > minExponent then guess - 1 else guess
    let (n, d) := shiftDown num den exponent
    let q := n / d
    let r := n % d
    let q := if 2 * r > d || (2 * r = d && q % 2 = 1) then q + 1 else q
    let rounded : Binary64 := if q = 1 <<< 53 then ⟨1 <<< 52, exponent + 1⟩ else ⟨q, exponent⟩
    if rounded.exponent > maxExponent then none else some rounded

/-- A number as an exact quotient. -/
def quotient (b : Binary64) : Nat × Nat :=
  (b.mantissa <<< b.exponent.toNat, 1 <<< (-b.exponent).toNat)

/-- How many decimal digits a positive natural number has. -/
def digitCount (n : Nat) : Nat :=
  (Nat.toDigits 10 n).length

/-- The nearest number to `digits * 10 ^ exponent`. Exponents far outside the range are settled
without computing the power. -/
def ofDecimal? (digits : Nat) (exponent : Int) : Option Binary64 :=
  let size := digitCount digits + exponent
  if digits = 0 || size < -400 then some zero
  else if size > 400 then none
  else nearest? (digits * Nat.pow 10 exponent.toNat) (Nat.pow 10 (-exponent).toNat)

/-- The product of two numbers, rounded. -/
def mul? (a b : Binary64) : Option Binary64 :=
  let (an, ad) := a.quotient
  let (bn, bd) := b.quotient
  nearest? (an * bn) (ad * bd)

/-- The quotient of two numbers, rounded; the second one is not zero. -/
def div? (a b : Binary64) : Option Binary64 :=
  let (an, ad) := a.quotient
  let (bn, bd) := b.quotient
  nearest? (an * bd) (ad * bn)

end Binary64

end PackageLoader
