import PackageLoader.Number.Binary64

/-!
Decimal text of binary numbers: the fewest digits that read back as the same number, and of those
the nearest to it.
-/
namespace PackageLoader

/-- The number `digits * 10 ^ exponent`. -/
structure Decimal where
  digits : Nat
  exponent : Int
  deriving DecidableEq, Repr

namespace Decimal

/-- Drops zeros at the end of the digits. -/
def stripZeros (digits : Nat) (exponent : Int) : Decimal :=
  if h : digits = 0 ∨ digits % 10 ≠ 0 then ⟨digits, exponent⟩
  else stripZeros (digits / 10) (exponent + 1)
termination_by digits
decreasing_by omega

/-- The power of ten just above a positive quotient: the least `k` with the quotient below
`10 ^ k`. -/
def pointOf (num den : Nat) : Int :=
  if num ≥ den then Binary64.digitCount (num / den)
  else 1 - (Binary64.digitCount ((den - 1) / num) : Int)

/-- A multiple of a power of ten and a multiple of a quarter of a power of two, on one scale. -/
def onOneScale (decimal : Nat) (ten : Int) (quarters : Nat) (two : Int) : Nat × Nat :=
  ((decimal * Nat.pow 10 ten.toNat) <<< (2 - two).toNat,
    (quarters * Nat.pow 10 (-ten).toNat) <<< (two - 2).toNat)

/-- Whether the decimal `digits * 10 ^ ten` reads back as a binary number. -/
def readsBackAs (digits : Nat) (ten : Int) (b : Binary64) : Bool :=
  let m := b.mantissa
  let below := if m = 1 <<< 52 && b.exponent > Binary64.minExponent then 4 * m - 1 else 4 * m - 2
  let (d, low) := onOneScale digits ten below b.exponent
  let (_, high) := onOneScale digits ten (4 * m + 2) b.exponent
  if m % 2 = 0 then low ≤ d && d ≤ high else low < d && d < high

/-- Which of two equally near decimals is taken. -/
inductive Tie where
  | up
  | even
  deriving DecidableEq, Repr

/-- The better of the two neighbours of a binary number among decimals with a given exponent, if
one of them reads back. -/
def onGrid? (tie : Tie) (b : Binary64) (ten : Int) : Option Nat :=
  let (num, den) := b.quotient
  let below := num * Nat.pow 10 (-ten).toNat / (den * Nat.pow 10 ten.toNat)
  match readsBackAs below ten b, readsBackAs (below + 1) ten b with
  | true, true =>
    let (middle, value) := onOneScale (2 * below + 1) ten (2 * (4 * b.mantissa)) b.exponent
    if value < middle || (value = middle && tie = .even && below % 2 = 0) then some below
    else some (below + 1)
  | true, false => some below
  | false, true => some (below + 1)
  | false, false => none

/-- The shortest decimal that reads back as a positive binary number. Seventeen digits always
do. -/
def shortest (tie : Tie) (b : Binary64) : Decimal :=
  let (num, den) := b.quotient
  let point := pointOf num den
  let grids := (List.range 17).map fun (n : Nat) => point - (n + 1)
  match grids.findSome? fun ten => (onGrid? tie b ten).map (·, ten) with
  | some (digits, ten) => stripZeros digits ten
  | none => ⟨0, 0⟩

/-- How decimals are written. Positional notation is used if the point, counted from the first
digit, stands behind the first bound and not behind the second; without bounds it always is. -/
structure Style where
  window? : Option (Int × Int)
  tie : Tie

/-- Writes a number without a sign. In positional notation there is always a point; otherwise the
power of ten has a sign. -/
def write (style : Style) (b : Binary64) : String :=
  if b.mantissa = 0 then "0.0"
  else
    let d := shortest style.tie b
    let digits := toString d.digits
    let point := digits.length + d.exponent
    let zeros (n : Int) : String := String.ofList (List.replicate n.toNat '0')
    let positional := style.window?.all fun (low, high) => low < point && point ≤ high
    let before := String.ofList (digits.toList.take point.toNat)
    let behind := String.ofList (digits.toList.drop point.toNat)
    if positional then
      if d.exponent ≥ 0 then digits ++ zeros d.exponent ++ ".0"
      else if point > 0 then before ++ "." ++ behind
      else "0." ++ zeros (-point) ++ digits
    else
      let first := String.ofList (digits.toList.take 1)
      let others := String.ofList (digits.toList.drop 1)
      let power := point - 1
      first ++ (if others.isEmpty then "" else "." ++ others) ++ "e" ++
        (if power < 0 then "-" else "+") ++ toString power.natAbs

end Decimal

end PackageLoader
