/-! Reading a decimal as a double by one product or quotient. The significand is
what fits a 64-bit word; it is converted, then multiplied or divided by a power
of ten. The result is not always the nearest double, but it is fixed by this
rule. -/
namespace Colloquy.Decimal

def powerOfTen (exponent : Nat) : Float :=
  Float.ofScientific 1 false exponent

/-- `significand * 10 ^ exponent`, or nothing where a double cannot hold it. -/
def scaled? (significand : UInt64) (exponent : Int) : Option Float :=
  let start := significand.toFloat
  if 308 < exponent then (if start == 0 then some start else none)
  else if 0 ≤ exponent then
    let product := start * powerOfTen exponent.toNat
    if product.isInf then none else some product
  else if -308 ≤ exponent then some (start / powerOfTen (-exponent).toNat)
  else if -616 ≤ exponent then
    some (start / powerOfTen 308 / powerOfTen (-exponent - 308).toNat)
  else some 0

/-- Digits gathered onto a significand while a 64-bit word holds it: the
significand and the number of digits that it took. -/
def gather (significand : UInt64) : List Nat → UInt64 × Nat
  | [] => (significand, 0)
  | digit :: rest =>
    let next := significand.toNat * 10 + digit
    if next < UInt64.size then
      let (gathered, taken) := gather (UInt64.ofNat next) rest
      (gathered, taken + 1)
    else (significand, 0)

/-- A decimal from the digits before and after its point and its exponent. A
digit before the point that finds no room raises the exponent, and a digit after
the point that finds none is dropped with all that follow. -/
def ofDigits? (whole fraction : List Nat) (exponent : Int) : Option Float :=
  let (high, taken) := gather 0 whole
  let (significand, places) := gather high fraction
  scaled? significand (exponent + (whole.length - taken : Nat) - places)

end Colloquy.Decimal
