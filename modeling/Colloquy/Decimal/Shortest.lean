/-! The fewest decimal digits that read back as a given double. A finite double
is an integer times a power of two, and it is the nearest double to every real
of an interval around it. Grids of decimal points are tried from coarse to
fine; the first with a point in the interval gives the digits. -/
namespace Colloquy.Decimal

/-- A positive double as `mantissa * 2 ^ exponent`. The gap to the double below
is half the gap above when the mantissa is the least of its binade. -/
structure Dyadic where
  mantissa : Nat
  exponent : Int
  narrowBelow : Bool

def binadeSize : Nat := 4503599627370496

def Dyadic.ofBits (bits : UInt64) : Dyadic :=
  let fraction : Nat := bits.toNat % binadeSize
  let field : Nat := bits.toNat / binadeSize % 2048
  if field = 0 then ⟨fraction, -1074, false⟩
  else ⟨fraction + binadeSize, (field : Int) - 1075, fraction = 0 && field > 1⟩

structure Point where
  coefficient : Nat
  exponent : Int
  deriving DecidableEq, Repr

/-- The factors that bring a point of the grid `10 ^ gridExponent` and a quarter
unit `2 ^ (exponent - 2)` to one scale. -/
def Dyadic.factors (d : Dyadic) (gridExponent : Int) : Nat × Nat :=
  let binary := d.exponent - 2
  (Nat.pow 10 gridExponent.toNat * Nat.pow 2 (-binary).toNat,
    Nat.pow 2 binary.toNat * Nat.pow 10 (-gridExponent).toNat)

/-- Whether a decimal point is nearest to this double, in exact arithmetic. The
ends of the interval belong to it when the mantissa is even. -/
def Dyadic.isNearest (d : Dyadic) (gridExponent : Int) (coefficient : Nat) : Bool :=
  let (grid, unit) := d.factors gridExponent
  let low := (4 * d.mantissa - if d.narrowBelow then 1 else 2) * unit
  let high := (4 * d.mantissa + 2) * unit
  let point := coefficient * grid
  if d.mantissa % 2 = 0 then low ≤ point && point ≤ high else low < point && point < high

/-- The point of one grid that reads back, the nearer of two, the even one of
two that are equally near. -/
def Dyadic.pointOn? (d : Dyadic) (gridExponent : Int) : Option Point :=
  let (grid, unit) := d.factors gridExponent
  let exact := 4 * d.mantissa * unit
  let below := exact / grid
  let above := below + 1
  let lowFits := below > 0 && d.isNearest gridExponent below
  let highFits := d.isNearest gridExponent above
  let downward := exact - below * grid
  let upward := above * grid - exact
  if lowFits && (!highFits || downward < upward || (downward = upward && below % 2 = 0)) then
    some ⟨below, gridExponent⟩
  else if highFits then some ⟨above, gridExponent⟩
  else none

def Dyadic.ceiling (d : Dyadic) : Int :=
  ((d.mantissa.log2 + 1 : Nat) + d.exponent) * 30103 / 100000 + 2

/-- The shortest point. Seventeen digits always suffice, so some grid of the
search has one. -/
def Dyadic.shortest (d : Dyadic) : Point :=
  ((List.range 24).findSome? fun (step : Nat) => d.pointOn? (d.ceiling - step)).getD ⟨0, 0⟩

end Colloquy.Decimal
