import Colloquy.Decimal.Digits
import Colloquy.Decimal.Shortest

/-! How a finite double is laid out: positional with at least one digit after
the point while the exponent of the first digit is small, and otherwise one
digit, the others after a point, and a signed exponent. -/
namespace Colloquy.Decimal

structure Layout where
  least : Int
  greatest : Int

def Layout.document : Layout := ⟨-5, 15⟩

def Layout.positional (figures : List Char) (exponent : Int) : List Char :=
  if exponent < 0 then
    '0' :: '.' :: (List.replicate (-exponent - 1).toNat '0' ++ figures)
  else
    let whole := exponent.toNat + 1
    if figures.length ≤ whole then
      figures ++ List.replicate (whole - figures.length) '0' ++ ['.', '0']
    else
      figures.take whole ++ '.' :: figures.drop whole

def Layout.scientific (figures : List Char) (exponent : Int) : List Char :=
  let fraction := figures.drop 1
  figures.take 1 ++ (if fraction.isEmpty then [] else '.' :: fraction) ++
    'e' :: (if exponent < 0 then '-' else '+') :: digits exponent.natAbs

def Layout.magnitude (layout : Layout) (point : Point) : List Char :=
  let figures := digits point.coefficient
  let exponent := point.exponent + (figures.length - 1 : Nat)
  if layout.least ≤ exponent && exponent ≤ layout.greatest then positional figures exponent
  else scientific figures exponent

def Layout.write (layout : Layout) (x : Float) : List Char :=
  let bits := x.toBits
  let magnitude := bits.toNat % (UInt64.size / 2)
  (if magnitude = bits.toNat then [] else ['-']) ++
    if magnitude = 0 then ['0', '.', '0']
    else layout.magnitude (Dyadic.ofBits bits).shortest

end Colloquy.Decimal
