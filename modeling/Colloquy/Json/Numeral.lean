import Colloquy.Decimal.Digits
import Colloquy.Decimal.Scaled
import Colloquy.Json.Basic

/-! Numerals of JSON text: an optional minus, digits without a leading zero, an
optional fraction and an optional exponent. -/
namespace Colloquy.Json

structure Numeral where
  negative : Bool
  whole : List Char
  fraction : List Char
  exponent : Int
  plain : Bool
  deriving DecidableEq, Repr

namespace Numeral

def exponent? : List Char → Option Int
  | [] => none
  | '-' :: digits => if digits.isEmpty || !digits.all Char.isDigit then none
    else some (-(Decimal.ofDigits digits : Int))
  | '+' :: digits => if digits.isEmpty || !digits.all Char.isDigit then none
    else some (Decimal.ofDigits digits)
  | digits => if digits.all Char.isDigit then some (Decimal.ofDigits digits) else none

/-- What may follow the digits of the fraction, or of the whole part. -/
def tail? (negative : Bool) (whole fraction : List Char) : List Char → Option Numeral
  | [] => some ⟨negative, whole, fraction, 0, fraction.isEmpty⟩
  | mark :: rest =>
    if mark = 'e' ∨ mark = 'E' then
      (exponent? rest).map fun exponent => ⟨negative, whole, fraction, exponent, false⟩
    else none

def unsigned? (negative : Bool) (chars : List Char) : Option Numeral :=
  let whole := chars.takeWhile Char.isDigit
  if whole.isEmpty || (whole.head? == some '0' && whole.length > 1) then none
  else match chars.dropWhile Char.isDigit with
    | '.' :: rest =>
      let fraction := rest.takeWhile Char.isDigit
      if fraction.isEmpty then none
      else tail? negative whole fraction (rest.dropWhile Char.isDigit)
    | rest => tail? negative whole [] rest

def ofChars? : List Char → Option Numeral
  | '-' :: chars => unsigned? true chars
  | chars => unsigned? false chars

def real? (n : Numeral) : Option Float :=
  (Decimal.ofDigits? (n.whole.map Decimal.digitValue) (n.fraction.map Decimal.digitValue)
    n.exponent).map fun magnitude => if n.negative then -magnitude else magnitude

/-- A plain numeral is whole where a 64-bit word holds it; minus zero is not. -/
def value? (n : Numeral) : Option Number :=
  let magnitude := Decimal.ofDigits n.whole
  if n.plain && !n.negative && magnitude < UInt64.size then some (.whole magnitude)
  else if n.plain && n.negative && 0 < magnitude && magnitude ≤ UInt64.size / 2 then
    some (.whole (-magnitude))
  else n.real?.bind Number.ofFloat?

end Numeral

end Colloquy.Json
