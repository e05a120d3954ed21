import Colloquy.Json.Record
import Mathlib

/-! Every number of a document is a finite double: one that was read as such is, and a
whole number of 64 bits is far below the greatest double. A double keeps its exponent
in 11 bits, and all ones stand for what is not finite. -/
namespace Colloquy

namespace Double

open Float.Model (Format UnpackedFloat totalExponent)
open Float.Model.UnpackedFloat

theorem exponentBias_binary64 : Format.binary64.exponentBias = 1023 := rfl

theorem mantissaBits_binary64 : Format.binary64.mantissaBits = 53 := rfl

theorem minExponent_binary64 : Format.binary64.minExponent = -1074 := rfl

/-- A number whose exponent has room beside the one that is all ones. -/
def Fits : UnpackedFloat → Prop
  | .zero _ => True
  | .finite _ _ exponent _ => exponent ≤ 971
  | _ => False

theorem isFinite_unpack_iff (bits : BitVec Format.binary64.numBits) :
    (unpack Format.binary64 bits).isFinite = true ↔ unpackExponent bits ≠ -1#_ := by
  unfold unpack
  dsimp only
  split
  next ones =>
    simp only [ones, ne_eq, not_true_eq_false, iff_false]
    split <;> simp [UnpackedFloat.isFinite]
  next other =>
    simp only [other, ne_eq, not_false_eq_true, iff_true]
    split
    next => split <;> rfl
    next => rfl

theorem fits_unpack {bits : BitVec Format.binary64.numBits}
    (finite : (unpack Format.binary64 bits).isFinite = true) : Fits (unpack Format.binary64 bits) := by
  have other := (isFinite_unpack_iff bits).mp finite
  have small : (unpackExponent bits).toNat ≤ 2046 := by
    have bound : (unpackExponent bits).toNat < 2048 := (unpackExponent bits).isLt
    have apart : (unpackExponent bits).toNat ≠ 2047 := fun same => other (BitVec.eq_of_toNat_eq same)
    omega
  unfold unpack
  dsimp only
  rw [if_neg other]
  split
  next zero =>
    split
    next => trivial
    next =>
      simp only [Fits, zero, exponentBias_binary64]
      decide
  next =>
    simp only [Fits, exponentBias_binary64]
    omega

theorem exponent_pack {number : UnpackedFloat} (fits : Fits number) :
    unpackExponent (pack Format.binary64 number) ≠ -1#_ := by
  cases number with
  | zero sign =>
    rw [pack, packedZero, unpackExponent_packComponents]
    decide
  | finite sign mantissa exponent positive =>
    have room : (exponent + (1023 : Nat) + (52 : Nat)).toNat < 2047 := by
      simp only [Fits] at fits
      omega
    unfold pack
    dsimp only
    rw [exponentBias_binary64, if_neg (by omega)]
    split
    next =>
      rw [unpackExponent_packComponents]
      intro ones
      have same : (exponent + (1023 : Nat) + (52 : Nat)).toNat % 2048 = 2047 := congrArg BitVec.toNat ones
      omega
    next =>
      rw [unpackExponent_packComponents]
      decide
  | _ => cases fits

theorem isFinite_pack {number : UnpackedFloat} (fits : Fits number) :
    (Float.ofModel (Float.Model.pack number)).isFinite = true :=
  (isFinite_unpack_iff _).mpr (exponent_pack fits)

theorem fits_neg {number : UnpackedFloat} (fits : Fits number) : Fits number.neg := by
  cases number <;> exact fits

theorem isFinite_neg {value : Float} (finite : value.isFinite = true) : (-value).isFinite = true :=
  isFinite_pack (fits_neg (fits_unpack finite))

theorem mantissa_shift_le (m : ExtendedMantissa) (places : Nat) :
    (m >>> places).mantissa ≤ m.mantissa := by
  induction places with
  | zero => exact Nat.le_refl _
  | succ places ih =>
    have step : (m >>> (places + 1)).mantissa = (m >>> places).mantissa / 2 := rfl
    rw [step]
    omega

theorem roundedMantissa_le (m : ExtendedMantissa) : m.roundedMantissa ≤ m.mantissa + 1 := by
  obtain ⟨mantissa, roundBit, stickyBit⟩ := m
  cases roundBit <;> cases stickyBit <;>
    simp [ExtendedMantissa.roundedMantissa, ExtendedMantissa.accuracy, Accuracy.roundToNearestEven]
  omega

/-- A shift to the target leaves the exponent no higher than the digits that are there. -/
theorem exponent_shiftToTarget_le (mantissa digits : Nat) (exponent limit : Int) (accuracy : Accuracy)
    (bound : mantissa < 2 ^ (digits + 1)) (low : exponent ≤ limit) (high : digits + exponent - 52 ≤ limit)
    (least : -1074 ≤ limit) :
    (shiftToTargetExponent Format.binary64 mantissa exponent accuracy).2 ≤ limit := by
  have log : mantissa.log2 ≤ digits := by
    by_cases zero : mantissa = 0
    · simp [zero]
    · have := (Nat.log2_lt zero).mpr bound
      omega
  have target : Format.binary64.targetExponent (totalExponent mantissa exponent) ≤ limit := by
    simp only [Format.targetExponent, totalExponent, mantissaBits_binary64, minExponent_binary64]
    omega
  simp only [shiftToTargetExponent, shiftToExponent]
  omega

theorem mantissa_ofMantissaAndAccuracy (mantissa : Nat) (accuracy : Accuracy) :
    (ExtendedMantissa.ofMantissaAndAccuracy mantissa accuracy).mantissa = mantissa := by
  cases accuracy with
  | exact => rfl
  | inexact order => cases order <;> rfl

theorem fits_roundWithAccuracy (sign : Sign) (mantissa : Nat) (exponent : Int) (accuracy : Accuracy)
    (bound : mantissa < 2 ^ 116) (low : exponent ≤ 0) :
    Fits (roundWithAccuracy Format.binary64 sign mantissa exponent accuracy) := by
  have first := exponent_shiftToTarget_le mantissa 115 exponent 63 accuracy bound (by omega) (by omega)
    (by omega)
  have rounded : (shiftToTargetExponent Format.binary64 mantissa exponent accuracy).1.roundedMantissa
      < 2 ^ 117 := by
    have up := roundedMantissa_le (shiftToTargetExponent Format.binary64 mantissa exponent accuracy).1
    have down : (shiftToTargetExponent Format.binary64 mantissa exponent accuracy).1.mantissa ≤ mantissa := by
      simp only [shiftToTargetExponent, shiftToExponent]
      have shifted := mantissa_shift_le (ExtendedMantissa.ofMantissaAndAccuracy mantissa accuracy)
        (Format.binary64.targetExponent (totalExponent mantissa exponent) - exponent).toNat
      rwa [mantissa_ofMantissaAndAccuracy] at shifted
    omega
  have second := exponent_shiftToTarget_le _ 116 _ 127 .exact rounded (Int.le_trans first (by decide))
    (by omega) (by decide)
  unfold roundWithAccuracy
  dsimp only
  split
  next => trivial
  next => simp only [Fits]; omega

theorem fits_round (sign : Sign) (mantissa : Nat) (bound : mantissa < 2 ^ 64) :
    Fits (UnpackedFloat.round Format.binary64 sign mantissa 0) := by
  have places : (0 - Format.binary64.targetExponent (totalExponent mantissa 0)).toNat ≤ 52 := by
    simp only [Format.targetExponent, totalExponent, mantissaBits_binary64]
    omega
  unfold UnpackedFloat.round decreaseExponent
  dsimp only
  apply fits_roundWithAccuracy
  · calc mantissa <<< (0 - Format.binary64.targetExponent (totalExponent mantissa 0)).toNat
        = mantissa * 2 ^ (0 - Format.binary64.targetExponent (totalExponent mantissa 0)).toNat :=
          Nat.shiftLeft_eq ..
      _ ≤ mantissa * 2 ^ 52 := Nat.mul_le_mul_left _ (Nat.pow_le_pow_right (by decide) places)
      _ < 2 ^ 64 * 2 ^ 52 := Nat.mul_lt_mul_of_pos_right bound (by decide)
      _ = 2 ^ 116 := by decide
  · omega

theorem isFinite_toFloat (word : UInt64) : word.toFloat.isFinite = true := by
  apply isFinite_pack
  have bound := word.toNat_lt
  unfold ofUInt64 UnpackedFloat.ofNat ofInt UnpackedFloat.normalize
  split
  next => exact fits_round _ _ (by omega)
  next => trivial
  next => exact fits_round _ _ (by omega)

end Double

theorem Number.ofFloat?_of_isFinite {value : Float} (finite : value.isFinite = true) :
    ofFloat? value = some (.real value finite) :=
  dif_pos finite

/-- What can be read as a number is finite. -/
theorem Draft.isFinite_of_real? {d : Draft} {value : Float} (read : d.real? = some value) :
    value.isFinite = true := by
  unfold real? at read
  split at read
  next whole => cases read; exact Double.isFinite_toFloat _
  next whole => cases read; exact Double.isFinite_neg (Double.isFinite_toFloat _)
  next kept finite => cases read; exact finite
  next => cases read

end Colloquy
