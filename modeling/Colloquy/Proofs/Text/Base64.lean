import Colloquy.Proofs.Text.Utf8
import Colloquy.Text.Base64
import Mathlib.Data.Option.Basic

/-! Base64 in both directions. A text can be read exactly when it is what is written for
the bytes that are read from it. -/
namespace Colloquy.Text.Base64

theorem value?_digit {value : Nat} (small : value < 64) : value? (digit value) = some value := by
  have all : ∀ each ∈ List.range 64, value? (digit each) = some each := by decide
  exact all value (List.mem_range.mpr small)

theorem digit_ne_pad {value : Nat} (small : value < 64) : digit value ≠ '=' := by
  intro pad
  have read := value?_digit small
  rw [pad] at read
  cases read

theorem ascii_of_value? {c : Char} {value : Nat} (read : value? c = some value) : c.toNat < 128 := by
  unfold value? at read
  split at read
  next upper => exact Nat.lt_of_le_of_lt upper.2 (by decide)
  next =>
    split at read
    next lower => exact Nat.lt_of_le_of_lt lower.2 (by decide)
    next =>
      split at read
      next numeric => exact Nat.lt_of_le_of_lt numeric.2 (by decide)
      next =>
        split at read
        next plus => exact plus ▸ by decide
        next =>
          split at read
          next slash => exact slash ▸ by decide
          next => cases read

theorem digit_of_value? {c : Char} {value : Nat} (read : value? c = some value) :
    value < 64 ∧ c = digit value := by
  have all : ∀ code ∈ List.range 128, ∀ value ∈ value? (Char.ofNat code),
      value < 64 ∧ Char.ofNat code = digit value := by decide +kernel
  have found := all c.toNat (List.mem_range.mpr (ascii_of_value? read)) value
  rw [Char.ofNat_toNat] at found
  exact found read

theorem decodeChars_group (p q r s : Char) (rest : List Char) (filled : s ≠ '=') :
    decodeChars (p :: q :: r :: s :: rest) = do
      let p ← value? p
      let q ← value? q
      let r ← value? r
      let s ← value? s
      let bytes ← decodeChars rest
      return UInt8.ofNat (p * 4 + q / 16) :: UInt8.ofNat (q % 16 * 16 + r / 4) ::
        UInt8.ofNat (r % 4 * 64 + s) :: bytes := by
  rw [decodeChars]
  · exact fun _ pad _ => filled pad
  · exact fun pad _ => filled pad

theorem decodeChars_pair (p q : Char) :
    decodeChars [p, q, '=', '='] = do
      let p ← value? p
      let q ← value? q
      guard (q % 16 = 0)
      return [UInt8.ofNat (p * 4 + q / 16)] := rfl

theorem decodeChars_triple (p q r : Char) (filled : r ≠ '=') :
    decodeChars [p, q, r, '='] = do
      let p ← value? p
      let q ← value? q
      let r ← value? r
      guard (r % 4 = 0)
      return [UInt8.ofNat (p * 4 + q / 16), UInt8.ofNat (q % 16 * 16 + r / 4)] := by
  rw [decodeChars]
  exact filled

theorem ofNat_eq_of_toNat {n : Nat} {byte : UInt8} (same : n = byte.toNat) : UInt8.ofNat n = byte := by
  rw [same, UInt8.ofNat_toNat]

theorem decodeChars_encodeBytes (bytes : Bytes) : decodeChars (encodeBytes bytes) = some bytes := by
  fun_induction encodeBytes bytes with
  | case1 => rfl
  | case2 a =>
    have bound := a.toNat_lt
    have first : UInt8.ofNat (a.toNat / 4 * 4 + a.toNat % 4 * 16 / 16) = a := ofNat_eq_of_toNat (by omega)
    have zeros : a.toNat % 4 * 16 % 16 = 0 := by omega
    rw [decodeChars_pair, value?_digit (by omega), value?_digit (by omega)]
    simp only [Option.bind_eq_bind, Option.bind_some, zeros, first]
    rfl
  | case3 a b =>
    have boundA := a.toNat_lt
    have boundB := b.toNat_lt
    have first : UInt8.ofNat (a.toNat / 4 * 4 + (a.toNat % 4 * 16 + b.toNat / 16) / 16) = a :=
      ofNat_eq_of_toNat (by omega)
    have second : UInt8.ofNat ((a.toNat % 4 * 16 + b.toNat / 16) % 16 * 16 + b.toNat % 16 * 4 / 4) = b :=
      ofNat_eq_of_toNat (by omega)
    have zeros : b.toNat % 16 * 4 % 4 = 0 := by omega
    rw [decodeChars_triple _ _ _ (digit_ne_pad (by omega)), value?_digit (by omega), value?_digit (by omega),
      value?_digit (by omega)]
    simp only [Option.bind_eq_bind, Option.bind_some, zeros, first, second]
    rfl
  | case4 a b c rest ih =>
    have boundA := a.toNat_lt
    have boundB := b.toNat_lt
    have boundC := c.toNat_lt
    have first : UInt8.ofNat (a.toNat / 4 * 4 + (a.toNat % 4 * 16 + b.toNat / 16) / 16) = a :=
      ofNat_eq_of_toNat (by omega)
    have second : UInt8.ofNat ((a.toNat % 4 * 16 + b.toNat / 16) % 16 * 16 +
        (b.toNat % 16 * 4 + c.toNat / 64) / 4) = b := ofNat_eq_of_toNat (by omega)
    have third : UInt8.ofNat ((b.toNat % 16 * 4 + c.toNat / 64) % 4 * 64 + c.toNat % 64) = c :=
      ofNat_eq_of_toNat (by omega)
    rw [decodeChars_group _ _ _ _ _ (digit_ne_pad (by omega)), ih, value?_digit (by omega),
      value?_digit (by omega), value?_digit (by omega), value?_digit (by omega)]
    simp only [Option.bind_eq_bind, Option.bind_some, first, second, third]
    rfl

theorem encodeBytes_of_decodeChars (chars : List Char) (bytes : Bytes)
    (decoded : decodeChars chars = some bytes) : chars = encodeBytes bytes := by
  fun_induction decodeChars chars generalizing bytes with
  | case1 => cases decoded; rfl
  | case2 p q =>
    simp only [Option.bind_eq_bind, Option.bind_eq_some_iff, Option.guard_eq_some'] at decoded
    obtain ⟨p, readP, q, readQ, -, zeros, told⟩ := decoded
    cases told
    obtain ⟨boundP, rfl⟩ := digit_of_value? readP
    obtain ⟨boundQ, rfl⟩ := digit_of_value? readQ
    have first : (UInt8.ofNat (p * 4 + q / 16)).toNat = p * 4 + q / 16 :=
      toNat_ofNat_of_lt (by omega)
    simp only [encodeBytes, first, List.cons.injEq, and_true]
    exact ⟨congrArg digit (by omega), congrArg digit (by omega)⟩
  | case3 p q r =>
    simp only [Option.bind_eq_bind, Option.bind_eq_some_iff, Option.guard_eq_some'] at decoded
    obtain ⟨p, readP, q, readQ, r, readR, -, zeros, told⟩ := decoded
    cases told
    obtain ⟨boundP, rfl⟩ := digit_of_value? readP
    obtain ⟨boundQ, rfl⟩ := digit_of_value? readQ
    obtain ⟨boundR, rfl⟩ := digit_of_value? readR
    have first : (UInt8.ofNat (p * 4 + q / 16)).toNat = p * 4 + q / 16 :=
      toNat_ofNat_of_lt (by omega)
    have second : (UInt8.ofNat (q % 16 * 16 + r / 4)).toNat = q % 16 * 16 + r / 4 :=
      toNat_ofNat_of_lt (by omega)
    simp only [encodeBytes, first, second, List.cons.injEq, and_true]
    exact ⟨congrArg digit (by omega), congrArg digit (by omega), congrArg digit (by omega)⟩
  | case4 p q r s rest notPair notTriple ih =>
    simp only [Option.bind_eq_bind, Option.bind_eq_some_iff] at decoded
    obtain ⟨p, readP, q, readQ, r, readR, s, readS, later, readRest, told⟩ := decoded
    cases told
    obtain ⟨boundP, rfl⟩ := digit_of_value? readP
    obtain ⟨boundQ, rfl⟩ := digit_of_value? readQ
    obtain ⟨boundR, rfl⟩ := digit_of_value? readR
    obtain ⟨boundS, rfl⟩ := digit_of_value? readS
    have first : (UInt8.ofNat (p * 4 + q / 16)).toNat = p * 4 + q / 16 :=
      toNat_ofNat_of_lt (by omega)
    have second : (UInt8.ofNat (q % 16 * 16 + r / 4)).toNat = q % 16 * 16 + r / 4 :=
      toNat_ofNat_of_lt (by omega)
    have third : (UInt8.ofNat (r % 4 * 64 + s)).toNat = r % 4 * 64 + s :=
      toNat_ofNat_of_lt (by omega)
    simp only [encodeBytes, first, second, third, List.cons.injEq]
    exact ⟨congrArg digit (by omega), congrArg digit (by omega), congrArg digit (by omega),
      congrArg digit (by omega), ih later readRest⟩
  | case5 chars => cases decoded

theorem decode?_eq_some_iff (text : String) (bytes : Bytes) :
    decode? text = some bytes ↔ text = encode bytes := by
  constructor
  · intro decoded
    have chars := encodeBytes_of_decodeChars _ _ decoded
    rw [encode, ← chars, String.ofList_toList]
  · rintro rfl
    rw [decode?, encode, String.toList_ofList]
    exact decodeChars_encodeBytes bytes

end Colloquy.Text.Base64
