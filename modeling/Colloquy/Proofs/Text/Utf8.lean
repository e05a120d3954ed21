import Colloquy.Text.Utf8
import Mathlib.Data.String.Basic

/-! The bytes of a text are read back as its characters, and texts are ordered as
their bytes are. -/
namespace Colloquy.Text

theorem toNat_ofNat_of_lt {n : Nat} (small : n < 256) : (UInt8.ofNat n).toNat = n :=
  UInt8.toNat_ofNat_of_lt' small

namespace Utf8

theorem toList_loop (bytes : ByteArray) (start : Nat) (seen : List UInt8) :
    ByteArray.toList.loop bytes start seen = seen.reverse ++ bytes.data.toList.drop start := by
  fun_induction ByteArray.toList.loop bytes start seen with
  | case1 start seen more ih =>
    have inside : start < bytes.data.toList.length := by simpa using more
    rw [ih, List.drop_eq_getElem_cons (l := bytes.data.toList) inside]
    simp [ByteArray.get!, more]
  | case2 start seen done =>
    rw [List.drop_eq_nil_of_le (by simpa using Nat.le_of_not_lt done), List.append_nil]

theorem encode_eq_flatMap (text : String) : encode text = text.toList.flatMap String.utf8EncodeChar := by
  have bytes : text.toUTF8 = (text.toList.flatMap String.utf8EncodeChar).toByteArray :=
    String.toUTF8_eq_toByteArray.trans String.utf8Encode_toList.symm
  rw [encode, bytes, ByteArray.toList, toList_loop, List.toList_data_toByteArray]
  rfl

section Byte

variable {n : Nat} (small : n < 256) (byte : UInt8)

include small

theorem ofNat_lt_iff : UInt8.ofNat n < byte ↔ n < byte.toNat := by
  rw [UInt8.lt_iff_toNat_lt, toNat_ofNat_of_lt small]

theorem ofNat_le_iff : UInt8.ofNat n ≤ byte ↔ n ≤ byte.toNat := by
  rw [UInt8.le_iff_toNat_le, toNat_ofNat_of_lt small]

theorem le_ofNat_iff : byte ≤ UInt8.ofNat n ↔ byte.toNat ≤ n := by
  rw [UInt8.le_iff_toNat_le, toNat_ofNat_of_lt small]

theorem ofNat_eq_iff : UInt8.ofNat n = byte ↔ n = byte.toNat := by
  rw [← UInt8.toNat_inj, toNat_ofNat_of_lt small]

end Byte

theorem lead_one {n : Nat} (small : n < 128) : lead (UInt8.ofNat n) = .whole (Char.ofNat n) := by
  rw [lead, if_pos ((ofNat_lt_iff (by omega) _).mpr small), toNat_ofNat_of_lt (by omega)]

/-- What begins with a byte of a sequence of two, three or four. -/
def opened (n : Nat) : Pending :=
  if n < 0xE0 then { owed := 1, value := n - 0xC0 }
  else if n < 0xF0 then
    { owed := 2, value := n - 0xE0, least := if n = 0xE0 then 0xA0 else 0x80
      greatest := if n = 0xED then 0x9F else 0xBF }
  else
    { owed := 3, value := n - 0xF0, least := if n = 0xF0 then 0x90 else 0x80
      greatest := if n = 0xF4 then 0x8F else 0xBF }

theorem lead_opens {n : Nat} (least : 0xC2 ≤ n) (greatest : n < 0xF5) :
    lead (UInt8.ofNat n) = .opens (opened n) := by
  have small : n < 256 := by omega
  simp only [lead, opened, toNat_ofNat_of_lt small, ofNat_lt_iff small, beq_iff_eq, ofNat_eq_iff small,
    UInt8.reduceToNat]
  rw [if_neg (by omega), if_neg (by omega), if_pos greatest]
  split
  next => rfl
  next => split <;> rfl

-- A byte that continues a sequence brings six more bits of the value.
section Continued

variable {least greatest : UInt8} {value seen n : Nat} (rest : Bytes) (small : n < 64)

theorem advance_ofNat (owed : Nat) (small : n < 64) :
    (Pending.mk owed least greatest value seen).advance (UInt8.ofNat (n + 128)) =
      { owed := owed - 1, value := value * 64 + n, seen := seen + 1 } := by
  rw [Pending.advance, toNat_ofNat_of_lt (by omega), Nat.add_sub_cancel]

variable (lower : least.toNat ≤ n + 128) (upper : n + 128 ≤ greatest.toNat)

include small lower upper

theorem admits_ofNat (owed : Nat) :
    (Pending.mk owed least greatest value seen).admits (UInt8.ofNat (n + 128)) = true := by
  rw [Pending.admits, Bool.and_eq_true, decide_eq_true_iff, decide_eq_true_iff,
    le_ofNat_iff (by omega), ofNat_le_iff (by omega)]
  exact ⟨lower, upper⟩

theorem pieces_last : pieces (some ⟨1, least, greatest, value, seen⟩) (UInt8.ofNat (n + 128) :: rest) =
    .char (Char.ofNat (value * 64 + n)) :: pieces none rest := by
  rw [pieces, if_pos (admits_ofNat small lower upper 1), advance_ofNat 1 small, if_pos (Nat.le_refl 1)]

theorem pieces_more (owed : Nat) :
    pieces (some ⟨owed + 2, least, greatest, value, seen⟩) (UInt8.ofNat (n + 128) :: rest) =
      pieces (some { owed := owed + 1, value := value * 64 + n, seen := seen + 1 }) rest := by
  have more : ¬ owed + 2 ≤ 1 := by omega
  rw [pieces, if_pos (admits_ofNat small lower upper _), advance_ofNat _ small, if_neg more]
  rfl

end Continued

theorem pieces_utf8EncodeChar (c : Char) (rest : Bytes) :
    pieces none (String.utf8EncodeChar c ++ rest) = .char c :: pieces none rest := by
  have valid : c.toNat < 0xD800 ∨ 0xDFFF < c.toNat ∧ c.toNat < 0x110000 := c.valid
  have same : Char.ofNat c.toNat = c := Char.ofNat_toNat c
  rw [String.utf8EncodeChar.eq_1, show c.val.toNat = c.toNat from rfl]
  generalize c.toNat = v at valid same
  subst same
  by_cases one : v ≤ 127
  case pos => rw [if_pos one, List.singleton_append, pieces, lead_one (by omega)]
  case neg =>
    by_cases two : v ≤ 2047
    case pos =>
      have value : (v / 64 % 32 + 192 - 0xC0) * 64 + v % 64 = v := by omega
      rw [if_neg one, if_pos two, List.cons_append, List.singleton_append, pieces,
        lead_opens (by omega) (by omega), opened, if_pos (by omega)]
      dsimp only
      rw [pieces_last rest (by omega) (by simp) (by simp; omega), value]
    case neg =>
      by_cases three : v ≤ 65535
      case pos =>
        have value : ((v / 4096 % 16 + 224 - 0xE0) * 64 + v / 64 % 64) * 64 + v % 64 = v := by omega
        rw [if_neg one, if_neg two, if_pos three, List.cons_append, List.cons_append, List.singleton_append,
          pieces, lead_opens (by omega) (by omega), opened, if_neg (by omega), if_pos (by omega)]
        dsimp only
        rw [pieces_more _ (by omega) (by split <;> simp; omega) (by split <;> simp <;> omega) 0,
          pieces_last rest (by omega) (by simp) (by simp; omega), value]
      case neg =>
        have value : (((v / 262144 % 8 + 240 - 0xF0) * 64 + v / 4096 % 64) * 64 + v / 64 % 64) * 64 + v % 64 = v := by
          omega
        rw [if_neg one, if_neg two, if_neg three, List.cons_append, List.cons_append, List.cons_append,
          List.singleton_append, pieces, lead_opens (by omega) (by omega), opened, if_neg (by omega), if_neg (by omega)]
        dsimp only
        rw [pieces_more _ (by omega) (by split <;> simp; omega) (by split <;> simp <;> omega) 1,
          pieces_more _ (by omega) (by simp) (by simp; omega) 0,
          pieces_last rest (by omega) (by simp) (by simp; omega), value]

theorem pieces_encode_append (text : String) (rest : Bytes) :
    pieces none (encode text ++ rest) = text.toList.map .char ++ pieces none rest := by
  rw [encode_eq_flatMap]
  induction text.toList with
  | nil => rfl
  | cons c chars ih =>
    rw [List.flatMap_cons, List.append_assoc, pieces_utf8EncodeChar, ih, List.map_cons, List.cons_append]

theorem pieces_encode (text : String) : pieces none (encode text) = text.toList.map .char := by
  have whole := pieces_encode_append text []
  rwa [List.append_nil, pieces, List.append_nil] at whole

theorem symbols_encode (text : String) : symbols (encode text) = text.toList.map some := by
  rw [symbols, pieces_encode, List.map_map]
  rfl

/-- The bytes of a character are its number in digits of six bits, after a first byte
that is greater the more bytes there are. -/
theorem utf8EncodeChar_append_lt {c d : Char} (less : c < d) (rest others : Bytes) :
    String.utf8EncodeChar c ++ rest < String.utf8EncodeChar d ++ others := by
  have valid : d.toNat < 0xD800 ∨ 0xDFFF < d.toNat ∧ d.toNat < 0x110000 := d.valid
  have lessNumber : c.toNat < d.toNat := less
  rw [String.utf8EncodeChar.eq_1, String.utf8EncodeChar.eq_1, show c.val.toNat = c.toNat from rfl,
    show d.val.toNat = d.toNat from rfl]
  generalize c.toNat = v at lessNumber
  generalize d.toNat = w at lessNumber valid
  have third (n : Nat) : n / 4096 = n / 64 / 64 := by rw [Nat.div_div_eq_div_mul]
  have fourth (n : Nat) : n / 262144 = n / 64 / 64 / 64 := by rw [Nat.div_div_eq_div_mul, Nat.div_div_eq_div_mul]
  simp only [third, fourth]
  repeat' split
  all_goals
    simp (disch := omega) only [List.cons_append, List.nil_append, List.cons_lt_cons_iff, UInt8.lt_iff_toNat_lt,
      ← UInt8.toNat_inj, toNat_ofNat_of_lt]
    omega

theorem flatMap_lt {chars others : List Char} (less : chars < others) :
    chars.flatMap String.utf8EncodeChar < others.flatMap String.utf8EncodeChar := by
  induction less with
  | nil =>
    next c rest =>
    obtain ⟨byte, bytes, bytesEq⟩ := List.exists_cons_of_ne_nil (String.utf8EncodeChar_ne_nil (c := c))
    rw [List.flatMap_cons, bytesEq]
    exact List.Lex.nil
  | rel less => exact utf8EncodeChar_append_lt less _ _
  | cons _ ih => exact List.append_left_lt ih

theorem encode_lt_of_lt {text other : String} (less : text < other) : encode text < encode other := by
  rw [encode_eq_flatMap, encode_eq_flatMap]
  exact flatMap_lt less

end Utf8

end Colloquy.Text
