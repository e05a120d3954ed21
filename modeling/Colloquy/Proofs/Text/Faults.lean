import Colloquy.Proofs.Text.Utf8
import Colloquy.Text.Faults
import Mathlib.Data.List.Induction

/-! Strict reading against the bytes of characters. It gives the text that has the bytes, and
otherwise the fault that they have. Inside a character it admits a byte exactly when some
character goes on with it. -/
namespace Colloquy.Text.Utf8

/-- The last bytes of a value, each with six bits of it. -/
def continuation : Nat → Nat → Bytes
  | 0, _ => []
  | count + 1, value => UInt8.ofNat (value / 64 ^ count % 64 + 128) :: continuation count value

/-- The reader has begun a character with these bytes. Whatever it admits from there is the
way in which a character goes on. -/
structure Reached (part : Bytes) (pending : Pending) : Prop where
  present : part ≠ []
  seen : pending.seen = part.length
  owes : 1 ≤ pending.owed
  least : 0x80 ≤ pending.least.toNat
  bounds : pending.least.toNat ≤ pending.greatest.toNat
  greatest : pending.greatest.toNat ≤ 0xBF
  run (rest : Bytes) : pieces none (part ++ rest) = pieces (some pending) rest
  completes (v : Nat) (value : v / 64 ^ pending.owed = pending.value)
    (lower : pending.least.toNat ≤ v / 64 ^ (pending.owed - 1) % 64 + 128)
    (upper : v / 64 ^ (pending.owed - 1) % 64 + 128 ≤ pending.greatest.toNat) :
    String.utf8EncodeChar (Char.ofNat v) = part ++ continuation pending.owed v

section Characters

variable {v : Nat}

theorem toNat_ofNat_of_valid (valid : v.isValidChar) : (Char.ofNat v).val.toNat = v := by
  rw [Char.ofNat, dif_pos valid]
  rfl

theorem utf8EncodeChar_one (small : v < 128) : String.utf8EncodeChar (Char.ofNat v) = [UInt8.ofNat v] := by
  rw [String.utf8EncodeChar.eq_1, toNat_ofNat_of_valid (.inl (by omega)), if_pos (by omega)]

theorem utf8EncodeChar_two (lower : 128 ≤ v) (upper : v < 2048) :
    String.utf8EncodeChar (Char.ofNat v) = UInt8.ofNat (v / 64 + 192) :: continuation 1 v := by
  have first : v / 64 % 32 = v / 64 := by omega
  rw [String.utf8EncodeChar.eq_1, toNat_ofNat_of_valid (.inl (by omega)), if_neg (by omega), if_pos (by omega), first]
  simp [continuation]

theorem utf8EncodeChar_three (lower : 2048 ≤ v) (upper : v < 65536) (valid : v.isValidChar) :
    String.utf8EncodeChar (Char.ofNat v) = UInt8.ofNat (v / 4096 + 224) :: continuation 2 v := by
  have first : v / 4096 % 16 = v / 4096 := by omega
  rw [String.utf8EncodeChar.eq_1, toNat_ofNat_of_valid valid, if_neg (by omega), if_neg (by omega),
    if_pos (by omega), first]
  simp [continuation]

theorem utf8EncodeChar_four (lower : 65536 ≤ v) (upper : v < 0x110000) :
    String.utf8EncodeChar (Char.ofNat v) = UInt8.ofNat (v / 262144 + 240) :: continuation 3 v := by
  have first : v / 262144 % 8 = v / 262144 := by omega
  rw [String.utf8EncodeChar.eq_1, toNat_ofNat_of_valid (.inr ⟨by omega, upper⟩), if_neg (by omega),
    if_neg (by omega), if_neg (by omega), first]
  simp [continuation]

end Characters

theorem utf8EncodeChar_whole {byte : UInt8} {c : Char} (whole : lead byte = .whole c) :
    String.utf8EncodeChar c = [byte] := by
  unfold lead at whole
  split at whole
  case isTrue small =>
    cases whole
    have small_ : byte.toNat < 128 := small
    rw [utf8EncodeChar_one small_, UInt8.ofNat_toNat]
  case isFalse =>
    repeat' split at whole
    all_goals cases whole

section Opened

theorem exists_opened {byte : UInt8} {pending : Pending} (opens : lead byte = .opens pending) :
    ∃ n, 0xC2 ≤ n ∧ n < 0xF5 ∧ byte = UInt8.ofNat n ∧ pending = opened n := by
  have range : 0xC2 ≤ byte.toNat ∧ byte.toNat < 0xF5 := by
    simp only [lead, UInt8.lt_iff_toNat_lt, UInt8.reduceToNat] at opens
    by_contra outside
    split at opens
    case isTrue => cases opens
    case isFalse =>
      split at opens
      case isTrue => cases opens
      case isFalse =>
        rw [if_neg (by omega), if_neg (by omega), if_neg (by omega)] at opens
        cases opens
  have begins := lead_opens range.1 range.2
  rw [UInt8.ofNat_toNat, opens, Lead.opens.injEq] at begins
  exact ⟨byte.toNat, range.1, range.2, UInt8.ofNat_toNat.symm, begins⟩

variable {n : Nat}

theorem opened_bounds (n : Nat) :
    0x80 ≤ (opened n).least.toNat ∧ (opened n).least.toNat ≤ (opened n).greatest.toNat ∧
      (opened n).greatest.toNat ≤ 0xBF := by
  unfold opened
  split
  case isTrue => simp
  case isFalse =>
    split <;> dsimp only <;> split <;> split <;> first | decide | omega

theorem opened_seen (n : Nat) : (opened n).seen = 1 := by
  unfold opened
  split
  next => rfl
  next => split <;> rfl

theorem opened_owes (n : Nat) : 1 ≤ (opened n).owed := by
  unfold opened
  split
  next => exact Nat.le_refl 1
  next => split <;> exact Nat.succ_le_succ (Nat.zero_le _)

/-- The bounds on the second byte leave exactly the values that characters of so many
bytes have. -/
theorem opened_completes {v : Nat} (least : 0xC2 ≤ n) (greatest : n < 0xF5)
    (value : v / 64 ^ (opened n).owed = (opened n).value)
    (lower : (opened n).least.toNat ≤ v / 64 ^ ((opened n).owed - 1) % 64 + 128)
    (upper : v / 64 ^ ((opened n).owed - 1) % 64 + 128 ≤ (opened n).greatest.toNat) :
    String.utf8EncodeChar (Char.ofNat v) = UInt8.ofNat n :: continuation (opened n).owed v := by
  by_cases two : n < 0xE0
  case pos =>
    simp only [opened, if_pos two] at value ⊢
    rw [utf8EncodeChar_two (by omega) (by omega), show v / 64 + 192 = n by omega]
  case neg =>
    by_cases three : n < 0xF0
    case pos =>
      simp only [opened, if_neg two, if_pos three] at value lower upper ⊢
      have above : 2048 ≤ v := by split at lower <;> simp at lower <;> omega
      have valid : v.isValidChar := by
        unfold Nat.isValidChar
        split at upper <;> simp at upper <;> omega
      rw [utf8EncodeChar_three above (by omega) valid, show v / 4096 + 224 = n by omega]
    case neg =>
      simp only [opened, if_neg two, if_neg three] at value lower upper ⊢
      have above : 65536 ≤ v := by split at lower <;> simp at lower <;> omega
      have below : v < 0x110000 := by split at upper <;> simp at upper <;> omega
      rw [utf8EncodeChar_four above below, show v / 262144 + 240 = n by omega]

theorem reached_lead {byte : UInt8} {pending : Pending} (opens : lead byte = .opens pending) :
    Reached [byte] pending := by
  have run (rest : Bytes) : pieces none ([byte] ++ rest) = pieces (some pending) rest := by
    rw [List.singleton_append, pieces, opens]
  obtain ⟨n, least, greatest, rfl, rfl⟩ := exists_opened opens
  obtain ⟨low, between, high⟩ := opened_bounds n
  exact ⟨List.cons_ne_nil _ _, opened_seen n, opened_owes n, low, between, high, run,
    fun v value lower upper => opened_completes least greatest value lower upper⟩

end Opened

section Inside

variable {part : Bytes} {pending : Pending} {byte : UInt8}

theorem Pending.admits_iff :
    pending.admits byte = true ↔ pending.least.toNat ≤ byte.toNat ∧ byte.toNat ≤ pending.greatest.toNat := by
  rw [admits, Bool.and_eq_true, decide_eq_true_iff, decide_eq_true_iff, UInt8.le_iff_toNat_le, UInt8.le_iff_toNat_le]

namespace Reached

variable (reached : Reached part pending)

include reached

theorem seen_eq : pending.seen = max 1 part.length := by
  rw [reached.seen, Nat.max_eq_right (List.length_pos_of_ne_nil reached.present)]

theorem admits_least : pending.admits pending.least = true :=
  Pending.admits_iff.mpr ⟨Nat.le_refl _, reached.bounds⟩

variable (admitted : pending.admits byte = true)

include admitted

/-- A value that goes on with the byte after the part. -/
theorem completes_admitted {v : Nat} (value : v / 64 ^ (pending.owed - 1) = (pending.advance byte).value) :
    String.utf8EncodeChar (Char.ofNat v) = part ++ byte :: continuation (pending.owed - 1) v := by
  obtain ⟨lower, upper⟩ := Pending.admits_iff.mp admitted
  have owed : pending.owed = pending.owed - 1 + 1 := (Nat.sub_add_cancel reached.owes).symm
  have least := reached.least
  have greatest := reached.greatest
  have advanced : v / 64 ^ (pending.owed - 1) = pending.value * 64 + (byte.toNat - 0x80) := value
  have digit : v / 64 ^ (pending.owed - 1) % 64 + 128 = byte.toNat := by omega
  have before : v / 64 ^ pending.owed = pending.value := by
    rw [owed, Nat.pow_succ, ← Nat.div_div_eq_div_mul, advanced]
    omega
  rw [reached.completes v before (digit ▸ lower) (digit ▸ upper)]
  conv_lhs => rw [owed, continuation, digit, UInt8.ofNat_toNat]

theorem goesOn : GoesOn part byte :=
  ⟨_, _, reached.completes_admitted admitted (Nat.mul_div_cancel _ (Nat.pow_pos (by decide)))⟩

theorem last (owed : pending.owed ≤ 1) :
    String.utf8EncodeChar (Char.ofNat (pending.advance byte).value) = part ++ [byte] := by
  have none_ : pending.owed - 1 = 0 := by omega
  have whole := reached.completes_admitted admitted (v := (pending.advance byte).value)
    (by rw [none_, Nat.pow_zero, Nat.div_one])
  rw [whole, none_]
  rfl

theorem advance (owed : ¬ pending.owed ≤ 1) : Reached (part ++ [byte]) (pending.advance byte) where
  present := by simp
  seen := by rw [List.length_append, List.length_singleton, ← reached.seen]; rfl
  owes := show 1 ≤ pending.owed - 1 by omega
  least := Nat.le_refl _
  bounds := show (0x80 : UInt8).toNat ≤ (0xBF : UInt8).toNat by decide
  greatest := Nat.le_refl _
  run rest := by rw [List.append_assoc, reached.run, List.singleton_append, pieces, if_pos admitted, if_neg owed]
  completes v value lower upper := by
    rw [reached.completes_admitted admitted value, List.append_assoc, List.singleton_append]
    rfl

end Reached

/-- Inside a character or, where nothing has begun, between two of them. -/
def Stands (part : Bytes) : Option Pending → Prop
  | none => part = []
  | some pending => Reached part pending

theorem stands_nil : Stands [] none := rfl

theorem Reached.stands (reached : Reached part pending) : Stands part (some pending) := reached

theorem Stands.run {state : Option Pending} (stands : Stands part state) (rest : Bytes) :
    pieces none (part ++ rest) = pieces state rest := by
  cases state with
  | none => rw [show part = [] from stands, List.nil_append]
  | some pending => exact Reached.run stands rest

theorem pieces_some_ne_nil (pending : Pending) (rest : Bytes) : pieces (some pending) rest ≠ [] := by
  induction rest generalizing pending with
  | nil => exact List.cons_ne_nil _ _
  | cons byte rest ih =>
    rw [pieces]
    split
    next =>
      split
      next => exact List.cons_ne_nil _ _
      next => exact ih _
    next => exact List.cons_ne_nil _ _

theorem pieces_cons_ne_nil (byte : UInt8) (rest : Bytes) : pieces none (byte :: rest) ≠ [] := by
  rw [pieces]
  split
  next => exact List.cons_ne_nil _ _
  next => exact pieces_some_ne_nil _ _
  next => exact List.cons_ne_nil _ _

/-- A character has no pieces but itself. -/
theorem pieces_char (c : Char) : pieces none (String.utf8EncodeChar c) = [.char c] := by
  have whole := pieces_utf8EncodeChar c []
  rwa [List.append_nil] at whole

theorem goesOn_nil_iff : GoesOn [] byte ↔ lead byte ≠ .refused := by
  constructor
  · rintro ⟨c, rest, bytes⟩ refused
    have whole := pieces_char c
    rw [bytes, List.nil_append, pieces, refused] at whole
    simp at whole
  · intro begins
    cases meaning : lead byte with
    | whole c => exact ⟨c, [], utf8EncodeChar_whole meaning⟩
    | opens pending =>
      obtain ⟨c, rest, bytes⟩ := (reached_lead meaning).goesOn (reached_lead meaning).admits_least
      exact ⟨c, pending.least :: rest, bytes⟩
    | refused => exact absurd meaning begins

theorem Reached.goesOn_iff (reached : Reached part pending) :
    GoesOn part byte ↔ pending.admits byte = true := by
  refine ⟨?_, reached.goesOn⟩
  rintro ⟨c, rest, bytes⟩
  by_contra refused
  have whole := pieces_char c
  rw [bytes, reached.run, pieces, if_neg refused] at whole
  simp at whole

/-- What a character goes on with is not past its end. -/
theorem not_goesOn_of_char {c : Char} (complete : String.utf8EncodeChar c = part) : ¬ GoesOn part byte := by
  rintro ⟨longer, rest, bytes⟩
  have whole := pieces_char longer
  rw [bytes, ← complete, pieces_utf8EncodeChar] at whole
  exact pieces_cons_ne_nil byte rest (List.cons.inj whole).2

/-- The reader stands wherever a character goes on. -/
theorem exists_stands (begun : GoesOn part byte) : ∃ state, Stands part state := by
  induction part using List.reverseRecOn generalizing byte with
  | nil => exact ⟨none, stands_nil⟩
  | append_singleton before next ih =>
    have earlier : GoesOn before next := by
      obtain ⟨c, rest, bytes⟩ := begun
      exact ⟨c, byte :: rest, by rw [bytes, List.append_assoc, List.singleton_append]⟩
    obtain ⟨state, stands⟩ := ih earlier
    -- The part is not complete here, since a character goes on after it.
    cases state with
    | none =>
      obtain rfl : before = [] := stands
      cases meaning : lead next with
      | whole c => exact absurd begun (not_goesOn_of_char (utf8EncodeChar_whole meaning))
      | opens pending => exact ⟨some pending, (reached_lead meaning).stands⟩
      | refused => exact absurd meaning (goesOn_nil_iff.mp earlier)
    | some pending =>
      have reached : Reached before pending := stands
      have admitted := reached.goesOn_iff.mp earlier
      by_cases owed : pending.owed ≤ 1
      · exact absurd begun (not_goesOn_of_char (reached.last admitted owed))
      · exact ⟨some (pending.advance next), (reached.advance admitted owed).stands⟩

end Inside

/-- What strict reading says of bytes. -/
def Reads (bytes : Bytes) : Except Fault String → Prop
  | .ok text => encode text = bytes
  | .error fault => FaultOf bytes fault

section Characters

variable {chars : List Char} {c : Char} {text bytes : Bytes} (character : String.utf8EncodeChar c = bytes)

include character

theorem encode_concat (spelled : encode (String.ofList chars) = text) :
    encode (String.ofList (chars ++ [c])) = text ++ bytes := by
  rw [← spelled, encode_eq_flatMap, encode_eq_flatMap, String.toList_ofList, String.toList_ofList,
    List.flatMap_append, List.flatMap_singleton, character]

theorem assemble_char (rest : List Piece) :
    assemble text.length chars.reverse (.char c :: rest) =
      assemble (text ++ bytes).length (chars ++ [c]).reverse rest := by
  rw [assemble, List.length_append, ← character, String.length_utf8EncodeChar, List.reverse_concat]

end Characters

/-- Between characters or inside one, what is read of the rest is right of all the bytes. -/
theorem reads_assemble (rest : Bytes) {chars : List Char} {text part : Bytes} {state : Option Pending}
    (spelled : encode (String.ofList chars) = text) (stands : Stands part state) :
    Reads (text ++ part ++ rest)
      ((assemble text.length chars.reverse (pieces state rest)).map String.ofList) := by
  -- A byte either completes the part, which joins the text, or goes on with it, or is a fault.
  induction rest generalizing chars text part state with
  | nil =>
    cases state with
    | none =>
      obtain rfl : part = [] := stands
      rw [pieces, assemble, List.append_nil, List.append_nil, List.reverse_reverse]
      exact spelled
    | some pending =>
      have reached : Reached part pending := stands
      rw [pieces, assemble, List.append_nil, ← spelled]
      exact .incomplete _ part _ reached.present (reached.goesOn reached.admits_least)
  | cons byte rest ih =>
    cases state with
    | none =>
      obtain rfl : part = [] := stands
      rw [pieces]
      cases meaning : lead byte with
      | whole c =>
        have character := utf8EncodeChar_whole meaning
        have later := ih (encode_concat character spelled) stands_nil
        rw [assemble_char character]
        simpa only [List.append_nil, List.append_assoc, List.singleton_append] using later
      | opens pending =>
        have later := ih spelled (reached_lead meaning).stands
        simpa only [List.append_nil, List.append_assoc, List.singleton_append] using later
      | refused =>
        rw [assemble, ← spelled]
        exact .invalid _ [] _ byte rest ⟨'A', [], rfl⟩ fun goesOn => goesOn_nil_iff.mp goesOn meaning
    | some pending =>
      have reached : Reached part pending := stands
      rw [pieces]
      split
      next admitted =>
        split
        next owed =>
          have character := reached.last admitted owed
          have later := ih (encode_concat character spelled) stands_nil
          rw [assemble_char character]
          simpa only [List.append_nil, List.append_assoc, List.singleton_append] using later
        next owed =>
          have later := ih spelled (reached.advance admitted owed).stands
          simpa only [List.append_assoc, List.singleton_append] using later
      next refused =>
        rw [assemble, reached.seen_eq, ← spelled]
        exact .invalid _ part _ byte rest (reached.goesOn reached.admits_least)
          fun goesOn => refused (reached.goesOn_iff.mp goesOn)

theorem reads_decode (bytes : Bytes) : Reads bytes (decode bytes) := by
  have start : encode (String.ofList []) = [] := by rw [encode_eq_flatMap, String.toList_ofList, List.flatMap_nil]
  exact reads_assemble bytes start stands_nil

theorem assemble_chars (index : Nat) (seen chars : List Char) (rest : List Piece) :
    assemble index seen (chars.map .char ++ rest) =
      assemble (index + (chars.flatMap String.utf8EncodeChar).length) (chars.reverse ++ seen) rest := by
  induction chars generalizing index seen with
  | nil => rfl
  | cons c chars ih =>
    rw [List.map_cons, List.cons_append, assemble, ih, List.flatMap_cons, List.length_append,
      String.length_utf8EncodeChar, Nat.add_assoc, List.reverse_cons, List.append_assoc, List.singleton_append]

/-- What follows a text is read as it is anywhere. -/
theorem decode_encode_append (text : String) (rest : Bytes) :
    decode (encode text ++ rest) =
      (assemble (encode text).length text.toList.reverse (pieces none rest)).map String.ofList := by
  rw [decode, pieces_encode_append, assemble_chars, ← encode_eq_flatMap, Nat.zero_add, List.append_nil]

theorem decode_eq_ok_iff {bytes : Bytes} {text : String} : decode bytes = .ok text ↔ encode text = bytes := by
  constructor
  · intro read
    have right := reads_decode bytes
    rwa [read] at right
  · rintro rfl
    have whole := decode_encode_append text []
    rw [List.append_nil, pieces, assemble, List.reverse_reverse] at whole
    rw [whole, Except.map, String.ofList_toList]

theorem decode_eq_error_iff {bytes : Bytes} {fault : Fault} :
    decode bytes = .error fault ↔ FaultOf bytes fault := by
  constructor
  · intro read
    have right := reads_decode bytes
    rwa [read] at right
  · intro faulty
    cases faulty with
    | invalid text part expected next rest begun stops =>
      rw [List.append_assoc, decode_encode_append]
      obtain ⟨state, stands⟩ := exists_stands begun
      rw [stands.run]
      cases state with
      | none =>
        obtain rfl : part = [] := stands
        have refused : lead next = .refused := not_not.mp fun begins => stops (goesOn_nil_iff.mpr begins)
        rw [pieces, refused]
        rfl
      | some pending =>
        have reached : Reached part pending := stands
        have refused : ¬ pending.admits next = true := fun admitted => stops (reached.goesOn admitted)
        rw [pieces, if_neg refused, reached.seen_eq]
        rfl
    | incomplete text part expected present begun =>
      obtain ⟨state, stands⟩ := exists_stands begun
      have ended := stands.run []
      rw [List.append_nil] at ended
      rw [decode_encode_append, ended]
      cases state with
      | none => exact absurd stands present
      | some pending => rfl

end Colloquy.Text.Utf8
