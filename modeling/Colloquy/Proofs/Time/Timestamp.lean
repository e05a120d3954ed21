import Colloquy.Proofs.Text.Blank
import Colloquy.Time.Timestamp
import Mathlib

/-! Points in time as text. Whatever is written is read back as the same point, the leap
second, the fractions of each length and the years of more than four digits among them. -/
namespace Colloquy

namespace Decimal

theorem isDigit_digitChar {digit : Nat} (small : digit < 10) : (digitChar digit).isDigit = true := by
  have all : ∀ each ∈ List.range 10, (digitChar each).isDigit = true := by decide
  exact all digit (List.mem_range.mpr small)

theorem isDigit_of_mem_digits {n : Nat} {c : Char} (member : c ∈ digits n) : c.isDigit = true := by
  fun_induction digits n with
  | case1 n small =>
    rw [List.mem_singleton.mp member]
    exact isDigit_digitChar small
  | case2 n large ih =>
    rcases List.mem_append.mp member with higher | last
    · exact ih higher
    · rw [List.mem_singleton.mp last]
      exact isDigit_digitChar (Nat.mod_lt _ (by decide))

theorem length_digits_le {n width : Nat} (positive : 0 < width) (small : n < 10 ^ width) :
    (digits n).length ≤ width := by
  fun_induction digits n generalizing width with
  | case1 n => exact positive
  | case2 n large ih =>
    obtain ⟨width, rfl⟩ : ∃ rest, width = rest + 1 := ⟨width - 1, by omega⟩
    have wide : 0 < width := by
      rcases Nat.eq_zero_or_pos width with rfl | wide
      · omega
      · exact wide
    have shorter := ih wide (Nat.div_lt_of_lt_mul (by rw [Nat.pow_succ] at small; omega))
    rw [List.length_append, List.length_singleton]
    omega

theorem isDigit_of_mem_padded {width n : Nat} {c : Char} (member : c ∈ padded width n) :
    c.isDigit = true := by
  rcases List.mem_append.mp member with zero | digit
  · rw [(List.mem_replicate.mp zero).2]
    decide
  · exact isDigit_of_mem_digits digit

theorem length_padded {width n : Nat} (positive : 0 < width) (small : n < 10 ^ width) :
    (padded width n).length = width := by
  have short := length_digits_le positive small
  rw [padded, List.length_append, List.length_replicate]
  omega

theorem padded_ne_nil (width n : Nat) : padded width n ≠ [] := by
  unfold padded
  fun_cases digits n <;> simp

theorem ofDigits_padded (width n : Nat) : ofDigits (padded width n) = n := by
  have zeros (count : Nat) (chars : List Char) :
      ofDigits (List.replicate count '0' ++ chars) = ofDigits chars := by
    induction count with
    | zero => rfl
    | succ count ih => exact ih
  rw [padded, zeros, ofDigits_digits]

end Decimal

namespace Time.Timestamp

open Decimal (padded)

theorem takeWhile_padded (width n : Nat) (rest : List Char) :
    (padded width n ++ rest).takeWhile Char.isDigit = padded width n ++ rest.takeWhile Char.isDigit :=
  List.takeWhile_append_of_pos fun _ member => Decimal.isDigit_of_mem_padded member

section

variable (width n : Nat) {mark : Char} (rest : List Char) (stops : mark.isDigit = false)
include stops

theorem takeWhile_padded_cons :
    (padded width n ++ mark :: rest).takeWhile Char.isDigit = padded width n := by
  rw [takeWhile_padded, List.takeWhile_cons_of_neg (by simp [stops]), List.append_nil]

theorem dropWhile_padded_cons : (padded width n ++ mark :: rest).dropWhile Char.isDigit = mark :: rest := by
  rw [List.dropWhile_append_of_pos fun _ member => Decimal.isDigit_of_mem_padded member,
    List.dropWhile_cons_of_neg (by simp [stops])]

end

theorem dropBlanks_padded (width n : Nat) (rest : List Char) :
    Text.dropBlanks (padded width n ++ rest) = padded width n ++ rest := by
  obtain ⟨first, others, cons⟩ := List.exists_cons_of_ne_nil (Decimal.padded_ne_nil width n)
  have digit : first.isDigit = true := Decimal.isDigit_of_mem_padded (cons ▸ List.mem_cons_self)
  rw [cons, List.cons_append, Text.dropBlanks_cons _ (Text.not_isBlank_of_isDigit digit)]

theorem number?_padded {width n : Nat} (positive : 0 < width) (small : n < 10 ^ width) (rest : List Char) :
    number? width (padded width n ++ rest) = some (n, rest) := by
  have length := Decimal.length_padded positive small
  have taken : ((padded width n ++ rest).takeWhile Char.isDigit).take width = padded width n := by
    rw [takeWhile_padded, List.take_left' length]
  unfold number?
  dsimp only
  rw [dropBlanks_padded, taken, if_neg (by simp [Decimal.padded_ne_nil]), Decimal.ofDigits_padded,
    List.drop_left]

theorem signed_padded (width n : Nat) (value : Int → Int) {mark : Char} (rest : List Char)
    (stops : mark.isDigit = false) :
    year?.signed (padded width n ++ mark :: rest) value = some (value n, mark :: rest) := by
  unfold year?.signed
  dsimp only
  rw [takeWhile_padded_cons width n rest stops, dropWhile_padded_cons width n rest stops,
    if_neg (by simp [Decimal.padded_ne_nil]), Decimal.ofDigits_padded]

theorem year?_padded {n : Nat} (small : n < 10 ^ 4) (rest : List Char) :
    year? (padded 4 n ++ rest) = some ((n : Int), rest) := by
  have read := number?_padded (by decide) small rest
  obtain ⟨first, others, cons⟩ := List.exists_cons_of_ne_nil (Decimal.padded_ne_nil 4 n)
  have digit : first.isDigit = true := Decimal.isDigit_of_mem_padded (cons ▸ List.mem_cons_self)
  unfold year?
  rw [dropBlanks_padded]
  split
  next later sign =>
    rw [cons] at sign
    cases sign
    cases digit
  next later sign =>
    rw [cons] at sign
    cases sign
    cases digit
  next => rw [read]; rfl

theorem year?_writeYear (year : Int) {mark : Char} (rest : List Char) (stops : mark.isDigit = false) :
    year? (writeYear year ++ mark :: rest) = some (year, mark :: rest) := by
  unfold writeYear
  split
  next short =>
    rw [year?_padded (by omega)]
    rw [Int.toNat_of_nonneg short.1]
  next long =>
    split
    next negative =>
      have read := signed_padded 4 year.natAbs (fun magnitude => -magnitude) rest stops
      have same : -(year.natAbs : Int) = year := by omega
      rw [same] at read
      rw [List.cons_append, year?, Text.dropBlanks_cons _ (by decide)]
      exact read
    next positive =>
      have read := signed_padded 4 year.natAbs (fun magnitude => magnitude) rest stops
      have same : (year.natAbs : Int) = year := by omega
      rw [same] at read
      rw [List.cons_append, year?, Text.dropBlanks_cons _ (by decide)]
      exact read

theorem separator?_cons {mark : Char} (rest : List Char) (solid : Text.isBlank mark = false) :
    separator? mark (mark :: rest) = some rest := by
  rw [separator?, Text.dropBlanks_cons rest solid]
  exact if_pos rfl

theorem date?_write (date : Date) (rest : List Char) :
    date? (writeYear date.year ++ '-' :: (padded 2 date.month ++ '-' :: (padded 2 date.day ++ rest))) =
      some (date, rest) := by
  have months := date.monthInRange
  have days := date.dayInRange
  have most : daysInMonth date.year date.month ≤ 31 := by
    unfold daysInMonth
    split <;> split <;> omega
  unfold date?
  rw [year?_writeYear _ _ (by decide)]
  simp only [Option.bind_eq_bind, Option.bind_some]
  rw [separator?_cons _ (by decide)]
  simp only [Option.bind_some]
  rw [number?_padded (by decide) (by omega)]
  simp only [Option.bind_some]
  rw [separator?_cons _ (by decide)]
  simp only [Option.bind_some]
  rw [number?_padded (by decide) (by omega)]
  simp only [Option.bind_some]
  rw [Date.of?_self]
  rfl

theorem fraction?_padded {width n : Nat} (positive : 0 < width) (most : width ≤ 9) (small : n < 10 ^ width)
    {mark : Char} (rest : List Char) (stops : mark.isDigit = false) :
    fraction? ('.' :: padded width n ++ mark :: rest) = some (n * 10 ^ (9 - width), mark :: rest) := by
  have length := Decimal.length_padded positive small
  unfold fraction?
  simp only [List.cons_append]
  rw [takeWhile_padded_cons width n rest stops, dropWhile_padded_cons width n rest stops,
    if_neg (by simp [Decimal.padded_ne_nil]), List.take_of_length_le (by omega),
    Decimal.ofDigits_padded, length]
  rfl

theorem fraction?_writeFraction {nanos : Nat} (small : nanos < nanosPerSecond) :
    fraction? (writeFraction nanos ++ ['Z']) = some (nanos, ['Z']) := by
  have bound : nanos < 1000000000 := small
  unfold writeFraction
  split
  next zero => rw [zero]; rfl
  next =>
    split
    next =>
      rw [fraction?_padded (by decide) (by decide) (by omega) [] (by decide)]
      simp only [Option.some.injEq, Prod.mk.injEq, and_true]
      omega
    next =>
      split
      next =>
        rw [fraction?_padded (by decide) (by decide) (by omega) [] (by decide)]
        simp only [Option.some.injEq, Prod.mk.injEq, and_true]
        omega
      next =>
        rw [fraction?_padded (by decide) (by decide) (by omega) [] (by decide)]
        simp only [Option.some.injEq, Prod.mk.injEq, and_true]
        omega

theorem of?_self (t : Timestamp) : of? t.date t.hour t.minute t.second t.nanos = some t :=
  dif_pos ⟨t.inDay, t.nanosInRange⟩

theorem ofLocal?_utc (date : Date) {hour minute : Nat} (second nanos : Nat) (hours : hour < 24)
    (minutes : minute < 60) :
    ofLocal? date hour minute second nanos 0 = of? date hour minute second nanos := by
  have minuteOfDay : ((((hour * 60 + minute : Nat) : Int) - 0) % 1440).toNat = hour * 60 + minute := by omega
  have hourOfDay : (hour * 60 + minute) / 60 = hour := by omega
  have minuteOfHour : (hour * 60 + minute) % 60 = minute := by omega
  unfold ofLocal?
  dsimp only
  rw [if_neg (by omega), if_neg (by omega), minuteOfDay, hourOfDay, minuteOfHour]
  rfl

/-- A leap second is written as the second sixty, and is read as a count of nanoseconds
of one second more. -/
theorem ofLocal?_shown (t : Timestamp) :
    (if t.second + t.nanos / nanosPerSecond = 60 then
      ofLocal? t.date t.hour t.minute 59 (t.nanos % nanosPerSecond + nanosPerSecond) 0
    else ofLocal? t.date t.hour t.minute (t.second + t.nanos / nanosPerSecond) (t.nanos % nanosPerSecond) 0) =
      some t := by
  obtain ⟨hours, minutes, seconds⟩ := t.inDay
  rcases Nat.lt_or_ge t.nanos nanosPerSecond with within | leap
  · have whole : t.nanos / nanosPerSecond = 0 := Nat.div_eq_of_lt within
    have part : t.nanos % nanosPerSecond = t.nanos := Nat.mod_eq_of_lt within
    rw [whole, part, if_neg (by omega), ofLocal?_utc _ _ _ hours minutes]
    exact of?_self t
  · have last : t.second = 59 ∧ t.nanos < 2 * nanosPerSecond :=
      t.nanosInRange.resolve_left (Nat.not_lt.mpr leap)
    have whole : t.nanos / nanosPerSecond = 1 := Nat.div_eq_of_lt_le (by omega) (by omega)
    have part : t.nanos % nanosPerSecond + nanosPerSecond = t.nanos := by
      rw [Nat.mod_eq_sub_mod leap, Nat.mod_eq_of_lt (by omega), Nat.sub_add_cancel leap]
    rw [whole, part, if_pos (by omega), ofLocal?_utc _ _ _ hours minutes, ← last.1]
    exact of?_self t

theorem parse?_render (t : Timestamp) : parse? t.render = some t := by
  obtain ⟨hours, minutes, seconds⟩ := t.inDay
  have second : t.second + t.nanos / nanosPerSecond < 10 ^ 2 := by
    have few : t.nanos / nanosPerSecond < 2 := by
      have nanos := t.nanosInRange
      exact Nat.div_lt_of_lt_mul (by omega)
    omega
  have part : t.nanos % nanosPerSecond < nanosPerSecond := Nat.mod_lt _ (by decide)
  unfold parse? render
  rw [String.toList_ofList]
  unfold ofChars? write
  simp only [List.append_assoc, List.cons_append]
  rw [date?_write]
  simp only [Option.bind_eq_bind, Option.bind_some]
  rw [number?_padded (by decide) (by omega)]
  simp only [Option.bind_some]
  rw [separator?_cons _ (by decide)]
  simp only [Option.bind_some]
  rw [number?_padded (by decide) (by omega)]
  simp only [Option.bind_some]
  rw [separator?_cons _ (by decide)]
  simp only [Option.bind_some]
  rw [number?_padded (by decide) second]
  simp only [Option.bind_some]
  rw [fraction?_writeFraction part]
  have utc : offset? (Text.dropBlanks ['Z']) = some (0, []) := rfl
  simp only [Option.bind_some, utc]
  rw [if_pos ⟨rfl, hours, minutes⟩]
  exact ofLocal?_shown t

end Time.Timestamp

end Colloquy
