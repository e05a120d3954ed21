import Colloquy.Text.Blank
import Mathlib.Data.List.TakeWhile

/-! Blanks around a text. Trimming takes blanks only, and all of them up to a solid
character on either side. -/
namespace Colloquy.Text

theorem not_isBlank_of_isDigit {c : Char} (digit : c.isDigit = true) : isBlank c = false := by
  have all : ∀ code ∈ List.range 58, (Char.ofNat code).isDigit = true → isBlank (Char.ofNat code) = false := by
    decide
  have bound : c.toNat < 58 := by
    simp only [Char.isDigit, Bool.and_eq_true, decide_eq_true_eq] at digit
    exact Nat.lt_succ_of_le digit.2
  have solid := all c.toNat (List.mem_range.mpr bound)
  rw [Char.ofNat_toNat] at solid
  exact solid digit

theorem dropBlanks_cons {c : Char} (rest : List Char) (solid : isBlank c = false) :
    dropBlanks (c :: rest) = c :: rest := by
  rw [dropBlanks, List.dropWhile_cons_of_neg (by simp [solid])]

theorem dropBlanks_append {before : List Char} (blank : ∀ c ∈ before, isBlank c = true) (rest : List Char) :
    dropBlanks (before ++ rest) = dropBlanks rest :=
  List.dropWhile_append_of_pos blank

theorem dropBlanksRight_append {after : List Char} (blank : ∀ c ∈ after, isBlank c = true) (chars : List Char) :
    dropBlanksRight (chars ++ after) = dropBlanksRight chars := by
  rw [dropBlanksRight, List.reverse_append,
    dropBlanks_append fun c inside => blank c (List.mem_reverse.mp inside), dropBlanksRight]

theorem dropBlanksRight_concat {c : Char} (chars : List Char) (solid : isBlank c = false) :
    dropBlanksRight (chars ++ [c]) = chars ++ [c] := by
  rw [dropBlanksRight, List.reverse_concat, dropBlanks_cons _ solid, List.reverse_cons, List.reverse_reverse]

theorem exists_blanks_after (chars : List Char) :
    ∃ after, chars = dropBlanksRight chars ++ after ∧ ∀ c ∈ after, isBlank c = true := by
  refine ⟨(chars.reverse.takeWhile isBlank).reverse, ?_, ?_⟩
  · rw [dropBlanksRight, dropBlanks, ← List.reverse_append, List.takeWhile_append_dropWhile, List.reverse_reverse]
  · intro c inside
    exact List.mem_takeWhile_imp (List.mem_reverse.mp inside)

theorem exists_blanks_around (text : String) :
    ∃ before after, text.toList = before ++ (trim text).toList ++ after ∧
      ∀ c ∈ before ++ after, isBlank c = true := by
  obtain ⟨after, rest, blank⟩ := exists_blanks_after (dropBlanks text.toList)
  refine ⟨text.toList.takeWhile isBlank, after, ?_, ?_⟩
  · rw [List.append_assoc, trim, String.toList_ofList, ← rest, dropBlanks, List.takeWhile_append_dropWhile]
  · intro c inside
    rcases List.mem_append.mp inside with early | late
    · exact List.mem_takeWhile_imp early
    · exact blank c late

/-- What is solid at both ends is what is left. -/
theorem toList_trim {text : String} {before after : List Char} {first last : Char} {inner middle : List Char}
    (whole : text.toList = before ++ middle ++ after) (blank : ∀ c ∈ before ++ after, isBlank c = true)
    (starts : middle = first :: inner) (solidFirst : isBlank first = false)
    (ends : middle.getLast? = some last) (solidLast : isBlank last = false) : (trim text).toList = middle := by
  obtain ⟨chars, shape⟩ := List.getLast?_eq_some_iff.mp ends
  have left : dropBlanks text.toList = middle ++ after := by
    rw [whole, List.append_assoc, dropBlanks_append fun c inside => blank c (List.mem_append_left _ inside),
      starts, List.cons_append, dropBlanks_cons _ solidFirst]
  rw [trim, String.toList_ofList, left,
    dropBlanksRight_append fun c inside => blank c (List.mem_append_right _ inside), shape,
    dropBlanksRight_concat _ solidLast]

end Colloquy.Text
