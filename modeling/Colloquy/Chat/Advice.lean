import Colloquy.Chat.Refusal
import Colloquy.Decimal.Digits

/-! How long the headers of a refusal advise to wait. Headers have no order of their own,
and two of them may have names that differ in the case of letters alone; so there may be
several that advise, and one of them is read. -/
namespace Colloquy

/-- A number of seconds as it may be written: decimal digits with at most one plus sign
before them, and blanks around. -/
inductive Spells (value : String) (seconds : UInt64) : Prop
  | digits (before sign number after : List Char) (whole : value.toList = before ++ (sign ++ number) ++ after)
      (blank : ∀ c ∈ before ++ after, Text.isBlank c = true) (plus : sign = [] ∨ sign = ['+'])
      (written : number ≠ []) (decimal : ∀ c ∈ number, c.isDigit = true)
      (counted : Decimal.ofDigits number = seconds.toNat)

/-- The headers of the one name, whatever the case of its letters. -/
def advisers (headers : List (String × String)) : List (String × String) :=
  headers.filter fun header => Text.equalIgnoringAsciiCase header.1 "retry-after"

/-- What is read where this header is the one that is read. -/
def Advises (header : String × String) (wait : Option UInt64) : Prop :=
  ∀ seconds, wait = some seconds ↔ Spells header.2 seconds

/-- All headers that advise spell the same number, or none of them spells one. -/
def Agree (headers : List (String × String)) : Prop :=
  ∀ one ∈ advisers headers, ∀ other ∈ advisers headers, ∀ seconds,
    Spells one.2 seconds ↔ Spells other.2 seconds

/-- A wait that is the same in whichever order the headers are listed, and that there is
as soon as one of those that advise spells a number. -/
structure Settles (wait : List (String × String) → Option UInt64) (headers : List (String × String)) : Prop where
  order : ∀ one other, one.Perm headers → other.Perm headers → wait one = wait other
  present : ∀ listed, listed.Perm headers →
    ((wait listed).isSome = true ↔ ∃ header ∈ advisers headers, ∃ seconds, Spells header.2 seconds)

end Colloquy
