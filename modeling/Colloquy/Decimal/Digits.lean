/-! Natural numbers and integers in decimal digits, most significant first. -/
namespace Colloquy.Decimal

def digitChar (digit : Nat) : Char :=
  Char.ofNat (digit + 48)

def digitValue (c : Char) : Nat :=
  c.toNat - 48

def digits (n : Nat) : List Char :=
  if n < 10 then [digitChar n] else digits (n / 10) ++ [digitChar (n % 10)]
termination_by n

def ofDigits (chars : List Char) : Nat :=
  chars.foldl (fun value c => value * 10 + digitValue c) 0

def padded (width n : Nat) : List Char :=
  List.replicate (width - (digits n).length) '0' ++ digits n

def signed : Int → List Char
  | .ofNat n => digits n
  | .negSucc n => '-' :: digits (n + 1)

theorem ofDigits_append (left : List Char) (c : Char) :
    ofDigits (left ++ [c]) = ofDigits left * 10 + digitValue c := by
  simp [ofDigits]

theorem digitValue_digitChar {digit : Nat} (small : digit < 10) :
    digitValue (digitChar digit) = digit := by
  have all : ∀ each ∈ List.range 10, digitValue (digitChar each) = each := by decide
  exact all digit (List.mem_range.mpr small)

theorem ofDigits_digits (n : Nat) : ofDigits (digits n) = n := by
  fun_induction digits n with
  | case1 n small => simp [ofDigits, digitValue_digitChar small]
  | case2 n large ih =>
    rw [ofDigits_append, ih, digitValue_digitChar (by omega)]
    omega

end Colloquy.Decimal
