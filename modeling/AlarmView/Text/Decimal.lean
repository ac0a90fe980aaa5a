/-!
# Decimal numbers

Reading and writing natural numbers with the ten ASCII digits.
-/

namespace AlarmView.Text

/-- The value of a text of one or more digits; leading zeros are allowed. -/
def natural? (s : List Char) : Option Nat :=
  if s ≠ [] ∧ s.all Char.isDigit then some (Nat.ofDigitChars 10 s 0) else none

/-- The digits of a number, filled up with leading zeros to at least `width` digits. -/
def padded (width n : Nat) : List Char :=
  let digits := Nat.toDigits 10 n
  List.replicate (width - digits.length) '0' ++ digits

def splitDigits (limit : Nat) (s : List Char) : List Char × List Char :=
  let digits := (s.take limit).takeWhile Char.isDigit
  (digits, s.drop digits.length)

theorem natural?_toDigits (n : Nat) : natural? (Nat.toDigits 10 n) = some n := by
  have allDigits : ∀ c ∈ Nat.toDigits 10 n, c.isDigit = true := fun c member =>
    Nat.isDigit_of_mem_toDigits (by decide) (by decide) member
  simp only [natural?, List.all_eq_true]
  rw [if_pos ⟨Nat.toDigits_ne_nil, allDigits⟩, Nat.ofDigitChars_ten_toDigits]

end AlarmView.Text
