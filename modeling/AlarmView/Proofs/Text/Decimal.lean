import AlarmView.Text.Blank
import AlarmView.Text.Decimal
import Mathlib.Algebra.Group.Nat.Defs
import Mathlib.Data.List.Induction

/-!
# Numbers within texts

A number that is written with leading zeros reads back, also where more text stands behind it.
One or more decimal digits are read as the number that they write, and no other text is read.
-/

namespace AlarmView.Text

theorem isBlank_of_isDigit {c : Char} (digit : c.isDigit = true) : isBlank c = false := by
  simp only [Char.isDigit, Bool.and_eq_true, decide_eq_true_eq, UInt32.le_iff_toNat_le] at digit
  have lower : 48 ≤ c.toNat := digit.1
  have upper : c.toNat ≤ 57 := digit.2
  simp only [isBlank, Bool.or_eq_false_iff, Bool.and_eq_false_iff, decide_eq_false_iff_not,
    beq_eq_false_iff_ne]
  omega

theorem isDigit_of_mem_toDigits {n : Nat} {c : Char} (member : c ∈ Nat.toDigits 10 n) :
    c.isDigit :=
  Nat.isDigit_of_mem_toDigits (by decide) (by decide) member

theorem isDigit_of_mem_padded {width n : Nat} {c : Char} (member : c ∈ padded width n) :
    c.isDigit := by
  simp only [padded, List.mem_append, List.mem_replicate] at member
  rcases member with ⟨_, rfl⟩ | digit
  · decide
  · exact isDigit_of_mem_toDigits digit

/-- Only zero is written with a zero in front. -/
theorem head?_toDigits {n : Nat} (positive : 0 < n) : (Nat.toDigits 10 n).head? ≠ some '0' := by
  induction n using Nat.strongRecOn with
  | ind n ih =>
      by_cases small : n < 10
      · have single : ∀ digit < 10, 0 < digit → [digit.digitChar].head? ≠ some '0' := by decide
        rw [Nat.toDigits_of_lt_base small]
        exact single n small positive
      · have front := ih (n / 10) (by omega) (by omega)
        rw [Nat.toDigits_of_base_le (by decide) (by omega)]
        obtain ⟨first, rest, parts⟩ := List.exists_cons_of_ne_nil
          (Nat.toDigits_ne_nil (b := 10) (n := n / 10))
        rw [parts] at front ⊢
        exact front

theorem padded_ne_nil (width n : Nat) : padded width n ≠ [] := by
  simp [padded]

theorem length_padded {width n : Nat} (positive : 0 < width) (small : n < 10 ^ width) :
    (padded width n).length = width := by
  have short := (Nat.length_toDigits_le_iff (by decide) positive).mpr small
  rw [padded, List.length_append, List.length_replicate]
  omega

private theorem ofDigitChars_zeros (count : Nat) :
    Nat.ofDigitChars 10 (List.replicate count '0') 0 = 0 := by
  induction count with
  | zero => rfl
  | succ count ih => rw [List.replicate_succ, Nat.ofDigitChars_cons]; exact ih

theorem ofDigitChars_padded (width n : Nat) : Nat.ofDigitChars 10 (padded width n) 0 = n := by
  rw [padded, Nat.ofDigitChars_append, ofDigitChars_zeros, Nat.ofDigitChars_ten_toDigits]

theorem natural?_padded (width n : Nat) : natural? (padded width n) = some n := by
  rw [natural?, if_pos, ofDigitChars_padded]
  exact ⟨padded_ne_nil width n, List.all_eq_true.mpr fun c => isDigit_of_mem_padded⟩

/-- Whether a text does not go on with a digit. -/
def EndsNumber (rest : List Char) : Prop :=
  ∀ c ∈ rest.head?, c.isDigit = false

theorem EndsNumber.nil : EndsNumber [] := by
  rintro c ⟨⟩

theorem takeWhile_isDigit {digits rest : List Char} (all : ∀ c ∈ digits, c.isDigit = true)
    (ends : EndsNumber rest) : (digits ++ rest).takeWhile Char.isDigit = digits := by
  rw [List.takeWhile_append_of_pos all]
  cases rest with
  | nil => simp
  | cons c rest => simp [ends c rfl]

theorem dropWhile_isDigit {digits rest : List Char} (all : ∀ c ∈ digits, c.isDigit = true)
    (ends : EndsNumber rest) : (digits ++ rest).dropWhile Char.isDigit = rest := by
  rw [List.dropWhile_append_of_pos all]
  cases rest with
  | nil => rfl
  | cons c rest => rw [List.dropWhile_cons_of_neg]; simp [ends c rfl]

theorem splitDigits_of_ends {limit : Nat} {digits rest : List Char}
    (all : ∀ c ∈ digits, c.isDigit = true) (short : digits.length ≤ limit)
    (ends : EndsNumber rest) : splitDigits limit (digits ++ rest) = (digits, rest) := by
  have first : ((digits ++ rest).take limit).takeWhile Char.isDigit = digits := by
    rw [List.take_append, List.take_of_length_le short]
    apply takeWhile_isDigit all
    intro c here
    rw [List.head?_take] at here
    split at here
    · simp at here
    · exact ends c here
  rw [splitDigits, first, List.drop_left]

theorem length_splitDigits_le (limit : Nat) (s : List Char) :
    (splitDigits limit s).1.length ≤ limit :=
  Nat.le_trans (List.takeWhile_sublist _).length_le (List.length_take_le limit s)

/-- Whether a text is one or more decimal digits that write a number, leading zeros allowed. -/
inductive Numeral : List Char → Nat → Prop where
  | digit {d : Nat} (small : d < 10) : Numeral [d.digitChar] d
  | append {digits : List Char} {n d : Nat} (front : Numeral digits n) (small : d < 10) :
      Numeral (digits ++ [d.digitChar]) (10 * n + d)

private theorem exists_digit {c : Char} (digit : c.isDigit = true) : ∃ d < 10, d.digitChar = c := by
  simp only [Char.isDigit, Bool.and_eq_true, decide_eq_true_eq, UInt32.le_iff_toNat_le] at digit
  have lower : 48 ≤ c.toNat := digit.1
  have upper : c.toNat ≤ 57 := digit.2
  refine ⟨c.toNat - 48, by omega, Char.toNat_inj.mp ?_⟩
  rw [Nat.toNat_digitChar_of_lt_ten (by omega)]
  omega

theorem ofDigitChars_concat (digits : List Char) {d : Nat} (small : d < 10) :
    Nat.ofDigitChars 10 (digits ++ [d.digitChar]) 0 =
      10 * Nat.ofDigitChars 10 digits 0 + d := by
  rw [Nat.ofDigitChars_append, Nat.ofDigitChars_cons, Nat.ofDigitChars_nil,
    Nat.toNat_digitChar_of_lt_ten small]
  simp

private theorem Numeral.ne_nil {digits : List Char} {n : Nat} (numeral : Numeral digits n) :
    digits ≠ [] := by
  cases numeral <;> simp

theorem Numeral.all_isDigit {digits : List Char} {n : Nat} (numeral : Numeral digits n) :
    ∀ c ∈ digits, c.isDigit = true := by
  induction numeral with
  | digit small => simp [Nat.isDigit_digitChar, small]
  | append front small ih =>
      refine List.forall_mem_append.mpr ⟨ih, ?_⟩
      simp [Nat.isDigit_digitChar, small]

private theorem Numeral.value {digits : List Char} {n : Nat} (numeral : Numeral digits n) :
    Nat.ofDigitChars 10 digits 0 = n := by
  induction numeral with
  | digit small => simpa using ofDigitChars_concat [] small
  | append front small ih => rw [ofDigitChars_concat _ small, ih]

theorem Numeral.lt {digits : List Char} {n : Nat} (numeral : Numeral digits n) :
    n < 10 ^ digits.length := by
  induction numeral with
  | digit small => simpa using small
  | append front small ih =>
      rw [List.length_append, List.length_singleton, Nat.pow_succ]
      omega

private theorem numeral_of_digits {digits : List Char} (nonempty : digits ≠ [])
    (all : ∀ c ∈ digits, c.isDigit = true) : Numeral digits (Nat.ofDigitChars 10 digits 0) := by
  induction digits using List.reverseRecOn with
  | nil => exact absurd rfl nonempty
  | append_singleton front c ih =>
      obtain ⟨allFront, last⟩ := List.forall_mem_append.mp all
      obtain ⟨d, small, rfl⟩ := exists_digit (last c (List.mem_singleton_self c))
      rw [ofDigitChars_concat front small]
      cases front with
      | nil => simpa using Numeral.digit small
      | cons first rest => exact .append (ih (List.cons_ne_nil first rest) allFront) small

/-- Exactly the numerals are read, as the numbers that they write. -/
theorem natural?_eq_some_iff {digits : List Char} {n : Nat} :
    natural? digits = some n ↔ Numeral digits n := by
  constructor
  · intro read
    rw [natural?] at read
    split at read
    · next number =>
        obtain rfl := Option.some.inj read
        exact numeral_of_digits number.1 (List.all_eq_true.mp number.2)
    · exact absurd read (by simp)
  · intro numeral
    rw [natural?, if_pos ⟨numeral.ne_nil, List.all_eq_true.mpr numeral.all_isDigit⟩,
      numeral.value]

end AlarmView.Text
