import AlarmView.Proofs.Text.Decimal
import Mathlib.Data.List.Lex

/-!
# The order of written numbers

Numbers that are written with the same number of digits stand in the order of their texts, and so do
rows of such numbers with marks between them.
-/

namespace AlarmView.Text

theorem append_lt_append_iff {α : Type} [LT α] [@Std.Irrefl α (· < ·)]
    {first second : List α} (same : first.length = second.length) (rest other : List α) :
    first ++ rest < second ++ other ↔ first < second ∨ first = second ∧ rest < other := by
  induction first generalizing second with
  | nil =>
      obtain rfl := List.length_eq_zero_iff.mp same.symm
      simp
  | cons head tail ih =>
      cases second with
      | nil => simp at same
      | cons front later =>
          have lengths : tail.length = later.length := by simpa using same
          rw [List.cons_append, List.cons_append, List.cons_lt_cons_iff, ih lengths,
            List.cons_lt_cons_iff, List.cons.injEq]
          tauto

/-- The last digit of a number stands behind the number without it. -/
theorem padded_succ {width : Nat} (positive : 0 < width) (n : Nat) :
    padded (width + 1) n = padded width (n / 10) ++ [(n % 10).digitChar] := by
  by_cases small : n < 10
  · have single : Nat.toDigits 10 0 = ['0'] := rfl
    have zeros : List.replicate width '0' = List.replicate (width - 1) '0' ++ ['0'] := by
      rw [← List.replicate_succ', Nat.sub_add_cancel positive]
    rw [padded, padded, Nat.div_eq_of_lt small, Nat.toDigits_of_lt_base small,
      Nat.mod_eq_of_lt small, single, List.length_singleton, List.length_singleton,
      Nat.add_sub_cancel, ← zeros]
  · rw [padded, padded, Nat.toDigits_of_base_le (by decide) (Nat.not_lt.mp small)]
    simp only [List.length_append, List.length_singleton, Nat.add_sub_add_right,
      List.append_assoc]

private theorem digitChar_lt_iff {m n : Nat} (left : m < 10) (right : n < 10) :
    m.digitChar < n.digitChar ↔ m < n := by
  have all : ∀ m < 10, ∀ n < 10, (m.digitChar < n.digitChar ↔ m < n) := by decide
  exact all m left n right

theorem padded_injective {width m n : Nat} (same : padded width m = padded width n) : m = n := by
  rw [← ofDigitChars_padded width m, same, ofDigitChars_padded]

private theorem padded_lt_padded {width : Nat} (positive : 0 < width) {m n : Nat}
    (left : m < 10 ^ width)
    (right : n < 10 ^ width) : padded width m < padded width n ↔ m < n := by
  induction width, positive using Nat.le_induction generalizing m n with
  | base =>
      have single (k : Nat) (digit : k < 10) : padded 1 k = [k.digitChar] := by
        rw [padded, Nat.toDigits_of_lt_base digit]
        rfl
      rw [single m left, single n right, List.cons_lt_cons_iff, digitChar_lt_iff left right]
      simp
  | succ width positive ih =>
      have leading {k : Nat} (fits : k < 10 ^ (width + 1)) : k / 10 < 10 ^ width := by
        rw [Nat.pow_succ] at fits
        omega
      have lengths : (padded width (m / 10)).length = (padded width (n / 10)).length := by
        rw [length_padded positive (leading left), length_padded positive (leading right)]
      have equal : padded width (m / 10) = padded width (n / 10) ↔ m / 10 = n / 10 :=
        ⟨padded_injective, congrArg _⟩
      rw [padded_succ positive, padded_succ positive, append_lt_append_iff lengths,
        ih (leading left) (leading right), equal, List.cons_lt_cons_iff,
        digitChar_lt_iff (Nat.mod_lt _ (by decide)) (Nat.mod_lt _ (by decide))]
      simp only [List.lt_irrefl, and_false, or_false]
      omega

/-- Numbers of fixed widths, each with a mark behind it. -/
def row : List (Nat × Char) → List Nat → List Char
  | (width, mark) :: fields, n :: numbers => padded width n ++ mark :: row fields numbers
  | _, _ => []

/-- Whether there is a number for each field that fits into its width. -/
def Fits (fields : List (Nat × Char)) (numbers : List Nat) : Prop :=
  List.Forall₂ (fun field n => 0 < field.1 ∧ n < 10 ^ field.1) fields numbers

theorem row_lt_row {fields : List (Nat × Char)} {first second : List Nat}
    (left : Fits fields first) (right : Fits fields second) :
    row fields first < row fields second ↔ first < second := by
  induction left generalizing second with
  | nil =>
      cases right
      simp [row]
  | @cons field n fields numbers fit _ ih =>
      cases right with
      | @cons _ m _ others fits rest =>
          have lengths : (padded field.1 n).length = (padded field.1 m).length := by
            rw [length_padded fit.1 fit.2, length_padded fit.1 fits.2]
          have equal : padded field.1 n = padded field.1 m ↔ n = m :=
            ⟨padded_injective, congrArg _⟩
          rw [row, row, append_lt_append_iff lengths, padded_lt_padded fit.1 fit.2 fits.2, equal,
            List.cons_lt_cons_iff, List.cons_lt_cons_iff, ih rest]
          simp

end AlarmView.Text
