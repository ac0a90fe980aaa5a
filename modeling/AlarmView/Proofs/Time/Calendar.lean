import AlarmView.Time.Instant
import Mathlib.Algebra.GroupWithZero.Nat
import Mathlib.Data.List.Basic

/-!
# Days of the calendar

The first days of the years stand in the order of the years, one length of a year apart, so each day
lies in exactly one year, and there in exactly one month.
-/

namespace AlarmView.Date

theorem firstDayOfYear_le {earlier later : Int} (ordered : earlier ≤ later) :
    firstDayOfYear earlier ≤ firstDayOfYear later := by
  simp only [firstDayOfYear]
  omega

private theorem firstDayOfYear_succ (year : Int) :
    firstDayOfYear (year + 1) = firstDayOfYear year + (monthLengths year).sum := by
  have lengths : (monthLengths year).sum = if isLeapYear year then 366 else 365 := by
    rw [monthLengths]
    split <;> rfl
  have leap : isLeapYear year = true ↔ year % 4 = 0 ∧ (year % 100 ≠ 0 ∨ year % 400 = 0) := by
    simp [isLeapYear]
  rw [lengths]
  simp only [firstDayOfYear]
  split
  · next isLeap =>
      have divided := leap.mp isLeap
      omega
  · next notLeap =>
      have undivided : ¬(year % 4 = 0 ∧ (year % 100 ≠ 0 ∨ year % 400 = 0)) :=
        fun divided => notLeap (leap.mpr divided)
      omega

/-- A day lies in its year. -/
theorem yearOfDay_spec (number : Int) :
    firstDayOfYear (yearOfDay number) ≤ number ∧
      number < firstDayOfYear (yearOfDay number + 1) := by
  -- The guess is at most one year off, because the leap days are spread evenly over four centuries.
  have near : firstDayOfYear (400 * number / 146097) ≤ number ∧
      number < firstDayOfYear (400 * number / 146097 + 1 + 1 + 1) := by
    simp only [firstDayOfYear]
    omega
  obtain ⟨above, below⟩ := near
  simp only [yearOfDay]
  split
  · next early =>
      rw [Int.add_sub_cancel]
      exact ⟨above, early⟩
  · next notEarly =>
      split
      · next late => exact ⟨late, below⟩
      · next notLate => exact ⟨Int.not_lt.mp notEarly, Int.not_le.mp notLate⟩

theorem year_of_between {number first last : Int} (after : firstDayOfYear first ≤ number)
    (before : number < firstDayOfYear (last + 1)) :
    first ≤ yearOfDay number ∧ yearOfDay number ≤ last := by
  obtain ⟨above, below⟩ := yearOfDay_spec number
  constructor
  · by_contra early
    have ordered : firstDayOfYear (yearOfDay number + 1) ≤ firstDayOfYear first :=
      firstDayOfYear_le (by omega)
    omega
  · by_contra late
    have ordered : firstDayOfYear (last + 1) ≤ firstDayOfYear (yearOfDay number) :=
      firstDayOfYear_le (by omega)
    omega

/-- Counting days through months ends in the month that the days lead to. -/
theorem monthAndDay_spec {lengths : List Nat} (month passed : Nat)
    (within : passed < lengths.sum) :
    ∃ index, ∃ inside : index < lengths.length,
      (monthAndDay month lengths passed).1 = month + index ∧
        1 ≤ (monthAndDay month lengths passed).2 ∧
        (monthAndDay month lengths passed).2 ≤ lengths[index] ∧
        (lengths.take index).sum + (monthAndDay month lengths passed).2 = passed + 1 := by
  induction lengths generalizing month passed with
  | nil => simp at within
  | cons length lengths ih =>
      rw [List.sum_cons] at within
      rw [monthAndDay]
      split
      · next here =>
          exact ⟨0, by simp, rfl, by omega, here, by simp⟩
      · next later =>
          obtain ⟨index, inside, same, positive, short, total⟩ :=
            ih (month + 1) (passed - length) (by omega)
          refine ⟨index + 1, by simpa using inside, by omega, positive, short, ?_⟩
          rw [List.take_succ_cons, List.sum_cons]
          omega

private theorem length_monthLengths (year : Int) : (monthLengths year).length = 12 := rfl

private theorem foldl_add (lengths : List Nat) (start : Nat) :
    lengths.foldl (· + ·) start = start + lengths.sum := by
  induction lengths generalizing start with
  | nil => rfl
  | cons length lengths ih =>
      rw [List.foldl_cons, ih, List.sum_cons]
      omega

/-- The date of a day exists and leads back to the day. -/
theorem ofDayNumber_spec (number : Int) :
    (ofDayNumber number).year = yearOfDay number ∧
      1 ≤ (ofDayNumber number).month ∧ (ofDayNumber number).month ≤ 12 ∧
      (ofDayNumber number).Exists ∧ (ofDayNumber number).dayNumber = number := by
  obtain ⟨above, below⟩ := yearOfDay_spec number
  rw [firstDayOfYear_succ] at below
  have within : (number - firstDayOfYear (yearOfDay number)).toNat <
      (monthLengths (yearOfDay number)).sum := by omega
  obtain ⟨index, inside, month, positive, short, total⟩ :=
    monthAndDay_spec 1 (number - firstDayOfYear (yearOfDay number)).toNat within
  have date : ofDayNumber number =
      { year := yearOfDay number
        month := 1 + index
        day := (monthAndDay 1 (monthLengths (yearOfDay number))
          (number - firstDayOfYear (yearOfDay number)).toNat).2 } := by
    rw [← month]
    rfl
  have before : 1 + index - 1 = index := by omega
  have length : daysInMonth (yearOfDay number) (1 + index) =
      (monthLengths (yearOfDay number))[index] := by
    rw [daysInMonth, if_neg (by omega), before, List.getD_eq_getElem?_getD,
      List.getElem?_eq_getElem inside, Option.getD_some]
  have last : 1 + index ≤ 12 := by
    rw [length_monthLengths] at inside
    omega
  rw [date]
  refine ⟨rfl, Nat.le_add_right 1 index, last, ⟨positive, length ▸ short⟩, ?_⟩
  simp only [dayNumber, before, foldl_add]
  omega

theorem day_le {date : Date} (exists' : date.Exists) : date.day ≤ 31 := by
  obtain ⟨_, short⟩ := exists'
  have longest : daysInMonth date.year date.month ≤ 31 := by
    rw [daysInMonth]
    split
    · decide
    · rw [List.getD_eq_getElem?_getD]
      cases found : (monthLengths date.year)[date.month - 1]? with
      | none => exact Nat.zero_le 31
      | some length =>
          have member := List.mem_of_getElem? found
          rw [monthLengths] at member
          simp only [List.mem_cons, List.not_mem_nil, or_false] at member
          rw [Option.getD_some]
          split at member <;> omega
  exact Nat.le_trans short longest

end AlarmView.Date
