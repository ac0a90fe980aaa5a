import AlarmView.Proofs.Time.Calendar

/-!
# The order of dates

Later days have later dates: the year counts before the month and the month before the day.
-/

namespace AlarmView.Date

/-- Whether a date comes before another one, by year, month and day. -/
def Before (first second : Date) : Prop :=
  first.year < second.year ∨ first.year = second.year ∧
    (first.month < second.month ∨ first.month = second.month ∧ first.day < second.day)

private theorem Before.irrefl (date : Date) : ¬ date.Before date := by
  simp [Before]

private theorem Before.asymm {first second : Date} (before : first.Before second) :
    ¬ second.Before first := by
  unfold Before at before ⊢
  omega

private theorem yearOfDay_mono {a b : Int} (ordered : a ≤ b) : yearOfDay a ≤ yearOfDay b := by
  obtain ⟨above, _⟩ := yearOfDay_spec a
  obtain ⟨_, below⟩ := yearOfDay_spec b
  by_contra later
  have years : firstDayOfYear (yearOfDay b + 1) ≤ firstDayOfYear (yearOfDay a) :=
    firstDayOfYear_le (by omega)
  omega

private theorem month_le_monthAndDay (month : Nat) (lengths : List Nat) (passed : Nat) :
    month ≤ (monthAndDay month lengths passed).1 := by
  induction lengths generalizing month passed with
  | nil => exact Nat.le_refl month
  | cons length lengths ih =>
      rw [monthAndDay]
      split
      · exact Nat.le_refl month
      · exact Nat.le_of_succ_le (ih (month + 1) (passed - length))

/-- With more days passed, the month is later, or it is the same one and the day is later. -/
theorem monthAndDay_lt (month : Nat) (lengths : List Nat) {fewer more : Nat}
    (ordered : fewer < more) :
    (monthAndDay month lengths fewer).1 < (monthAndDay month lengths more).1 ∨
      (monthAndDay month lengths fewer).1 = (monthAndDay month lengths more).1 ∧
        (monthAndDay month lengths fewer).2 < (monthAndDay month lengths more).2 := by
  induction lengths generalizing month fewer more with
  | nil => exact .inr ⟨rfl, Nat.succ_lt_succ ordered⟩
  | cons length lengths ih =>
      rw [monthAndDay, monthAndDay]
      by_cases early : fewer < length
      · rw [if_pos early]
        by_cases late : more < length
        · rw [if_pos late]
          exact .inr ⟨rfl, Nat.succ_lt_succ ordered⟩
        · rw [if_neg late]
          exact .inl (month_le_monthAndDay (month + 1) lengths (more - length))
      · rw [if_neg early, if_neg (by omega)]
        exact ih (month + 1) (by omega)

private theorem before_of_lt {a b : Int} (ordered : a < b) :
    (ofDayNumber a).Before (ofDayNumber b) := by
  rcases Int.lt_or_eq_of_le (yearOfDay_mono (Int.le_of_lt ordered)) with earlier | same
  · exact .inl earlier
  · obtain ⟨above, _⟩ := yearOfDay_spec a
    have passed : (a - firstDayOfYear (yearOfDay a)).toNat <
        (b - firstDayOfYear (yearOfDay b)).toNat := by
      rw [← same]
      omega
    have months := monthAndDay_lt 1 (monthLengths (yearOfDay a)) passed
    refine .inr ⟨same, ?_⟩
    simp only [ofDayNumber, ← same] at months ⊢
    exact months

theorem before_iff {a b : Int} : (ofDayNumber a).Before (ofDayNumber b) ↔ a < b := by
  constructor
  · intro before
    rcases Int.lt_trichotomy a b with ordered | same | reversed
    · exact ordered
    · exact absurd (same ▸ before) (Before.irrefl _)
    · exact absurd before (before_of_lt reversed).asymm
  · exact before_of_lt

end AlarmView.Date
