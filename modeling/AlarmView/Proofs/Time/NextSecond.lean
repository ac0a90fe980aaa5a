import AlarmView.Proofs.Time.QueryText
import AlarmView.Query.Compile

/-!
# The bound behind a last second

The excluded bound of a last included second comes one second later.  Later instants have later
bounds, with two exceptions: a leap second shares its bound with the second in front of it, and an
instant of the last second of all is its own bound.
-/

namespace AlarmView.Instant

variable {s t : Instant}

/-- The seconds that have passed at an instant; a leap second does not count. -/
def clock (t : Instant) : Int :=
  t.day * 86400 + t.second

/-- The greatest number of seconds that have passed at an instant. -/
def finalClock : Int :=
  Date.firstDayOfYear 262143 * 86400 - 1

private theorem clock_le (t : Instant) : t.clock ≤ finalClock := by
  have inDay := t.second_lt
  have inRange := t.day_lt
  rw [clock, finalClock]
  omega

private theorem ext_clock (clocks : s.clock = t.clock) (nanos : s.nano = t.nano) : s = t := by
  have inDay := s.second_lt
  have inDay' := t.second_lt
  rw [clock, clock] at clocks
  have days : s.day = t.day := by omega
  have seconds : s.second = t.second := by omega
  cases s
  cases t
  simp_all

theorem lt_iff : s < t ↔ s.clock < t.clock ∨ s.clock = t.clock ∧ s.nano < t.nano := by
  have inDay := s.second_lt
  have inDay' := t.second_lt
  have parts : s < t ↔ s.day < t.day ∨
      s.day = t.day ∧ (s.second < t.second ∨ s.second = t.second ∧ s.nano < t.nano) := Iff.rfl
  rw [parts, clock, clock]
  omega

theorem le_iff : s ≤ t ↔ s.clock < t.clock ∨ s.clock = t.clock ∧ s.nano ≤ t.nano := by
  have not_lt : s ≤ t ↔ ¬ t < s := Iff.rfl
  rw [not_lt, lt_iff]
  omega

/-- Whether an instant lies in the last second of all or in its leap second. -/
def IsFinal (t : Instant) : Prop :=
  t.clock = finalClock

instance (t : Instant) : Decidable t.IsFinal :=
  inferInstanceAs (Decidable (_ = _))

private theorem addSecond?_of_final (final : t.IsFinal) : t.addSecond? = none := by
  have inDay := t.second_lt
  have inRange := t.day_lt
  rw [IsFinal, clock, finalClock] at final
  rw [addSecond?, if_neg (by omega), of?, dif_neg (by omega)]

private theorem exists_addSecond? (further : ¬ t.IsFinal) :
    ∃ next, t.addSecond? = some next ∧ next.clock = t.clock + 1 ∧ next.nano = t.fraction := by
  have inDay := t.second_lt
  have inRange := t.day_lt
  have first := t.firstDay_le
  have fraction : t.nano % nanosPerSecond < 1000000000 := Nat.mod_lt _ (by decide)
  rw [IsFinal, clock, finalClock] at further
  rw [addSecond?]
  split
  · next sameDay =>
      rw [of?, dif_pos ⟨first, inRange, sameDay, by omega⟩]
      refine ⟨_, rfl, ?_, rfl⟩
      simp only [clock]
      omega
  · next nextDay =>
      rw [of?, dif_pos ⟨by omega, by omega, by decide, by omega⟩]
      refine ⟨_, rfl, ?_, rfl⟩
      simp only [clock]
      omega

theorem secondAfter_of_final (final : t.IsFinal) : secondAfter t = t := by
  rw [secondAfter, addSecond?_of_final final, Option.getD_none]

theorem secondAfter_of_not_final (further : ¬ t.IsFinal) :
    (secondAfter t).clock = t.clock + 1 ∧ (secondAfter t).nano = t.fraction := by
  obtain ⟨next, added, clock, nano⟩ := exists_addSecond? further
  rw [secondAfter, added, Option.getD_some]
  exact ⟨clock, nano⟩

/-- Whether an instant has a later bound than one behind it. -/
inductive Overtakes (s t : Instant) : Prop where
  /-- The later instant lies in the leap second behind the second of the earlier one. -/
  | leapSecond : s.clock = t.clock → ¬ s.isLeap → t.isLeap → ¬ t.IsFinal →
      t.fraction < s.fraction → Overtakes s t
  /-- The later instant lies in the last second of all, where the bound of the earlier one is. -/
  | finalSecond : s.clock + 1 = t.clock → t.IsFinal → t.nano < s.fraction → Overtakes s t

private theorem overtakes_iff :
    s.Overtakes t ↔
      (s.clock = t.clock ∧ ¬ s.isLeap ∧ t.isLeap ∧ ¬ t.IsFinal ∧ t.fraction < s.fraction) ∨
        (s.clock + 1 = t.clock ∧ t.IsFinal ∧ t.nano < s.fraction) := by
  constructor
  · intro overtakes
    cases overtakes with
    | leapSecond same plain leap further more => exact .inl ⟨same, plain, leap, further, more⟩
    | finalSecond next final more => exact .inr ⟨next, final, more⟩
  · rintro (⟨same, plain, leap, further, more⟩ | ⟨next, final, more⟩)
    · exact .leapSecond same plain leap further more
    · exact .finalSecond next final more

/-- A later instant has a later bound unless it is overtaken. -/
theorem secondAfter_le_iff (ordered : s ≤ t) :
    secondAfter s ≤ secondAfter t ↔ ¬ s.Overtakes t := by
  have inRange := t.clock_le
  have inRange' := s.clock_le
  have bounded := s.nano_lt
  have bounded' := t.nano_lt
  rw [overtakes_iff, le_iff, isLeap_iff, isLeap_iff, fraction, fraction, nanosPerSecond]
  rw [le_iff] at ordered
  by_cases final : s.IsFinal
  · have later : t.IsFinal := by
      rw [IsFinal] at final ⊢
      omega
    rw [secondAfter_of_final final, secondAfter_of_final later]
    rw [IsFinal] at final later
    simp only [IsFinal]
    omega
  · obtain ⟨clock, nano⟩ := secondAfter_of_not_final final
    by_cases later : t.IsFinal
    · rw [secondAfter_of_final later, clock, nano, fraction, nanosPerSecond]
      rw [IsFinal] at final later
      simp only [IsFinal]
      omega
    · -- Both move on, but only their fractions do, so the order turns around in a leap second.
      obtain ⟨clock', nano'⟩ := secondAfter_of_not_final later
      rw [clock, nano, clock', nano', fraction, fraction, nanosPerSecond]
      simp only [later, not_false_eq_true, true_and, false_and, and_false, or_false]
      omega

/-- No bound lies in a leap second off the end of a minute. -/
theorem readBack_secondAfter (t : Instant) : (secondAfter t).readBack = secondAfter t := by
  apply readBack_of_not_offMinute
  by_cases final : t.IsFinal
  · have inDay := t.second_lt
    rw [secondAfter_of_final final]
    rw [IsFinal, clock, finalClock] at final
    rintro ⟨_, inside⟩
    omega
  · have small : t.fraction < 1000000000 := Nat.mod_lt _ (by decide)
    rintro ⟨leap, _⟩
    rw [isLeap_iff, (secondAfter_of_not_final final).2] at leap
    omega

theorem clock_truncated (t : Instant) : t.truncated.clock = t.clock := rfl

theorem nano_truncated (t : Instant) : t.truncated.nano = t.nano / 100 * 100 := rfl

theorem isFinal_truncated (t : Instant) : t.truncated.IsFinal ↔ t.IsFinal := by
  rw [IsFinal, IsFinal, clock_truncated]

theorem truncated_le (ordered : s ≤ t) : s.truncated ≤ t.truncated := by
  rw [le_iff] at ordered
  rw [le_iff, clock_truncated, clock_truncated, nano_truncated, nano_truncated]
  omega

theorem secondAfter_truncated (t : Instant) :
    secondAfter t.truncated = (secondAfter t).truncated := by
  have same := isFinal_truncated t
  by_cases final : t.IsFinal
  · rw [secondAfter_of_final final, secondAfter_of_final (same.mpr final)]
  · obtain ⟨clock, nano⟩ := secondAfter_of_not_final final
    obtain ⟨clock', nano'⟩ := secondAfter_of_not_final (mt same.mp final)
    apply ext_clock
    · rw [clock', clock_truncated, clock_truncated, clock]
    · rw [nano', fraction_truncated, nano_truncated, nano]

theorem Overtakes.of_truncated (overtakes : s.truncated.Overtakes t.truncated) :
    s.Overtakes t := by
  cases overtakes with
  | leapSecond same plain leap further more =>
      rw [clock_truncated, clock_truncated] at same
      rw [isLeap_truncated] at plain leap
      rw [isFinal_truncated] at further
      rw [fraction_truncated, fraction_truncated] at more
      exact .leapSecond same plain leap further (by omega)
  | finalSecond next final more =>
      rw [clock_truncated, clock_truncated] at next
      rw [isFinal_truncated] at final
      rw [fraction_truncated, nano_truncated] at more
      exact .finalSecond next final (by omega)

end AlarmView.Instant
