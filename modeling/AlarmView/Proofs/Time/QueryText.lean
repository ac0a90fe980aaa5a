import AlarmView.Proofs.Text.Order
import AlarmView.Proofs.Time.Order
import AlarmView.Proofs.Time.RoundTrip

/-!
# Instants in queries

A query shows an instant with seven fraction digits.  The text reads back as the instant without
the nanoseconds that do not fill a step of a hundred, also within leap seconds and in years of more
than four digits; in years of four digits the texts stand in the order of the instants.  A leap
second off the end of a minute is shown as the second behind it, and counts as that second in all of
this.
-/

namespace AlarmView.Instant

open Text

/-- The instant without the nanoseconds that do not fill a step of a hundred. -/
def truncated (t : Instant) : Instant where
  day := t.day
  second := t.second
  nano := t.nano / 100 * 100
  firstDay_le := t.firstDay_le
  day_lt := t.day_lt
  second_lt := t.second_lt
  nano_lt := Nat.lt_of_le_of_lt (Nat.div_mul_le_self t.nano 100) t.nano_lt

theorem isLeap_truncated (t : Instant) : t.truncated.isLeap = t.isLeap := by
  have same : nanosPerSecond ≤ t.nano / 100 * 100 ↔ nanosPerSecond ≤ t.nano := by
    rw [nanosPerSecond]
    omega
  simp only [isLeap, truncated, same]

theorem fraction_truncated (t : Instant) : t.truncated.fraction = t.fraction / 100 * 100 := by
  simp only [fraction, truncated, nanosPerSecond]
  omega

theorem ofText?_queryText (t : Instant) : ofText? t.queryText = some t.readBack.truncated := by
  have small : t.fraction / 100 < 10 ^ 7 := by
    have below : t.fraction < 1000000000 := Nat.mod_lt _ (by decide)
    omega
  have zone : EndsNumber ['Z'] := endsNumber_cons [] (by decide)
  have point : EndsNumber ('.' :: padded 7 (t.fraction / 100) ++ ['Z']) :=
    endsNumber_cons _ (by decide)
  have fraction := readFraction_padded (by decide) (by decide) small zone
  have steps : t.fraction / 100 * 10 ^ (9 - 7) = t.readBack.truncated.fraction := by
    rw [fraction_truncated, fraction_readBack]
    rfl
  have read := ofChars?_text t point fraction
  rw [steps, ← isLeap_truncated, leap_add_fraction, ← day_readBack] at read
  rw [ofText?, queryText, String.toList_ofList, queryChars]
  simp only [List.append_assoc, List.cons_append] at read ⊢
  exact read.trans (of?_parts t.readBack.truncated)

@[simp] theorem queryText_readBack (t : Instant) : t.readBack.queryText = t.queryText := by
  simp [queryText, queryChars, date]

/-- The text does not show what truncating takes away. -/
theorem queryText_truncated (t : Instant) : t.truncated.queryText = t.queryText := by
  have steps : t.truncated.fraction / 100 = t.fraction / 100 := by
    rw [fraction_truncated, Nat.mul_div_cancel _ (by decide)]
  have clock : t.truncated.clockText = t.clockText := by
    simp only [clockText, secondOfMinute, isLeap_truncated]
    rfl
  rw [queryText, queryText, queryChars, queryChars, steps, clock]
  rfl

private theorem queryText_eq_iff {s t : Instant} :
    s.queryText = t.queryText ↔ s.readBack.truncated = t.readBack.truncated := by
  constructor
  · intro same
    have read := ofText?_queryText s
    rw [same, ofText?_queryText] at read
    exact (Option.some.inj read).symm
  · intro same
    rw [← queryText_readBack s, ← queryText_truncated, same, queryText_truncated,
      queryText_readBack]

/-- Whether the year of an instant is written with four digits and no sign. -/
def HasPlainYear (t : Instant) : Prop :=
  0 ≤ t.date.year ∧ t.date.year ≤ 9999

instance (t : Instant) : Decidable t.HasPlainYear :=
  inferInstanceAs (Decidable (_ ∧ _))

private theorem HasPlainYear.readBack {t : Instant} (plain : t.HasPlainYear) :
    t.readBack.HasPlainYear := by
  rwa [HasPlainYear, date, day_readBack]

/-- The widths of the numbers in the text of a query, with what stands behind each of them. -/
def queryFields : List (Nat × Char) :=
  [(4, '-'), (2, '-'), (2, 'T'), (2, ':'), (2, ':'), (2, '.'), (7, 'Z')]

def dateNumbers (t : Instant) : List Nat :=
  [t.date.year.toNat, t.date.month, t.date.day]

def clockNumbers (t : Instant) : List Nat :=
  [t.second / 3600, t.second / 60 % 60, t.secondOfMinute, t.fraction / 100]

private theorem queryChars_eq_row {t : Instant} (plain : t.HasPlainYear) :
    t.queryChars = row queryFields (t.dateNumbers ++ t.clockNumbers) := by
  have year : Date.yearText t.date.year = padded 4 t.date.year.toNat := if_pos plain
  rw [queryChars, Date.text, year, clockText]
  simp [row, queryFields, dateNumbers, clockNumbers]

private theorem fits_numbers {t : Instant} (plain : t.HasPlainYear) :
    Fits queryFields (t.dateNumbers ++ t.clockNumbers) := by
  obtain ⟨first, last⟩ := plain
  obtain ⟨_, _, month, exists', _⟩ := Date.ofDayNumber_spec t.day
  have month : t.date.month ≤ 12 := month
  have day : t.date.day ≤ 31 := Date.day_le exists'
  have inDay := t.second_lt
  have second := secondOfMinute_le t
  have fraction : t.fraction < 1000000000 := Nat.mod_lt _ (by decide)
  simp only [Fits, queryFields, dateNumbers, clockNumbers, List.cons_append, List.nil_append,
    List.forall₂_cons, List.Forall₂.nil, and_true]
  omega

theorem dateNumbers_lt_iff {s t : Instant} (plain : s.HasPlainYear) (other : t.HasPlainYear) :
    s.dateNumbers < t.dateNumbers ↔ s.day < t.day := by
  obtain ⟨natural, _⟩ := plain
  obtain ⟨natural', _⟩ := other
  have later : s.date.Before t.date ↔ s.day < t.day := Date.before_iff
  rw [← later, Date.Before]
  simp only [dateNumbers, List.cons_lt_cons_iff, List.lt_irrefl, and_false, or_false]
  omega

private theorem dateNumbers_eq_iff {s t : Instant} (plain : s.HasPlainYear)
    (other : t.HasPlainYear) : s.dateNumbers = t.dateNumbers ↔ s.day = t.day := by
  have earlier := dateNumbers_lt_iff plain other
  have later := dateNumbers_lt_iff other plain
  constructor
  · intro same
    simp only [same, List.lt_irrefl, false_iff] at earlier later
    omega
  · intro same
    rw [dateNumbers, dateNumbers, date, date, same]

/-- A leap second at the end of a minute stands behind the second that it follows and before the
next one. -/
theorem clockNumbers_lt_iff {s t : Instant} (on : ¬ s.IsOffMinute) (other : ¬ t.IsOffMinute) :
    s.clockNumbers < t.clockNumbers ↔ s.second < t.second ∨
      s.second = t.second ∧ s.truncated.nano < t.truncated.nano := by
  have bound := s.nano_lt
  have bound' := t.nano_lt
  rw [IsOffMinute, isLeap_iff] at on other
  simp only [clockNumbers, List.cons_lt_cons_iff, List.lt_irrefl, and_false, or_false,
    secondOfMinute, isLeap_iff, fraction, truncated, nanosPerSecond]
  split_ifs <;> omega

private theorem queryText_lt_iff {s t : Instant} (plain : s.HasPlainYear) (other : t.HasPlainYear) :
    s.queryText < t.queryText ↔ s.readBack.truncated < t.readBack.truncated := by
  have on := not_isOffMinute_readBack s
  have on' := not_isOffMinute_readBack t
  rw [← queryText_readBack s, ← queryText_readBack t]
  replace plain := plain.readBack
  replace other := other.readBack
  generalize s.readBack = s at *
  generalize t.readBack = t at *
  have fits := fits_numbers plain
  have fits' := fits_numbers other
  have lengths : s.dateNumbers.length = t.dateNumbers.length := rfl
  rw [String.lt_iff, queryText, queryText, String.toList_ofList, String.toList_ofList,
    queryChars_eq_row plain, queryChars_eq_row other, row_lt_row fits fits',
    append_lt_append_iff lengths, dateNumbers_lt_iff plain other, dateNumbers_eq_iff plain other,
    clockNumbers_lt_iff on on']
  exact Iff.rfl

/-- Queries name every instant to a hundred nanoseconds, and comparing their texts compares the
instants as long as the years have four digits.  This holds of the instants as they are read back,
which are the instants themselves but for leap seconds off the end of a minute. -/
theorem queryText_faithful :
    (∀ t : Instant, t.readBack = t ↔ ¬ t.IsOffMinute) ∧
      (∀ t : Instant, ofText? t.queryText = some t.readBack.truncated) ∧
      (∀ s t : Instant, s.queryText = t.queryText ↔ s.readBack.truncated = t.readBack.truncated) ∧
      ∀ s t : Instant, s.HasPlainYear → t.HasPlainYear →
        (s.queryText < t.queryText ↔ s.readBack.truncated < t.readBack.truncated) :=
  ⟨fun _ => readBack_eq_self_iff, ofText?_queryText, fun _ _ => queryText_eq_iff,
    fun _ _ => queryText_lt_iff⟩

/-- The end of a leap second, on the last day of 2016. -/
def endOfLeapSecond : Instant where
  day := 736328
  second := 86399
  nano := 1999999999
  firstDay_le := by decide
  day_lt := by decide
  second_lt := by decide
  nano_lt := by decide

/-- The first instant of 2017. -/
def afterLeapSecond : Instant :=
  { unixEpoch with day := 736329, firstDay_le := by decide, day_lt := by decide }

theorem queryText_faithful_leapSecond :
    endOfLeapSecond.HasPlainYear ∧ afterLeapSecond.HasPlainYear ∧
      endOfLeapSecond.queryText = "2016-12-31T23:59:60.9999999Z" ∧
      ofText? endOfLeapSecond.queryText = some endOfLeapSecond.truncated ∧
      endOfLeapSecond.queryText < afterLeapSecond.queryText := by
  have plain : endOfLeapSecond.HasPlainYear := by decide
  have other : afterLeapSecond.HasPlainYear := by decide
  obtain ⟨same, reads, _, order⟩ := queryText_faithful
  have read := reads endOfLeapSecond
  rw [(same endOfLeapSecond).mpr (by decide)] at read
  exact ⟨plain, other, by decide, read, (order _ _ plain other).mpr (by decide)⟩

/-- Half a leap second off the end of a minute shows as half of the next second, so it is read as
that, not told apart from it and put behind a third of that second. -/
theorem not_queryText_faithful :
    let leap := startOf2024 0 1500000000 (by decide) (by decide)
    let half := startOf2024 1 500000000 (by decide) (by decide)
    let third := startOf2024 1 333333300 (by decide) (by decide)
    leap.queryText = "2024-01-01T00:00:01.5000000Z" ∧
      ofText? leap.queryText ≠ some leap.truncated ∧
      (leap.queryText = half.queryText ∧ leap.truncated ≠ half.truncated) ∧
      leap.HasPlainYear ∧ third.HasPlainYear ∧ leap.truncated < third.truncated ∧
        ¬ leap.queryText < third.queryText := by
  intro leap half third
  have read : ofText? leap.queryText ≠ some leap.truncated := by
    rw [ofText?_queryText]
    decide
  exact ⟨by decide, read, by decide, by decide, by decide, by decide, by decide⟩

end AlarmView.Instant
