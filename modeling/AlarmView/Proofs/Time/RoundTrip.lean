import AlarmView.Proofs.Text.Decimal
import AlarmView.Proofs.Time.Calendar
import AlarmView.Time.Printer
import AlarmView.Time.Reader

/-!
# Reading written instants

The form of an instant in saved files has a date, a clock with as many fraction digits as are needed
and the name of universal time.  Each of its parts is read to its end and no further, so the instant
is read as it was, also within a leap second and in years of more than four digits.  Only a leap
second off the end of a minute is read as the second behind it, which is written in the same way.
-/

namespace AlarmView

open Text

theorem Text.skipBlanks_cons {c : Char} {rest : List Char} (visible : isBlank c = false) :
    skipBlanks (c :: rest) = c :: rest := by
  rw [skipBlanks, List.dropWhile_cons_of_neg]
  simp [visible]

theorem Text.skipBlanks_padded (width n : Nat) (rest : List Char) :
    skipBlanks (padded width n ++ rest) = padded width n ++ rest := by
  obtain ⟨first, digits, parts⟩ := List.exists_cons_of_ne_nil (padded_ne_nil width n)
  have digit : first.isDigit := isDigit_of_mem_padded (parts ▸ List.mem_cons_self)
  rw [parts, List.cons_append, skipBlanks_cons (isBlank_of_isDigit digit)]

namespace Instant

variable {rest : List Char}

theorem readNumber_padded (width : Nat) {n : Nat} (positive : 0 < width) (small : n < 10 ^ width)
    (ends : EndsNumber rest) : readNumber width (padded width n ++ rest) = some (n, rest) := by
  have short := Nat.le_of_eq (length_padded positive small)
  rw [readNumber, skipBlanks_padded,
    splitDigits_of_ends (fun _ => isDigit_of_mem_padded) short ends]
  simp only [natural?_padded, Option.map_some]

theorem readMark_mark (mark : Char) (visible : isBlank mark = false) (rest : List Char) :
    readMark mark (mark :: rest) = some rest := by
  rw [readMark, skipBlanks_cons visible]
  exact if_pos rfl

theorem endsNumber_cons {c : Char} (rest : List Char) (noDigit : c.isDigit = false) :
    EndsNumber (c :: rest) := by
  rintro _ ⟨⟩
  exact noDigit

private theorem readYear_yearText (year : Int) (ends : EndsNumber rest) :
    readYear (Date.yearText year ++ rest) = some (year, rest) := by
  have split (limit n : Nat) (short : (padded 4 n).length ≤ limit) :
      splitDigits limit (padded 4 n ++ rest) = (padded 4 n, rest) :=
    splitDigits_of_ends (fun _ => isDigit_of_mem_padded) short ends
  have unlimited (n : Nat) : splitDigits (padded 4 n ++ rest).length (padded 4 n ++ rest) =
      (padded 4 n, rest) := split _ n (by rw [List.length_append]; omega)
  rw [Date.yearText]
  split
  · next short =>
      have same : (year.toNat : Int) = year := by omega
      have four : (padded 4 year.toNat).length = 4 := length_padded (by decide) (by omega)
      obtain ⟨first, digits, parts⟩ := List.exists_cons_of_ne_nil (padded_ne_nil 4 year.toNat)
      have digit : first.isDigit := isDigit_of_mem_padded (parts ▸ List.mem_cons_self)
      have unsigned {sign : Char} (noDigit : sign.isDigit = false) (behind : List Char) :
          padded 4 year.toNat ++ rest ≠ sign :: behind := by
        rw [parts]
        rintro ⟨⟩
        exact absurd (noDigit.symm.trans digit) (by decide)
      rw [readYear, skipBlanks_padded]
      split
      · next behind signed => exact absurd signed (unsigned (by decide) behind)
      · next behind signed => exact absurd signed (unsigned (by decide) behind)
      · rw [split 4 _ (Nat.le_of_eq four)]
        simp only [natural?_padded, Option.bind_eq_bind, Option.bind_some, Option.pure_def,
          Option.map_some, same]
  · split
    · next negative =>
        have same : -(year.natAbs : Int) = year := by omega
        rw [List.cons_append, readYear, skipBlanks_cons (by decide)]
        simp only [unlimited, natural?_padded, Option.bind_eq_bind,
          Option.bind_some, Option.pure_def, Option.map_some, same]
    · next long natural =>
        have same : (year.natAbs : Int) = year := by omega
        rw [List.cons_append, readYear, skipBlanks_cons (by decide)]
        simp only [unlimited, natural?_padded, Option.bind_eq_bind,
          Option.bind_some, Option.pure_def, Option.map_some, same]

/-- An existing date is read as it was written. -/
theorem readDate_text {date : Date} (exists' : date.Exists) (month : date.month ≤ 12)
    (first : -262143 ≤ date.year) (last : date.year ≤ 262142) (ends : EndsNumber rest) :
    readDate (date.text ++ rest) = some (date, rest) := by
  have day := Date.day_le exists'
  have hyphen (behind : List Char) : EndsNumber ('-' :: behind) :=
    endsNumber_cons behind (by decide)
  simp only [Date.text, List.append_assoc, List.cons_append, readDate,
    readYear_yearText _ (hyphen _), readMark_mark '-' (by decide),
    readNumber_padded 2 (n := date.month) (by decide) (by omega) (hyphen _),
    readNumber_padded 2 (n := date.day) (by decide) (by omega) ends,
    Option.bind_eq_bind, Option.bind_some]
  exact if_pos ⟨exists', first, last⟩

theorem readFraction_padded {digits value : Nat} (positive : 0 < digits) (most : digits ≤ 9)
    (small : value < 10 ^ digits) (ends : EndsNumber rest) :
    readFraction ('.' :: padded digits value ++ rest) =
      some (value * 10 ^ (9 - digits), rest) := by
  have length := length_padded positive small
  have behind : rest.dropWhile Char.isDigit = rest :=
    dropWhile_isDigit (List.forall_mem_nil _) ends
  have short : (padded digits value).length ≤ 9 := by rwa [length]
  rw [List.cons_append, readFraction,
    splitDigits_of_ends (fun _ => isDigit_of_mem_padded) short ends]
  simp only [natural?_padded, length, behind, Option.bind_eq_bind, Option.bind_some]
  rfl

private theorem readFraction_fractionText (t : Instant) (ends : EndsNumber rest)
    (noFraction : rest.head? ≠ some '.') :
    readFraction (t.fractionText ++ rest) = some (t.fraction, rest) := by
  have small : t.fraction < 1000000000 := Nat.mod_lt _ (by decide)
  simp only [fractionText]
  split_ifs with whole milli micro
  · rw [List.nil_append, whole, readFraction]
    rintro tail rfl
    exact noFraction rfl
  · rw [readFraction_padded (by decide) (by decide) (by omega) ends]
    have same : t.fraction / 1000000 * 10 ^ (9 - 3) = t.fraction := by omega
    rw [same]
  · rw [readFraction_padded (by decide) (by decide) (by omega) ends]
    have same : t.fraction / 1000 * 10 ^ (9 - 6) = t.fraction := by omega
    rw [same]
  · rw [readFraction_padded (by decide) (by decide) small ends]
    simp

theorem secondOfMinute_le (t : Instant) : t.secondOfMinute ≤ 60 := by
  rw [secondOfMinute]
  split <;> omega

/-- Whether an instant lies in a leap second that does not stand at the end of a minute. -/
def IsOffMinute (t : Instant) : Prop :=
  t.isLeap ∧ t.second % 60 ≠ 59

instance (t : Instant) : Decidable t.IsOffMinute :=
  inferInstanceAs (Decidable (_ ∧ _))

theorem isLeap_iff {t : Instant} : t.isLeap ↔ 1000000000 ≤ t.nano :=
  decide_eq_true_iff

theorem IsOffMinute.second_succ_lt {t : Instant} (off : t.IsOffMinute) : t.second + 1 < 86400 := by
  have inDay := t.second_lt
  have inside := off.2
  omega

theorem nano_sub_lt (t : Instant) : t.nano - nanosPerSecond < 2000000000 := by
  have below := t.nano_lt
  omega

/-- What is read where an instant was written.  A leap second off the end of a minute has the text
of the second behind it. -/
def readBack (t : Instant) : Instant :=
  if off : t.IsOffMinute then
    { t with
      second := t.second + 1
      nano := t.nano - nanosPerSecond
      second_lt := off.second_succ_lt
      nano_lt := t.nano_sub_lt }
  else t

theorem readBack_of_offMinute {t : Instant} (off : t.IsOffMinute) :
    t.readBack.day = t.day ∧ t.readBack.second = t.second + 1 ∧
      t.readBack.nano = t.nano - 1000000000 ∧ t.readBack.isLeap = false := by
  have below := t.nano_lt
  have plain : ¬ (1000000000 ≤ t.nano - 1000000000) := by omega
  rw [readBack, dif_pos off]
  exact ⟨rfl, rfl, rfl, decide_eq_false plain⟩

theorem readBack_of_not_offMinute {t : Instant} (on : ¬ t.IsOffMinute) : t.readBack = t :=
  dif_neg on

/-- All other instants are read as they were. -/
theorem readBack_eq_self_iff {t : Instant} : t.readBack = t ↔ ¬ t.IsOffMinute := by
  refine ⟨fun same off => ?_, readBack_of_not_offMinute⟩
  have later := (readBack_of_offMinute off).2.1
  rw [same] at later
  omega

theorem not_isOffMinute_readBack (t : Instant) : ¬ t.readBack.IsOffMinute := by
  by_cases off : t.IsOffMinute
  · have plain := (readBack_of_offMinute off).2.2.2
    simp [IsOffMinute, plain]
  · rwa [readBack_of_not_offMinute off]

@[simp] theorem day_readBack (t : Instant) : t.readBack.day = t.day := by
  by_cases off : t.IsOffMinute
  · exact (readBack_of_offMinute off).1
  · rw [readBack_of_not_offMinute off]

@[simp] theorem fraction_readBack (t : Instant) : t.readBack.fraction = t.fraction := by
  by_cases off : t.IsOffMinute
  · have leap := isLeap_iff.mp off.1
    rw [fraction, fraction, (readBack_of_offMinute off).2.2.1, nanosPerSecond]
    omega
  · rw [readBack_of_not_offMinute off]

@[simp] theorem clockText_readBack (t : Instant) : t.readBack.clockText = t.clockText := by
  by_cases off : t.IsOffMinute
  · obtain ⟨_, second, _, plain⟩ := readBack_of_offMinute off
    have inside := off.2
    have hours : (t.second + 1) / 3600 = t.second / 3600 := by omega
    have minutes : (t.second + 1) / 60 = t.second / 60 := by omega
    have seconds : (t.second + 1) % 60 = t.second % 60 + 1 := by omega
    simp [clockText, secondOfMinute, second, plain, off.1, hours, minutes, seconds]
  · rw [readBack_of_not_offMinute off]

/-- The time of day is read as it was written, with the fraction that is read of the text behind
it. -/
theorem readClock_clockText (t : Instant) {behind : List Char} {value : Nat}
    (ends : EndsNumber behind) (fraction : readFraction behind = some (value, rest)) :
    readClock (t.clockText ++ behind) =
      some ((t.readBack.second, (if t.readBack.isLeap then nanosPerSecond else 0) + value),
        rest) := by
  have colon (behind : List Char) : EndsNumber (':' :: behind) :=
    endsNumber_cons behind (by decide)
  have on := not_isOffMinute_readBack t
  rw [← clockText_readBack]
  generalize t.readBack = t at on
  have inDay := t.second_lt
  have minute : t.second / 60 % 60 < 60 := Nat.mod_lt _ (by decide)
  have second := secondOfMinute_le t
  simp only [clockText, List.append_assoc, List.cons_append, readClock,
    readNumber_padded 2 (n := t.second / 3600) (by decide) (by omega) (colon _),
    readNumber_padded 2 (n := t.second / 60 % 60) (by decide) (by omega) (colon _),
    readNumber_padded 2 (n := t.secondOfMinute) (by decide) (by omega) ends,
    readMark_mark ':' (by decide), fraction, Option.bind_eq_bind, Option.bind_some]
  rw [if_pos ⟨by omega, minute, second⟩]
  cases leap : t.isLeap with
  | true =>
      have last : t.second % 60 = 59 := by_contra fun off => on ⟨leap, off⟩
      have sixty : t.secondOfMinute = 60 := by simp [secondOfMinute, leap, last]
      have seconds : t.second / 3600 * 3600 + t.second / 60 % 60 * 60 + 59 = t.second := by omega
      rw [if_pos sixty, seconds, if_pos rfl]
  | false =>
      have same : t.secondOfMinute = t.second % 60 := by simp [secondOfMinute, leap]
      have seconds : t.second / 3600 * 3600 + t.second / 60 % 60 * 60 + t.second % 60 =
          t.second := by omega
      rw [if_neg (by omega), same, seconds, if_neg Bool.false_ne_true, Nat.zero_add]

/-- What is counted of a leap second comes back with its fraction. -/
theorem leap_add_fraction (t : Instant) :
    (if t.isLeap then nanosPerSecond else 0) + t.fraction = t.nano := by
  have below := t.nano_lt
  rw [isLeap, fraction, nanosPerSecond]
  by_cases leap : 1000000000 ≤ t.nano
  · rw [decide_eq_true leap, if_pos rfl]
    omega
  · rw [decide_eq_false leap, if_neg Bool.false_ne_true]
    omega

theorem of?_parts (t : Instant) : of? t.day t.second t.nano = some t :=
  dif_pos ⟨t.firstDay_le, t.day_lt, t.second_lt, t.nano_lt⟩

/-- The text of an instant in universal time is read up to the way in which the fraction is
written. -/
theorem ofChars?_text (t : Instant) {point : List Char} {value : Nat}
    (ends : EndsNumber (point ++ ['Z']))
    (fraction : readFraction (point ++ ['Z']) = some (value, ['Z'])) :
    ofChars? (t.date.text ++ 'T' :: t.clockText ++ point ++ ['Z']) =
      of? t.day t.readBack.second
        ((if t.readBack.isLeap then nanosPerSecond else 0) + value) := by
  obtain ⟨year, _, month, exists', number⟩ := Date.ofDayNumber_spec t.day
  obtain ⟨first, last⟩ : -262143 ≤ Date.yearOfDay t.day ∧ Date.yearOfDay t.day ≤ 262142 :=
    Date.year_of_between t.firstDay_le t.day_lt
  have separator (behind : List Char) : EndsNumber ('T' :: behind) :=
    endsNumber_cons behind (by decide)
  have date : readDate (t.date.text ++ ('T' :: (t.clockText ++ (point ++ ['Z'])))) =
      some (t.date, 'T' :: (t.clockText ++ (point ++ ['Z']))) :=
    readDate_text exists' month (year ▸ first) (year ▸ last) (separator _)
  have clock := readClock_clockText t ends fraction
  have inDay := t.readBack.second_lt
  have zoneRead : readZone ['Z'] = some (0, []) := by decide
  have seconds : (t.date.dayNumber * 86400 + t.readBack.second - (0 : Int) * 60) / 86400 = t.day ∧
      ((t.date.dayNumber * 86400 + t.readBack.second - (0 : Int) * 60) % 86400).toNat =
        t.readBack.second := by
    rw [Instant.date, number]
    omega
  have separated (behind : List Char) : readSeparator ('T' :: behind) = some behind := rfl
  simp only [List.append_assoc, List.cons_append, ofChars?, date, separated, clock, zoneRead,
    Option.bind_eq_bind, Option.bind_some]
  rw [if_pos (show skipBlanks [] = [] from rfl), ofClock?, seconds.1, seconds.2]

/-- An instant is read as it was saved, up to leap seconds off the end of a minute. -/
theorem ofText?_savedText (t : Instant) : ofText? t.savedText = some t.readBack := by
  have zone : EndsNumber ['Z'] := endsNumber_cons [] (by decide)
  have point : EndsNumber (t.fractionText ++ ['Z']) := by
    simp only [fractionText]
    split_ifs
    · exact zone
    all_goals exact endsNumber_cons _ (by decide)
  rw [ofText?, savedText, compactText, String.toList_ofList,
    ofChars?_text t point (readFraction_fractionText t zone (by decide)), ← fraction_readBack,
    leap_add_fraction, ← day_readBack, of?_parts]

/-- The text of an instant is that of the instant which is read from it. -/
@[simp] theorem savedText_readBack (t : Instant) : t.readBack.savedText = t.savedText := by
  simp [savedText, compactText, date, fractionText]

private theorem readFraction_lt {s : List Char} {value : Nat}
    (read : readFraction s = some (value, rest)) : value < 10 ^ 9 := by
  unfold readFraction at read
  split at read
  · next digits =>
      obtain ⟨front, number, accepted⟩ := Option.bind_eq_some_iff.mp read
      obtain ⟨rfl, _⟩ := Prod.mk.inj (Option.some.inj accepted)
      have short := length_splitDigits_le 9 digits
      calc front * Nat.pow 10 (9 - (splitDigits 9 digits).1.length)
        _ < 10 ^ (splitDigits 9 digits).1.length *
              10 ^ (9 - (splitDigits 9 digits).1.length) :=
          Nat.mul_lt_mul_of_pos_right (natural?_eq_some_iff.mp number).lt (Nat.pow_pos (by decide))
        _ = 10 ^ 9 := by rw [← Nat.pow_add, Nat.add_sub_cancel' short]
  · obtain ⟨rfl, _⟩ := Prod.mk.inj (Option.some.inj read)
    decide

/-- Only second sixty is read as a leap second. -/
theorem readClock_leap {s : List Char} {second nano : Nat}
    (read : readClock s = some ((second, nano), rest)) (leap : 1000000000 ≤ nano) :
    second % 60 = 59 := by
  obtain ⟨⟨hour, _⟩, _, read⟩ := Option.bind_eq_some_iff.mp read
  obtain ⟨_, _, read⟩ := Option.bind_eq_some_iff.mp read
  obtain ⟨⟨minute, _⟩, _, read⟩ := Option.bind_eq_some_iff.mp read
  obtain ⟨_, _, read⟩ := Option.bind_eq_some_iff.mp read
  obtain ⟨⟨last, _⟩, _, read⟩ := Option.bind_eq_some_iff.mp read
  obtain ⟨⟨fraction, behind⟩, ofFraction, read⟩ := Option.bind_eq_some_iff.mp read
  have small := readFraction_lt ofFraction
  simp only at read
  split_ifs at read with valid sixty
  · obtain ⟨rfl, _⟩ := Prod.mk.inj (Prod.mk.inj (Option.some.inj read)).1
    omega
  · obtain ⟨_, rfl⟩ := Prod.mk.inj (Prod.mk.inj (Option.some.inj read)).1
    omega

/-- No leap second off the end of a minute is read. -/
theorem readBack_of_ofText? {s : String} {t : Instant} (read : ofText? s = some t) :
    t.readBack = t := by
  obtain ⟨⟨date, _⟩, _, read⟩ := Option.bind_eq_some_iff.mp read
  obtain ⟨_, _, read⟩ := Option.bind_eq_some_iff.mp read
  obtain ⟨⟨⟨second, nano⟩, _⟩, clock, read⟩ := Option.bind_eq_some_iff.mp read
  obtain ⟨⟨offset, _⟩, _, read⟩ := Option.bind_eq_some_iff.mp read
  apply readBack_of_not_offMinute
  rintro ⟨leap, inside⟩
  simp only [ofClock?, of?] at read
  split_ifs at read
  obtain rfl := Option.some.inj read
  -- Offsets are whole minutes, so the second of the minute is the one that was read.
  have last := readClock_leap clock (isLeap_iff.mp leap)
  simp only at inside
  omega

/-- An instant of the first minute of 2024, or of a leap second in it that no clock has. -/
def startOf2024 (second nano : Nat) (early : second < 60) (nano_lt : nano < 2000000000) :
    Instant where
  day := 738885
  second
  nano
  firstDay_le := by decide
  day_lt := by decide
  second_lt := by omega
  nano_lt

end Instant

end AlarmView
