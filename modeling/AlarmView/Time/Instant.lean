import AlarmView.Time.Calendar

/-!
# Instants

A point of coordinated universal time with nanoseconds.  Any second may be followed by a leap
second, which is counted as a second thousand million nanoseconds of that second, although clocks
only have one at the end of a minute.  Instants lie in the years from -262143 to 262142.
-/

namespace AlarmView

/-- A point of time: the day, the second of the day and the nanosecond of the second. -/
structure Instant where
  day : Int
  second : Nat
  nano : Nat
  firstDay_le : Date.firstDayOfYear (-262143) ≤ day
  day_lt : day < Date.firstDayOfYear 262143
  second_lt : second < 86400
  nano_lt : nano < 2000000000
deriving DecidableEq

namespace Instant

def nanosPerSecond : Nat := 1000000000

/-- The instant with these parts, unless one of them is out of range. -/
def of? (day : Int) (second nano : Nat) : Option Instant :=
  if valid : Date.firstDayOfYear (-262143) ≤ day ∧ day < Date.firstDayOfYear 262143 ∧
      second < 86400 ∧ nano < 2000000000 then
    some
      { day
        second
        nano
        firstDay_le := valid.1
        day_lt := valid.2.1
        second_lt := valid.2.2.1
        nano_lt := valid.2.2.2 }
  else
    none

def isLeap (t : Instant) : Bool :=
  nanosPerSecond ≤ t.nano

def date (t : Instant) : Date :=
  .ofDayNumber t.day

protected def lt (a b : Instant) : Prop :=
  a.day < b.day ∨ (a.day = b.day ∧ (a.second < b.second ∨ (a.second = b.second ∧ a.nano < b.nano)))

instance : LT Instant := ⟨Instant.lt⟩

instance (a b : Instant) : Decidable (a < b) :=
  inferInstanceAs (Decidable (_ ∨ _))

instance : LE Instant := ⟨fun a b => ¬ b < a⟩

instance (a b : Instant) : Decidable (a ≤ b) :=
  inferInstanceAs (Decidable (¬ _))

/-- The instant one second later, if it is still in range.  One second after a part of a leap
second comes the same part of the second that follows. -/
def addSecond? (t : Instant) : Option Instant :=
  if t.second + 1 < 86400 then of? t.day (t.second + 1) (t.nano % nanosPerSecond)
  else of? (t.day + 1) 0 (t.nano % nanosPerSecond)

def unixEpoch : Instant :=
  { day := 719162
    second := 0
    nano := 0
    firstDay_le := by decide
    day_lt := by decide
    second_lt := by decide
    nano_lt := by decide }

instance : Inhabited Instant := ⟨unixEpoch⟩

end Instant

end AlarmView
