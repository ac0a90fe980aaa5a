/-!
# Calendar dates

Dates of the Gregorian calendar, extended to all years, and their position in the sequence of days.
Day zero is the first of January of year one.
-/

namespace AlarmView

structure Date where
  year : Int
  month : Nat
  day : Nat
deriving DecidableEq, Repr, Inhabited

namespace Date

def isLeapYear (year : Int) : Bool :=
  year % 4 == 0 && (year % 100 != 0 || year % 400 == 0)

def monthLengths (year : Int) : List Nat :=
  [31, if isLeapYear year then 29 else 28, 31, 30, 31, 30, 31, 31, 30, 31, 30, 31]

/-- Number of days in a month; zero for a month that does not exist. -/
def daysInMonth (year : Int) (month : Nat) : Nat :=
  if month = 0 then 0 else (monthLengths year).getD (month - 1) 0

def firstDayOfYear (year : Int) : Int :=
  let before := year - 1
  365 * before + before / 4 - before / 100 + before / 400

def Exists (date : Date) : Prop :=
  1 ≤ date.day ∧ date.day ≤ daysInMonth date.year date.month

instance (date : Date) : Decidable date.Exists :=
  inferInstanceAs (Decidable (_ ∧ _))

def dayNumber (date : Date) : Int :=
  let passed := (monthLengths date.year).take (date.month - 1)
  firstDayOfYear date.year + (passed.foldl (· + ·) 0 : Nat) + date.day - 1

/-- The year of the day at a position.  The mean length of a year gives a guess that is off by at
most one year. -/
def yearOfDay (number : Int) : Int :=
  let guess := 400 * number / 146097 + 1
  if number < firstDayOfYear guess then guess - 1
  else if firstDayOfYear (guess + 1) ≤ number then guess + 1
  else guess

/-- Month and day of month of the day with `passed` days before it in a year, given the lengths of
the months from `month` on. -/
def monthAndDay (month : Nat) : List Nat → Nat → Nat × Nat
  | [], passed => (month, passed + 1)
  | length :: lengths, passed =>
      if passed < length then (month, passed + 1)
      else monthAndDay (month + 1) lengths (passed - length)

def ofDayNumber (number : Int) : Date :=
  let year := yearOfDay number
  let (month, day) := monthAndDay 1 (monthLengths year) (number - firstDayOfYear year).toNat
  { year, month, day }

end Date

end AlarmView
