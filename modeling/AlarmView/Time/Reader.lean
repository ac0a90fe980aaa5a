import AlarmView.Text.Blank
import AlarmView.Text.Decimal
import AlarmView.Time.Instant

/-!
# Reading instants

Instants are read generously: the date, one separator, the time of day and the zone.  Blanks may
stand before every number, before every hyphen and colon and before the zone, numbers need no
leading zeros, and a zone other than universal time is an offset in hours and minutes.
-/

namespace AlarmView

open Text

/-- Distance of a clock from universal time, in minutes; a clock in the east is ahead. -/
abbrev ZoneOffset := Int

namespace Instant

def readNumber (limit : Nat) (s : List Char) : Option (Nat × List Char) :=
  let (digits, rest) := splitDigits limit (skipBlanks s)
  (natural? digits).map (·, rest)

def readMark (mark : Char) (s : List Char) : Option (List Char) :=
  match skipBlanks s with
  | c :: rest => if c = mark then some rest else none
  | [] => none

/-- Reads a year: up to four digits, or a sign and any number of digits. -/
def readYear (s : List Char) : Option (Int × List Char) :=
  match skipBlanks s with
  | '-' :: rest =>
      let (digits, rest) := splitDigits rest.length rest
      (natural? digits).map fun year => (-(year : Int), rest)
  | '+' :: rest =>
      let (digits, rest) := splitDigits rest.length rest
      (natural? digits).map fun year => ((year : Int), rest)
  | rest =>
      let (digits, rest) := splitDigits 4 rest
      (natural? digits).map fun year => ((year : Int), rest)

def readDate (s : List Char) : Option (Date × List Char) := do
  let (year, s) ← readYear s
  let s ← readMark '-' s
  let (month, s) ← readNumber 2 s
  let s ← readMark '-' s
  let (day, s) ← readNumber 2 s
  let date : Date := { year, month, day }
  if date.Exists ∧ -262143 ≤ year ∧ year ≤ 262142 then some (date, s) else none

def readSeparator : List Char → Option (List Char)
  | c :: rest => if c = 'T' ∨ c = 't' ∨ c = ' ' then some rest else none
  | [] => none

/-- Reads an optional fraction of a second in nanoseconds; digits after the ninth are dropped. -/
def readFraction : List Char → Option (Nat × List Char)
  | '.' :: rest => do
      let (digits, rest) := splitDigits 9 rest
      let value ← natural? digits
      some (value * Nat.pow 10 (9 - digits.length), rest.dropWhile Char.isDigit)
  | rest => some (0, rest)

/-- Reads the time of day as seconds and nanoseconds.  Second sixty is the leap second. -/
def readClock (s : List Char) : Option ((Nat × Nat) × List Char) := do
  let (hour, s) ← readNumber 2 s
  let s ← readMark ':' s
  let (minute, s) ← readNumber 2 s
  let s ← readMark ':' s
  let (second, s) ← readNumber 2 s
  let (nano, s) ← readFraction s
  if hour < 24 ∧ minute < 60 ∧ second ≤ 60 then
    if second = 60 then some ((hour * 3600 + minute * 60 + 59, nanosPerSecond + nano), s)
    else some ((hour * 3600 + minute * 60 + second, nano), s)
  else none

def readTwoDigits : List Char → Option (Nat × List Char)
  | tens :: units :: rest => (natural? [tens, units]).map (·, rest)
  | _ => none

/-- Reads an offset of less than a day after its sign: hours, any colons and blanks, minutes. -/
def readOffset (s : List Char) : Option (ZoneOffset × List Char) := do
  let (hours, s) ← readTwoDigits s
  let (minutes, s) ← readTwoDigits (s.dropWhile fun c => c = ':' || isBlank c)
  if hours < 24 ∧ minutes < 60 then some ((hours * 60 + minutes : Nat), s) else none

/-- Reads a zone: the name of universal time, or a signed offset.  The minus may be U+2212. -/
def readZone (s : List Char) : Option (ZoneOffset × List Char) :=
  match skipBlanks s with
  | c :: rest =>
      if ((c :: rest).take 3).map Char.toUpper = ['U', 'T', 'C'] then some (0, rest.drop 2)
      else if c = 'Z' ∨ c = 'z' then some (0, rest)
      else if c = '+' then readOffset rest
      else if c = '-' ∨ c = '\u2212' then
        (readOffset rest).map fun (offset, rest) => (-offset, rest)
      else none
  | [] => none

def ofClock? (date : Date) (second nano : Nat) (offset : ZoneOffset) : Option Instant :=
  let seconds := date.dayNumber * 86400 + second - offset * 60
  of? (seconds / 86400) (seconds % 86400).toNat nano

def ofChars? (s : List Char) : Option Instant := do
  let (date, s) ← readDate s
  let s ← readSeparator s
  let ((second, nano), s) ← readClock s
  let (offset, s) ← readZone s
  if skipBlanks s = [] then ofClock? date second nano offset else none

def ofText? (s : String) : Option Instant :=
  ofChars? s.toList

end Instant

end AlarmView
