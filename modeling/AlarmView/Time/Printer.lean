import AlarmView.Text.Decimal
import AlarmView.Time.Instant

/-!
# Written instants

Instants are written in three ways, which share the date and the time of day: the compact form of
saved files and of tables, and the form of queries with its fixed seven fraction digits.
-/

namespace AlarmView

open Text

/-- Four digits for a year from 0 to 9999; any other year has a sign and at least four digits. -/
def Date.yearText (year : Int) : List Char :=
  if 0 ≤ year ∧ year ≤ 9999 then padded 4 year.toNat
  else (if year < 0 then '-' else '+') :: padded 4 year.natAbs

def Date.text (date : Date) : List Char :=
  yearText date.year ++ '-' :: padded 2 date.month ++ '-' :: padded 2 date.day

namespace Instant

/-- Second of the minute as it is written; a leap second is the sixtieth. -/
def secondOfMinute (t : Instant) : Nat :=
  t.second % 60 + (if t.isLeap then 1 else 0)

def clockText (t : Instant) : List Char :=
  padded 2 (t.second / 3600) ++ ':' :: padded 2 (t.second / 60 % 60) ++
    ':' :: padded 2 t.secondOfMinute

def fraction (t : Instant) : Nat :=
  t.nano % nanosPerSecond

def fractionText (t : Instant) : List Char :=
  let nanos := t.fraction
  if nanos = 0 then []
  else if nanos % 1000000 = 0 then '.' :: padded 3 (nanos / 1000000)
  else if nanos % 1000 = 0 then '.' :: padded 6 (nanos / 1000)
  else '.' :: padded 9 nanos

def compactText (t : Instant) (separator : Char) : List Char :=
  t.date.text ++ separator :: t.clockText ++ t.fractionText

def savedText (t : Instant) : String :=
  String.ofList (t.compactText 'T' ++ ['Z'])

def tableText (t : Instant) : String :=
  String.ofList (t.compactText 'T') ++ "+00:00"

def messageText (t : Instant) : String :=
  String.ofList (t.compactText ' ') ++ " UTC"

def queryChars (t : Instant) : List Char :=
  t.date.text ++ 'T' :: t.clockText ++ '.' :: padded 7 (t.fraction / 100) ++ ['Z']

def queryText (t : Instant) : String :=
  String.ofList t.queryChars

end Instant

end AlarmView
