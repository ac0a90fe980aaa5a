import AlarmView.FilterSet
import AlarmView.Panel.Layout
import AlarmView.Text.Blank
import AlarmView.Text.Decimal

/-!
# Control values

The pickers and the text boxes of a panel hold the limits of its ranges.
-/

namespace AlarmView

open Text

/-- A text without the plus sign in front of it, if there is one. -/
def unsigned : List Char → List Char
  | '+' :: rest => rest
  | other => other

/-- The number of a numeral, if a severity can be as large. -/
def limited? (digits : List Char) : Option UInt16 :=
  match natural? digits with
  | some number => if number < UInt16.size then some (.ofNat number) else none
  | none => none

/-- The numbers that a severity can have are written with an optional plus sign and digits. -/
def readSeverity? (text : String) : Option UInt16 :=
  limited? (unsigned (trimBlanks text.toList))

/-- What the pickers and text boxes of a panel hold, by their names. -/
structure Controls where
  pickers : Table Instant
  textBoxes : Table String
deriving DecidableEq

namespace Controls

def empty : Controls where
  pickers := .empty
  textBoxes := .empty

/-- Adds the pickers or text boxes of a control: pickers show `now`, text boxes are empty. -/
def register (now : Instant) (controls : Controls) : Control → Controls
  | .dateTimeRow name _ => { controls with pickers := controls.pickers.insert name now }
  | .severityRow .. =>
      let textBoxes :=
        (controls.textBoxes.insert BrowseName.fromSeverity "").insert BrowseName.toSeverity ""
      { controls with textBoxes }
  | .checkBox .. => controls

def ofLayout (now : Instant) (layout : Layout) : Controls :=
  (layout.controls.map (·.2)).foldl (register now) empty

def instant? (controls : Controls) (name : String) : Option Instant :=
  controls.pickers.get? name

def text? (controls : Controls) (name : String) : Option String :=
  controls.textBoxes.get? name

def setInstant? (controls : Controls) (name : String) (value : Instant) : Option Controls :=
  if controls.pickers.contains name then
    some { controls with pickers := controls.pickers.insert name value }
  else none

def setText? (controls : Controls) (name : String) (text : String) : Option Controls :=
  if controls.textBoxes.contains name then
    some { controls with textBoxes := controls.textBoxes.insert name text }
  else none

def severity? (controls : Controls) (name : String) : Option UInt16 :=
  (controls.text? name).bind readSeverity?

/-- The severity in a text box, or the default of its bound when there is none. -/
def severity (controls : Controls) (name : String) : UInt16 :=
  (controls.severity? name).getD <|
    if name = BrowseName.toSeverity then RangeInputs.defaultToSeverity
    else RangeInputs.defaultFromSeverity

def severityNotices (controls : Controls) (name : String) : List Notice :=
  if (controls.severity? name).isSome then [] else [.unreadableSeverity name]

/-- The limits that the controls show; a missing picker shows `now`. -/
def rangeInputs (controls : Controls) (now : Instant) : RangeInputs where
  fromEventTime := (controls.instant? BrowseName.fromEventTime).getD now
  toEventTime := (controls.instant? BrowseName.toEventTime).getD now
  fromSeverity := (controls.severity BrowseName.fromSeverity).toNat
  toSeverity := (controls.severity BrowseName.toSeverity).toNat

def rangeNotices (controls : Controls) : List Notice :=
  controls.severityNotices BrowseName.fromSeverity ++
    controls.severityNotices BrowseName.toSeverity

end Controls

end AlarmView
