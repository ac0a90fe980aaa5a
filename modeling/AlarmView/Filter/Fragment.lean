import AlarmView.Attribute

/-!
# Fragments of conditions

The condition of a checkbox is a piece of query text.  Well-known criteria have a fixed fragment;
that of any other criterion is generated from its attribute and its localized name.
-/

namespace AlarmView.Fragment

/-- Fragments of well-known criteria, whatever their attribute. -/
def presets : List (String × String) :=
  [("Urgent", "(Severity >= 751 AND Severity <= 1000)"),
    ("High", "(Severity >= 501 AND Severity <= 750)"),
    ("Medium", "(Severity >= 251 AND Severity <= 500)"),
    ("Low", "(Severity >= 1 AND Severity <= 250)"),
    ("NormalUnacked", "(ActiveState.Id = 0 AND AckedState.Id = 0)"),
    ("InAlarm", "ActiveState.Id = 1"),
    ("InAlarmAcked", "(ActiveState.Id = 1 AND AckedState.Id = 1)"),
    ("InAlarmUnacked", "(ActiveState.Id = 1 AND AckedState.Id = 0)"),
    ("InAlarmConfirmed", "(ActiveState.Id = 1 AND ConfirmedState.Id = 1)"),
    ("InAlarmUnconfirmed", "(ActiveState.Id = 1 AND ConfirmedState.Id = 0)"),
    ("Enabled", "EnabledState.Id = 1"),
    ("Disabled", "EnabledState.Id = 0"),
    ("Suppressed", "SuppressedState.Id = 1"),
    ("Unsuppressed", "SuppressedState.Id = 0")]

def preset? (name : String) : Option String :=
  presets.lookup name

/-- The texts whose wordings a state of an alarm is compared with, in the order in which they
are looked up. -/
def stateTexts (name : String) : List String :=
  match name with
  | "HighHighState" | "HighState" => ["HighHighState", "HighState"]
  | "LowLowState" | "LowState" => ["LowLowState", "LowState"]
  | "ActiveStateDigital" => ["ActiveState"]
  | "InactiveState" => ["InactiveState"]
  | _ => []

/-- Membership of the alarm state in the texts of a criterion.  An extreme state is also written
together with the state that it exceeds.  A criterion that is no alarm state has no condition. -/
def alarmState (localize : String → String) (name : String) : String :=
  let highHigh := localize "HighHighState"
  let high := localize "HighState"
  let lowLow := localize "LowLowState"
  let low := localize "LowState"
  match name with
  | "HighHighState" => s!"CurrentState IN ('{highHigh}','{highHigh} {high}')"
  | "HighState" => s!"CurrentState IN ('{high}','{highHigh} {high}')"
  | "LowLowState" => s!"CurrentState IN ('{lowLow}','{low} {lowLow}')"
  | "LowState" => s!"CurrentState IN ('{low}','{low} {lowLow}')"
  | "ActiveStateDigital" =>
      let active := localize "ActiveState"
      s!"CurrentState IN ('{active}')"
  | "InactiveState" =>
      let inactive := localize "InactiveState"
      s!"CurrentState IN ('{inactive}')"
  | _ => ""

def generated (localize : String → String) (attr : Attribute) (name : String) : String :=
  let text := localize name
  match attr with
  | .alarmState => alarmState localize name
  | .inhibit => s!"ShelvingState.CurrentState = '{text}'"
  | .alarmClass => s!"RAAlarmData.AlarmClass LIKE '%{text}%'"
  | .group => s!"RAAlarmData.AlarmGroup LIKE '%{text}%'"
  | .name => s!"BrowseName LIKE '%{text}%'"
  | other => s!"{other.browseName} LIKE '%{text}%'"

/-- The texts that a generated fragment localizes, in the order in which they are looked up. -/
def texts (attr : Attribute) (name : String) : List String :=
  match attr with
  | .alarmState => stateTexts name
  | _ => [name]

end AlarmView.Fragment
