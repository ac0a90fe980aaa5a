/-!
# Browse names

Names shared by the visibility configuration, the edit model and the panel.  Criteria of the two
range attributes gate values of their own, which are stored under names that no criterion may use.
-/

namespace AlarmView.BrowseName

def eventTime : String := "EventTime"

def fromEventTime : String := "FromEventTime"

def toEventTime : String := "ToEventTime"

def fromEventTimeValue : String := "FromEventTimeDateTime"

def toEventTimeValue : String := "ToEventTimeDateTime"

def severity : String := "Severity"

def fromSeverity : String := "FromSeverity"

def toSeverity : String := "ToSeverity"

/-- Whether the name is kept for the value of a range, so that it cannot name a criterion. -/
def isRangeValue (name : String) : Bool :=
  name == fromEventTimeValue || name == toEventTimeValue || name == fromSeverity
    || name == toSeverity

/-- A path below another one; steps are separated by slashes. -/
def join (path name : String) : String :=
  if path.isEmpty then name else path ++ "/" ++ name

end AlarmView.BrowseName
