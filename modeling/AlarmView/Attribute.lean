/-!
# Attributes

Attributes of an alarm by which it can be filtered.  Criteria of one attribute are alternatives;
criteria of different attributes have to hold together.
-/

namespace AlarmView

inductive Attribute where
  | alarmState
  | name
  | alarmClass
  | eventTime
  | group
  | inhibit
  | message
  | priority
  | severity
  | alarmStatus
deriving DecidableEq, Repr, Inhabited

namespace Attribute

def all : List Attribute :=
  [alarmState, name, alarmClass, eventTime, group, inhibit, message, priority, severity,
    alarmStatus]

def browseName : Attribute → String
  | alarmState => "AlarmState"
  | name => "Name"
  | alarmClass => "Class"
  | eventTime => "EventTime"
  | group => "Group"
  | inhibit => "Inhibit"
  | message => "Message"
  | priority => "Priority"
  | severity => "Severity"
  | alarmStatus => "AlarmStatus"

def ofBrowseName? (text : String) : Option Attribute :=
  all.find? (·.browseName == text)

theorem mem_all (attr : Attribute) : attr ∈ all := by
  cases attr <;> decide

theorem ofBrowseName?_browseName (attr : Attribute) :
    ofBrowseName? attr.browseName = some attr := by
  cases attr <;> decide

end Attribute

end AlarmView
