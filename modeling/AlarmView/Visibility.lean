import AlarmView.Attribute
import AlarmView.BrowseName
import AlarmView.Notice

/-!
# Visibility

The visibility configuration says which attributes and criteria the panel offers.  It is a list of
flags, one for each attribute, with a flag below it for each criterion.  Flags are looked up by
name and the first one counts.

Two attributes are structural, and every usable configuration has them.  The criteria of the event
time gate its two bounds, and the one criterion of the severity gates both limits of the severity.
-/

namespace AlarmView

/-- Why a configuration cannot be used or edited. -/
inductive VisibilityError where
  | missingAttribute (name : String)
  | missingChild (attr name : String)
  | reservedName (attr name : String)
deriving DecidableEq

def VisibilityError.message : VisibilityError → String
  | missingAttribute name => s!"Filters configuration does not contain attribute '{name}'"
  | missingChild attr name =>
      s!"Filters configuration attribute '{attr}' does not contain '{name}'"
  | reservedName attr name =>
      s!"'{name}' holds a range value of attribute '{attr}' and cannot be a criterion"

/-- A named switch with switches below it. -/
structure Flag where
  name : String
  enabled : Bool
  children : List Flag
deriving Inhabited

namespace Flag

mutual

def decideEq : (first second : Flag) → Decidable (first = second)
  | ⟨name, enabled, children⟩, ⟨name', enabled', children'⟩ =>
      match decEq name name', decEq enabled enabled', decideEqList children children' with
      | isTrue sameName, isTrue sameEnabled, isTrue sameChildren =>
          isTrue (by rw [sameName, sameEnabled, sameChildren])
      | isFalse other, _, _ => isFalse (by rintro ⟨⟩; exact other rfl)
      | _, isFalse other, _ => isFalse (by rintro ⟨⟩; exact other rfl)
      | _, _, isFalse other => isFalse (by rintro ⟨⟩; exact other rfl)

def decideEqList : (first second : List Flag) → Decidable (first = second)
  | [], [] => isTrue rfl
  | [], _ :: _ => isFalse (by simp)
  | _ :: _, [] => isFalse (by simp)
  | head :: tail, head' :: tail' =>
      match decideEq head head', decideEqList tail tail' with
      | isTrue sameHead, isTrue sameTail => isTrue (by rw [sameHead, sameTail])
      | isFalse other, _ => isFalse (by rintro ⟨⟩; exact other rfl)
      | _, isFalse other => isFalse (by rintro ⟨⟩; exact other rfl)

end

instance : DecidableEq Flag := decideEq

def single (name : String) (enabled : Bool) : Flag :=
  { name, enabled, children := [] }

def ofChildren (name : String) (enabled : Bool) (children : List String) : Flag :=
  { name, enabled, children := children.map (single · true) }

def child? (flag : Flag) (name : String) : Option Flag :=
  flag.children.find? (·.name == name)

def getChild (flag : Flag) (name : String) : Except VisibilityError Flag :=
  match flag.child? name with
  | some child => .ok child
  | none => .error (.missingChild flag.name name)

def updateNamed (name : String) (change : Flag → Flag) : List Flag → List Flag
  | [] => []
  | flag :: rest =>
      if flag.name == name then change flag :: rest else flag :: updateNamed name change rest

def set (enabled : Bool) (flag : Flag) : Flag :=
  { flag with enabled }

/-- The flag with the switch of one child set; an unknown child is added behind the others. -/
def setChild (name : String) (enabled : Bool) (flag : Flag) : Flag :=
  if (flag.child? name).isSome then
    { flag with children := updateNamed name (set enabled) flag.children }
  else
    { flag with children := flag.children ++ [single name enabled] }

end Flag

structure Configuration where
  attributes : List Flag
deriving DecidableEq, Inhabited

/-- Which bounds of the event time can be used. -/
structure EventTimeFlags where
  lower : Bool
  upper : Bool
deriving DecidableEq, Repr

namespace Configuration

/-- The configuration of a new workspace: every attribute with its well-known criteria.  Attributes
with free texts start disabled and without criteria. -/
def builtin : Configuration where
  attributes :=
    [.ofChildren "AlarmState" true
        ["HighHighState", "HighState", "LowState", "LowLowState", "ActiveStateDigital",
          "InactiveState"],
      .single "Name" false,
      .single "Class" false,
      .ofChildren "EventTime" true ["FromEventTime", "ToEventTime"],
      .single "Group" false,
      .ofChildren "Inhibit" true
        ["Unshelved", "OneShotShelved", "TimedShelved", "Enabled", "Disabled", "Suppressed",
          "Unsuppressed"],
      .single "Message" false,
      .ofChildren "Priority" true ["Urgent", "High", "Medium", "Low"],
      .ofChildren "Severity" true ["Severity"],
      .ofChildren "AlarmStatus" true
        ["InAlarm", "InAlarmAcked", "InAlarmUnacked", "InAlarmConfirmed", "InAlarmUnconfirmed",
          "NormalUnacked"]]

def attribute? (configuration : Configuration) (name : String) : Option Flag :=
  configuration.attributes.find? (·.name == name)

def requireAttribute (configuration : Configuration) (name : String) :
    Except VisibilityError Flag :=
  match configuration.attribute? name with
  | some flag => .ok flag
  | none => .error (.missingAttribute name)

def criterion? (configuration : Configuration) (attr name : String) : Option Flag :=
  (configuration.attribute? attr).bind (·.child? name)

/-- Whether an attribute is enabled; an unknown one is not. -/
def attributeEnabled (configuration : Configuration) (name : String) : Bool :=
  ((configuration.attribute? name).map (·.enabled)).getD false

def attributeNotices (configuration : Configuration) (name : String) : List Notice :=
  if (configuration.attribute? name).isSome then [] else [.attributeNotConfigured name]

/-- Whether a criterion is enabled, whatever the flag of its attribute; an unknown one is not. -/
def criterionEnabled (configuration : Configuration) (attr name : String) : Bool :=
  ((configuration.criterion? attr name).map (·.enabled)).getD false

def criterionNotices (configuration : Configuration) (attr name : String) : List Notice :=
  if (configuration.criterion? attr name).isSome then [] else [.criterionNotConfigured attr name]

def eventTime (configuration : Configuration) : Except VisibilityError EventTimeFlags := do
  let eventTime ← configuration.requireAttribute BrowseName.eventTime
  if eventTime.enabled then
    let lower ← eventTime.getChild BrowseName.fromEventTime
    let upper ← eventTime.getChild BrowseName.toEventTime
    return { lower := lower.enabled, upper := upper.enabled }
  else
    return { lower := false, upper := false }

def showsSeverity (configuration : Configuration) : Except VisibilityError Bool := do
  let severity ← configuration.requireAttribute BrowseName.severity
  let criterion ← severity.getChild BrowseName.severity
  return severity.enabled && criterion.enabled

def updateAttribute (configuration : Configuration) (name : String) (change : Flag → Flag) :
    Configuration :=
  { attributes := Flag.updateNamed name change configuration.attributes }

/-- Switches an attribute, or one of its criteria, on or off.  An unknown criterion is added.  An
unknown attribute is reported before a criterion named like a range value. -/
def setEnabled (configuration : Configuration) (attr : String) (criterion : Option String)
    (enabled : Bool) : Except VisibilityError Configuration := do
  let _ ← configuration.requireAttribute attr
  match criterion with
  | none => .ok (configuration.updateAttribute attr (Flag.set enabled))
  | some name =>
      if BrowseName.isRangeValue name then .error (.reservedName attr name)
      else .ok (configuration.updateAttribute attr (Flag.setChild name enabled))

end Configuration

/-- The ranges that a configuration lets a query use. -/
structure RangeGates where
  eventTime : EventTimeFlags
  severity : Bool
deriving DecidableEq, Repr

/-- The ranges that the configuration lets a query use; the event time is examined first. -/
def Configuration.rangeGates (configuration : Configuration) :
    Except VisibilityError RangeGates := do
  let eventTime ← configuration.eventTime
  let severity ← configuration.showsSeverity
  return { eventTime, severity }

end AlarmView
