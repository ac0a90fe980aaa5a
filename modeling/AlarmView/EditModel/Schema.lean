import AlarmView.EditModel.Changes
import AlarmView.Property
import AlarmView.Visibility

/-!
# Schemas of edit models

The schema has an object for every enabled attribute of the configuration.  Below it is a checked
state for every enabled criterion, and the values of the ranges that the criterion gates.
-/

namespace AlarmView

/-- A property that the schema has below an attribute exactly if it is visible. -/
structure Leaf where
  name : String
  visible : Bool
  default : PropertyValue
deriving DecidableEq

def Leaf.ofRange (now : Instant) (attr : String) (criterion : Flag) : List Leaf :=
  let visible := criterion.enabled
  if attr = BrowseName.eventTime then
    if criterion.name = BrowseName.fromEventTime then
      [{ name := BrowseName.fromEventTimeValue, visible, default := .dateTime now }]
    else if criterion.name = BrowseName.toEventTime then
      [{ name := BrowseName.toEventTimeValue, visible, default := .dateTime now }]
    else []
  else if attr = BrowseName.severity ∧ criterion.name = BrowseName.severity then
    [{ name := BrowseName.fromSeverity, visible, default := .uint16 1 },
      { name := BrowseName.toSeverity, visible, default := .uint16 1000 }]
  else []

/-- What a criterion of an attribute calls for: its checked state and the range values behind it.
The name of a range value calls for nothing, because its property belongs to another criterion. -/
def Leaf.ofCriterion (now : Instant) (attr : String) (criterion : Flag) : List Leaf :=
  if BrowseName.isRangeValue criterion.name then []
  else
    { name := criterion.name, visible := criterion.enabled, default := .boolean false }
      :: ofRange now attr criterion

def Leaf.ofAttribute (now : Instant) (attr : Flag) : List Leaf :=
  attr.children.flatMap (ofCriterion now attr.name)

namespace Schema

/-- Makes an attribute of the schema have one property exactly if it is visible. -/
def syncLeaf (parent : Property) (leaf : Leaf) : Property × Changes :=
  let path := BrowseName.join parent.name leaf.name
  match leaf.visible, parent.hasChild leaf.name with
  | true, false =>
      (parent.addChild (.leaf leaf.name leaf.default), { Changes.none with added := [path] })
  | false, true => (parent.removeChild leaf.name, { Changes.none with removed := [path] })
  | _, _ => (parent, .none)

def syncLeaves (parent : Property) : List Leaf → Property × Changes
  | [] => (parent, .none)
  | leaf :: rest =>
      let (parent, first) := syncLeaf parent leaf
      let (parent, others) := syncLeaves parent rest
      (parent, first ++ others)

def syncAttribute (now : Instant) (schema : Property) (attr : Flag) : Property × Changes :=
  match attr.enabled, schema.child? attr.name with
  | false, none => (schema, .none)
  | false, some _ => (schema.removeChild attr.name, { Changes.none with removed := [attr.name] })
  | true, none =>
      let (parent, changes) := syncLeaves (.object attr.name) (Leaf.ofAttribute now attr)
      (schema.addChild parent, { Changes.none with added := [attr.name] } ++ changes)
  | true, some parent =>
      let (parent, changes) := syncLeaves parent (Leaf.ofAttribute now attr)
      (schema.updateChild attr.name fun _ => parent, changes)

def syncAttributes (now : Instant) (schema : Property) : List Flag → Property × Changes
  | [] => (schema, .none)
  | attr :: rest =>
      let (schema, first) := syncAttribute now schema attr
      let (schema, others) := syncAttributes now schema rest
      (schema, first ++ others)

/-- The schema pass.  The structural attributes are needed even where they are disabled. -/
def update (now : Instant) (configuration : Configuration) (schema : Property) :
    Except VisibilityError (Property × Changes) := do
  let _ ← configuration.rangeGates
  return syncAttributes now schema configuration.attributes

def notices (configuration : Configuration) : List Notice :=
  match configuration.rangeGates with
  | .ok _ =>
      configuration.attributes.flatMap fun attr =>
        if attr.enabled then
          (attr.children.filter fun criterion => BrowseName.isRangeValue criterion.name).map
            fun criterion => .rangeValueCriterion attr.name criterion.name
        else []
  | .error _ => []

end Schema

end AlarmView
