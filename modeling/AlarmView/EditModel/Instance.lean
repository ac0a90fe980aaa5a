import AlarmView.Property
import AlarmView.Table
import AlarmView.Visibility

/-!
# Instances of edit models

An instance stores the state of the panel: one object for each attribute, with its checked states
and range values below.  Values of properties that were removed are retained under their paths, so
that they can come back with their properties.
-/

namespace AlarmView

/-- Why an edit model cannot be read or written. -/
inductive EditModelError where
  | notFound (editModel : String)
  | missingAttribute (attr : String)
  | missingVariable (attr name : String)
  | typeMismatch (path : String) (expected found : PropertyType)
  | visibility (error : VisibilityError)
deriving DecidableEq

def EditModelError.message : EditModelError → String
  | notFound editModel => s!"Edit model {editModel} filters not found"
  | missingAttribute attr =>
      s!"FilterModel attribute: {attr} not found. Generate default settings again."
  | missingVariable attr name =>
      s!"FilterModel variable: {attr}/{name} not found. Generate default settings again."
  | typeMismatch path expected found =>
      s!"FilterModel variable {path} holds {found.text}, expected {expected.text}"
  | visibility error => error.message

structure Instance where
  root : Property
  retained : Table PropertyValue
deriving DecidableEq, Inhabited

namespace Instance

def new (name : String) : Instance :=
  { root := .object name, retained := .empty }

def requireAttribute (model : Instance) (attr : String) : Except EditModelError Property :=
  match model.root.child? attr with
  | some property => .ok property
  | none => .error (.missingAttribute attr)

def requireVariable (model : Instance) (attr name : String) : Except EditModelError Property := do
  let parent ← model.requireAttribute attr
  match parent.child? name with
  | some property => .ok property
  | none => .error (.missingVariable attr name)

/-- A stored value, read by `read`.  What matters is the type of the value; the declared type is
only named in the error. -/
def read (read : PropertyValue → Option α) (expected : PropertyType) (model : Instance)
    (attr name : String) : Except EditModelError α := do
  let property ← model.requireVariable attr name
  match property.value.bind read with
  | some value => .ok value
  | none => .error (.typeMismatch (BrowseName.join attr name) expected property.type)

def checkedState : Instance → (attr name : String) → Except EditModelError Bool :=
  read (fun | .boolean checked => some checked | _ => none) .boolean

def instant : Instance → (attr name : String) → Except EditModelError AlarmView.Instant :=
  read (fun | .dateTime instant => some instant | _ => none) .dateTime

def number : Instance → (attr name : String) → Except EditModelError UInt16 :=
  read (fun | .uint16 number => some number | _ => none) .uint16

def setValue (model : Instance) (attr name : String) (value : PropertyValue) :
    Except EditModelError Instance := do
  let property ← model.requireVariable attr name
  if property.type = value.type then
    let stored := fun property : Property => { property with value := some value }
    .ok { model with root := model.root.updateChild attr (·.updateChild name stored) }
  else
    .error (.typeMismatch (BrowseName.join attr name) property.type value.type)

end Instance

end AlarmView
