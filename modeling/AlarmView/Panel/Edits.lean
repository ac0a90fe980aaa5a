import AlarmView.Filter.Reference
import AlarmView.Panel

/-!
# Edits of a panel

An operator edits a panel and then uses it.  Filters are checked first, then others are unchecked,
and at last limits are entered; a limit for which the panel has no control is passed over.
-/

namespace AlarmView

/-- Changes that are made in a panel before it is used. -/
structure PanelEdits where
  checks : List FilterReference
  unchecks : List FilterReference
  fromTime : Option Instant
  toTime : Option Instant
  fromSeverity : Option String
  toSeverity : Option String

inductive PanelUse where
  | filter (name : String)
  | refresh
  | apply
  | clearAll
deriving DecidableEq

def PanelUse.saves : PanelUse → Bool
  | apply | clearAll => true
  | filter _ | refresh => false

namespace Panel

def checkAll (panel : Panel) (checked : Bool) (references : List FilterReference) :
    Except FilterError Panel :=
  references.foldlM
    (fun panel reference => panel.setChecked reference.attr reference.name checked) panel

/-- Sets a picker, if there is a value and the panel has the picker. -/
def enterInstant (name : String) (value : Option Instant) (controls : Controls) : Controls :=
  match value with
  | some value => (controls.setInstant? name value).getD controls
  | none => controls

/-- Sets a text box, if there is a text and the panel has the text box. -/
def enterText (name : String) (text : Option String) (controls : Controls) : Controls :=
  match text with
  | some text => (controls.setText? name text).getD controls
  | none => controls

def edit (panel : Panel) (edits : PanelEdits) : Except FilterError Panel := do
  let panel ← panel.checkAll true edits.checks
  let panel ← panel.checkAll false edits.unchecks
  let controls := enterInstant BrowseName.fromEventTime edits.fromTime panel.controls
  let controls := enterInstant BrowseName.toEventTime edits.toTime controls
  let controls := enterText BrowseName.fromSeverity edits.fromSeverity controls
  let controls := enterText BrowseName.toSeverity edits.toSeverity controls
  return { panel with controls }

def editNotices (panel : Panel) (edits : PanelEdits) : List Notice :=
  let picker := fun (name : String) (value : Option Instant) =>
    if value.isSome && !panel.controls.pickers.contains name then [Notice.pickerNotShown name]
    else []
  let textBox := fun (name : String) (text : Option String) =>
    if text.isSome && !panel.controls.textBoxes.contains name then [Notice.textBoxNotShown name]
    else []
  match panel.edit edits with
  | .error _ => []
  | .ok _ =>
      picker BrowseName.fromEventTime edits.fromTime ++
        picker BrowseName.toEventTime edits.toTime ++
        textBox BrowseName.fromSeverity edits.fromSeverity ++
        textBox BrowseName.toSeverity edits.toSeverity

def use (now : Instant) (panel : Panel) : PanelUse → Panel × Except Error Unit
  | .filter _ | .refresh => panel.refresh now
  | .apply => panel.apply now
  | .clearAll => panel.clearAll now

def useNotices (now : Instant) (panel : Panel) : PanelUse → List Notice
  | .filter name => panel.filterNotices now name
  | .refresh => panel.refreshNotices now
  | .apply => panel.applyNotices now
  | .clearAll => panel.clearNotices now

end Panel

end AlarmView
