import AlarmView.EditModel.Store
import AlarmView.Error
import AlarmView.Panel.Controls

/-!
# The filter panel

An open panel holds the checked states and the limits that its operator sees, and it owns the store
of edit models until it is closed.  Filtering and refreshing hand a new query on; applying and
clearing also save the panel in its edit model first.  An operation that fails keeps what it had
changed before.
-/

namespace AlarmView

structure Panel where
  configuration : Configuration
  gates : RangeGates
  store : Store
  editModel : String
  layout : Layout
  filters : FilterSet
  controls : Controls
  query : Query
  current : CurrentQuery

/-- A value to be saved, with the notices of finding it. -/
structure Write where
  attr : String
  name : String
  value : PropertyValue
  notices : List Notice

namespace Instance

/-- Saves some values one after the other, up to the first that cannot be saved. -/
def writeAll (model : Instance) : List Write → Instance × Except EditModelError Unit
  | [] => (model, .ok ())
  | write :: rest =>
      match model.setValue write.attr write.name write.value with
      | .ok model => model.writeAll rest
      | .error error => (model, .error error)

def writeNotices (model : Instance) : List Write → List Notice
  | [] => []
  | write :: rest =>
      write.notices ++
        (match model.setValue write.attr write.name write.value with
        | .ok model => model.writeNotices rest
        | .error _ => [])

end Instance

namespace Panel

def filtersOf (lexicon : Lexicon) (layout : Layout) : List Filter :=
  layout.controls.map fun (attr, control) => .make lexicon attr control.name false

def loadFilters (model : Instance) (filters : List Filter) : Except EditModelError (List Filter) :=
  filters.mapM fun filter => do
    let checked ← model.checkedState filter.attr.browseName filter.name
    return { filter with checked }

/-- Whether the filter of a range is checked; there has to be one. -/
def rangeChecked (filters : FilterSet) (attr : Attribute) (name : String) :
    Except FilterError Bool :=
  match filters.find? attr name with
  | some filter => .ok filter.checked
  | none => .error (.notFound attr name)

/-- Sets the picker of an enabled bound: a checked bound shows its stored value, any other one
shows `now`. -/
def loadPicker (now : Instant) (model : Instance) (filters : FilterSet) (enabled : Bool)
    (name value : String) (controls : Controls) : Except Error Controls := do
  if enabled then
    let checked ← (rangeChecked filters .eventTime name).mapError .filter
    let shown ←
      if checked then (model.instant BrowseName.eventTime value).mapError .editModel else .ok now
    return (controls.setInstant? name shown).getD controls
  else
    return controls

/-- Sets the text boxes of an enabled severity: a checked range shows its stored limits, any other
one shows the defaults. -/
def loadTextBoxes (model : Instance) (filters : FilterSet) (enabled : Bool) (controls : Controls) :
    Except Error Controls := do
  if enabled then
    let checked ← (rangeChecked filters .severity BrowseName.severity).mapError .filter
    let stored := fun name => (model.number BrowseName.severity name).mapError Error.editModel
    let lower ←
      if checked then stored BrowseName.fromSeverity else .ok RangeInputs.defaultFromSeverity
    let upper ←
      if checked then stored BrowseName.toSeverity else .ok RangeInputs.defaultToSeverity
    let controls :=
      (controls.setText? BrowseName.fromSeverity (toString lower.toNat)).getD controls
    return (controls.setText? BrowseName.toSeverity (toString upper.toNat)).getD controls
  else
    return controls

def load (now : Instant) (configuration : Configuration) (gates : RangeGates) (store : Store)
    (editModel : String) (lexicon : Lexicon) (layout : Layout) (current : CurrentQuery) :
    Except Error Panel := do
  let model ← (store.requireInstance editModel).mapError .editModel
  let loaded ← (loadFilters model (filtersOf lexicon layout)).mapError .editModel
  let filters : FilterSet := { filters := loaded, ranges := .initialAt now }
  let controls := Controls.ofLayout now layout
  let controls ←
    loadPicker now model filters gates.eventTime.lower BrowseName.fromEventTime
      BrowseName.fromEventTimeValue controls
  let controls ←
    loadPicker now model filters gates.eventTime.upper BrowseName.toEventTime
      BrowseName.toEventTimeValue controls
  let controls ← loadTextBoxes model filters gates.severity controls
  let layout := layout.expand filters.activeAttributes
  return { configuration, gates, store, editModel, layout, filters, controls, current,
           query := .selectAll }

/-- Opens a panel.  Its edit model is brought in line with the configuration first, so the store
changes even if the panel then cannot be loaded. -/
def openOn (now : Instant) (configuration : Configuration) (store : Store)
    (names : EditModelNames) (lexicon : Lexicon) (current : CurrentQuery) :
    Store × Except Error Panel :=
  match Layout.generate lexicon configuration with
  | .error error => (store, .error (.visibility error))
  | .ok layout =>
      match store.create now names configuration, configuration.rangeGates with
      | (store, .error error), _ => (store, .error (.editModel error))
      | (store, .ok _), .error error => (store, .error (.visibility error))
      | (store, .ok _), .ok gates =>
          (store, load now configuration gates store names.editModel lexicon layout current)

def openNotices (now : Instant) (configuration : Configuration) (store : Store)
    (names : EditModelNames) (lexicon : Lexicon) : List Notice :=
  Layout.notices lexicon configuration ++
    (match Layout.generate lexicon configuration with
    | .error _ => []
    | .ok layout =>
        (layout.controls.flatMap fun (attr, control) =>
          Filter.notices lexicon attr control.name) ++
          Store.createNotices names configuration (store.create now names configuration).2)

def setChecked (panel : Panel) (attr : Attribute) (name : String) (checked : Bool) :
    Except FilterError Panel := do
  let filters ← panel.filters.setChecked attr name checked
  return { panel with filters }

/-- Compiles the filters with the limits that the controls show, and hands the query on. -/
def refresh (now : Instant) (panel : Panel) : Panel × Except Error Unit :=
  let filters := { panel.filters with ranges := panel.controls.rangeInputs now }
  match filters.compile panel.configuration with
  | .ok query => ({ panel with filters, query, current := panel.current.publish query }, .ok ())
  | .error error => ({ panel with filters }, .error (.ofQuery error))

def refreshNotices (now : Instant) (panel : Panel) : List Notice :=
  let filters := { panel.filters with ranges := panel.controls.rangeInputs now }
  panel.controls.rangeNotices ++ filters.compileNotices panel.configuration ++
    (match filters.compile panel.configuration with
    | .ok query => [.publishing query.text]
    | .error _ => [])

def filterNotices (now : Instant) (panel : Panel) (name : String) : List Notice :=
  (if panel.filters.hasName name then [] else [.filterNotShown name]) ++
    panel.refreshNotices now

def checkedWrites (panel : Panel) : List Write :=
  panel.filters.filters.map fun filter =>
    { attr := filter.attr.browseName
      name := filter.name
      value := .boolean filter.checked
      notices := [] }

def pickerWrites (now : Instant) (panel : Panel) : List Write :=
  let write := fun (enabled : Bool) (picker value : String) =>
    if enabled then
      [({ attr := BrowseName.eventTime
          name := value
          value := .dateTime ((panel.controls.instant? picker).getD now)
          notices := [] } : Write)]
    else []
  write panel.gates.eventTime.lower BrowseName.fromEventTime BrowseName.fromEventTimeValue ++
    write panel.gates.eventTime.upper BrowseName.toEventTime BrowseName.toEventTimeValue

def severityWrites (panel : Panel) : List Write :=
  if panel.gates.severity then
    [BrowseName.fromSeverity, BrowseName.toSeverity].map fun name =>
      { attr := BrowseName.severity
        name
        value := .uint16 (panel.controls.severity name)
        notices := panel.controls.severityNotices name }
  else []

def writes (now : Instant) (panel : Panel) : List Write :=
  panel.checkedWrites ++ panel.pickerWrites now ++ panel.severityWrites

def save (now : Instant) (panel : Panel) : Panel × Except Error Unit :=
  match panel.store.requireInstance panel.editModel with
  | .error error => (panel, .error (.editModel error))
  | .ok model =>
      let (model, result) := model.writeAll (panel.writes now)
      ({ panel with store := panel.store.putInstance panel.editModel model },
        result.mapError .editModel)

def saveNotices (now : Instant) (panel : Panel) : List Notice :=
  match panel.store.requireInstance panel.editModel with
  | .error _ => []
  | .ok model => model.writeNotices (panel.writes now)

def apply (now : Instant) (panel : Panel) : Panel × Except Error Unit :=
  match panel.save now with
  | (panel, .ok ()) => panel.refresh now
  | (panel, .error error) => (panel, .error error)

def applyNotices (now : Instant) (panel : Panel) : List Notice :=
  panel.saveNotices now ++
    (match panel.save now with
    | (panel, .ok ()) => panel.refreshNotices now
    | (_, .error _) => [])

def unchecked (panel : Panel) : Panel :=
  { panel with filters := panel.filters.setAll false }

def clearAll (now : Instant) (panel : Panel) : Panel × Except Error Unit :=
  panel.unchecked.apply now

def clearNotices (now : Instant) (panel : Panel) : List Notice :=
  panel.unchecked.applyNotices now

end Panel

end AlarmView
