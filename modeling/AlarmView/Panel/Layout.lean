import AlarmView.Filter
import AlarmView.Visibility

/-!
# Panel layout

The panel has an accordion for every enabled attribute of the configuration, and in it a control
for every enabled criterion.
-/

namespace AlarmView

/-- A control of an accordion.  Its name is that of the filter behind its checkbox. -/
inductive Control where
  | checkBox (name label : String)
  | dateTimeRow (name label : String)
  | severityRow (name fromLabel toLabel : String)
deriving DecidableEq, Repr

def Control.name : Control → String
  | checkBox name _ | dateTimeRow name _ | severityRow name _ _ => name

structure Accordion where
  attr : Attribute
  label : String
  expanded : Bool
  controls : List Control
deriving DecidableEq, Repr

/-- The accordions of a panel in their order. -/
structure Layout where
  accordions : List Accordion
deriving DecidableEq, Repr

namespace Layout

/-- Children of a flag that can be criteria, since no range value has their name. -/
def candidates (attr : Flag) : List Flag :=
  attr.children.filter fun criterion => !BrowseName.isRangeValue criterion.name

def enabledCriteria (configuration : Configuration) (attr : Flag) : List String :=
  ((candidates attr).map (·.name)).filter (configuration.criterionEnabled attr.name)

def controlsOf (lexicon : Lexicon) (configuration : Configuration) (attr : Flag) :
    Except VisibilityError (List Control) :=
  if attr.name = BrowseName.eventTime then
    .ok <| (enabledCriteria configuration attr).map fun name =>
      .dateTimeRow name (lexicon.localize name)
  else if attr.name = BrowseName.severity then do
    let criterion ← attr.getChild BrowseName.severity
    if configuration.criterionEnabled attr.name criterion.name then
      .ok
        [.severityRow criterion.name (lexicon.localize BrowseName.fromSeverity)
          (lexicon.localize BrowseName.toSeverity)]
    else
      .ok []
  else
    .ok <| (enabledCriteria configuration attr).map fun name =>
      .checkBox name (lexicon.localize name)

/-- The accordion of a flag of the configuration; a disabled one, or one that names no attribute,
has none.  Whether it is enabled is asked by its name. -/
def accordion? (lexicon : Lexicon) (configuration : Configuration) (flag : Flag) :
    Except VisibilityError (Option Accordion) :=
  if configuration.attributeEnabled flag.name then
    match Attribute.ofBrowseName? flag.name with
    | some attr => do
        let controls ← controlsOf lexicon configuration flag
        let label := lexicon.localize flag.name
        return some { attr, label, expanded := false, controls }
    | none => .ok none
  else
    .ok none

def generate (lexicon : Lexicon) (configuration : Configuration) :
    Except VisibilityError Layout := do
  let accordions ← configuration.attributes.mapM (accordion? lexicon configuration)
  return { accordions := accordions.filterMap id }

def controlNotices (lexicon : Lexicon) (configuration : Configuration) (attr : Flag) :
    List Notice :=
  if attr.name = BrowseName.severity then
    match attr.child? BrowseName.severity with
    | some criterion =>
        configuration.criterionNotices attr.name criterion.name ++
          (if configuration.criterionEnabled attr.name criterion.name then
            lexicon.notices [BrowseName.fromSeverity, BrowseName.toSeverity]
          else [])
    | none => []
  else
    (candidates attr).flatMap fun criterion =>
      configuration.criterionNotices attr.name criterion.name ++
        (if configuration.criterionEnabled attr.name criterion.name then
          lexicon.notices [criterion.name]
        else [])

def accordionNotices (lexicon : Lexicon) (configuration : Configuration) (flag : Flag) :
    List Notice :=
  if configuration.attributeEnabled flag.name then
    match Attribute.ofBrowseName? flag.name with
    | some _ =>
        controlNotices lexicon configuration flag ++
          (match controlsOf lexicon configuration flag with
          | .ok _ => lexicon.notices [flag.name]
          | .error _ => [])
    | none => [.notAnAttribute flag.name]
  else
    configuration.attributeNotices flag.name

/-- Notices of making the accordions of some flags, up to the first that cannot be made. -/
def noticesOf (lexicon : Lexicon) (configuration : Configuration) :
    List Flag → List Notice
  | [] => []
  | flag :: rest =>
      accordionNotices lexicon configuration flag ++
        (match accordion? lexicon configuration flag with
        | .ok _ => noticesOf lexicon configuration rest
        | .error _ => [])

def notices (lexicon : Lexicon) (configuration : Configuration) : List Notice :=
  noticesOf lexicon configuration configuration.attributes

def accordionOf? (layout : Layout) (attr : Attribute) : Option Accordion :=
  layout.accordions.find? (·.attr == attr)

def controls (layout : Layout) : List (Attribute × Control) :=
  layout.accordions.flatMap fun accordion =>
    accordion.controls.map (accordion.attr, ·)

def expand (layout : Layout) (attrs : List Attribute) : Layout where
  accordions :=
    layout.accordions.map fun accordion => { accordion with expanded := accordion.attr ∈ attrs }

end Layout

end AlarmView
