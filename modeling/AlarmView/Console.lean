import AlarmView.EditModel.Instance
import AlarmView.Panel.Layout
import AlarmView.Text.Emphasis
import AlarmView.Text.Grid

/-!
# Console texts

Texts that show configurations, layouts, edit models and queries to an operator.
-/

namespace AlarmView.Console

open Text

def flagBox (colours enabled : Bool) : String :=
  if enabled then emphasise colours .green "[x]" else emphasise colours .dimmed "[ ]"

def attributeLines (colours : Bool) (attr : Flag) : List String :=
  (flagBox colours attr.enabled ++ " " ++ emphasise colours .bold attr.name) ::
    attr.children.map fun criterion =>
      "    " ++ flagBox colours criterion.enabled ++ " " ++ criterion.name

def ofLines (lines : List String) : String :=
  String.join (lines.map (· ++ "\n"))

def configuration (colours : Bool) (configuration : Configuration) : String :=
  ofLines (configuration.attributes.flatMap (attributeLines colours))

def control : Control → String
  | .checkBox _ label => label
  | .dateTimeRow _ label => label ++ " [date-time]"
  | .severityRow _ fromLabel toLabel => fromLabel ++ " / " ++ toLabel ++ " [severity]"

def accordionLines (colours : Bool) (accordion : Accordion) : List String :=
  let marker := if accordion.expanded then "▾" else "▸"
  let controls := if accordion.expanded then accordion.controls else []
  (marker ++ " " ++ emphasise colours .bold accordion.label) ::
    controls.map fun shown => "    " ++ control shown

def layout (colours : Bool) (layout : Layout) : String :=
  ofLines (layout.accordions.flatMap (accordionLines colours))

def value : Option PropertyValue → String
  | none => ""
  | some (.boolean checked) => toString checked
  | some (.dateTime instant) => instant.tableText
  | some (.uint16 number) => toString number.toNat

/-- The rows of an attribute: one for each property, or one for the attribute if it has none. -/
def propertyRows (attr : Property) : List (List String) :=
  match attr.children with
  | [] => [[attr.name, "", attr.type.text, ""]]
  | children =>
      children.map fun property =>
        [attr.name, property.name, property.type.text, value property.value]

def editModel (colours : Bool) (model : Instance) : String :=
  let grid : Grid :=
    { header := ["Attribute", "Property", "Type", "Value"]
      rows := model.root.children.flatMap propertyRows }
  ofLines [emphasise colours .bold model.root.name, grid.text]

def keywords : List String :=
  ["SELECT", "FROM", "WHERE", "AND", "OR", "LIKE", "IN"]

def query (colours : Bool) (text : String) : String :=
  " ".intercalate <| (text.splitOn " ").map fun word =>
    if word ∈ keywords then emphasise colours .brightBlueBold word else word

end AlarmView.Console
