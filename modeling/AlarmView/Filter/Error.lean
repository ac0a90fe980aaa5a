import AlarmView.Attribute

/-!
# Filter errors

Causes for which a filter cannot be named, found or compiled.
-/

namespace AlarmView

/-- Why a filter cannot be named, found or compiled. -/
inductive FilterError where
  | unknownAttribute (text : String)
  | emptyFragment (attr : Attribute) (name : String)
  | rangeDisabled (name : String)
  | notFound (attr : Attribute) (name : String)
  | invalidReference (text : String)
deriving DecidableEq

def FilterError.message : FilterError → String
  | unknownAttribute text =>
      let valid := ", ".intercalate (Attribute.all.map Attribute.browseName)
      s!"Unknown filter attribute: '{text}'. Valid attributes are: {valid}"
  | emptyFragment attr name =>
      s!"SQL condition cannot be empty for filter '{name}' of attribute {attr.browseName}"
  | rangeDisabled name =>
      s!"Range filter '{name}' is checked but its range is disabled in the filters configuration"
  | notFound attr name => s!"Filter {attr.browseName}/{name} not found"
  | invalidReference text => s!"Invalid filter reference '{text}'. Expected 'Attribute/Name'"

def Attribute.parse (text : String) : Except FilterError Attribute :=
  match ofBrowseName? text with
  | some attr => .ok attr
  | none => .error (.unknownAttribute text)

end AlarmView
