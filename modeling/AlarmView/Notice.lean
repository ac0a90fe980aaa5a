import AlarmView.Property
import AlarmView.Time.Printer

/-!
# Notices

What the program tells its operator besides its results.  Notices never influence a result: each is
computed by a function of its own beside the function that computes the result.
-/

namespace AlarmView

inductive NoticeLevel where
  | debug
  | info
  | warn
deriving DecidableEq, Repr

def NoticeLevel.text : NoticeLevel → String
  | debug => "DEBUG"
  | info => "INFO"
  | warn => "WARN"

def NoticeLevel.rank : NoticeLevel → Nat
  | debug => 0
  | info => 1
  | warn => 2

inductive Notice where
  /-- A text has no wording in the lexicon and is shown as it is. -/
  | unlocalized (text : String)
  /-- The configuration knows no attribute of this name, so nothing of it is shown. -/
  | attributeNotConfigured (attr : String)
  | criterionNotConfigured (attr name : String)
  /-- A node of a configuration or an edit model names no attribute and is left out. -/
  | notAnAttribute (name : String)
  | rangeValueCriterion (attr name : String)
  /-- A range value is not stored with its type, so the range keeps its default. -/
  | unreadableRange (attr name : String) (value : Option PropertyValue)
  | unreadableState (attr name : String) (value : Option PropertyValue)
  /-- The upper bound of a time range cannot be moved past the last instant. -/
  | lastInstant (bound : Instant)
  | publishing (query : String)
  | upToDate (editModel : String)
  | reconciled (editModel : String)
      (schemaAdded schemaRemoved instanceAdded instanceRemoved instanceRestored : Nat)
  /-- A text box holds no severity, so the default of its bound is used. -/
  | unreadableSeverity (textBox : String)
  | filterNotShown (name : String)
  | pickerNotShown (name : String)
  /-- A text was given for a bound without a text box on the panel. -/
  | textBoxNotShown (name : String)
  | working (path editModel typeName : String)
deriving DecidableEq

def PropertyValue.quoted : Option PropertyValue → String
  | none => "None"
  | some (.boolean checked) => "Some(Boolean(" ++ toString checked ++ "))"
  | some (.dateTime instant) => "Some(DateTime(" ++ instant.savedText ++ "))"
  | some (.uint16 number) => "Some(UInt16(" ++ toString number.toNat ++ "))"

namespace Notice

def level : Notice → NoticeLevel
  | unlocalized .. | publishing .. | upToDate .. | working .. => .debug
  | reconciled .. => .info
  | _ => .warn

def message : Notice → String
  | unlocalized text => s!"No translation for '{text}', using the raw id"
  | attributeNotConfigured attr =>
      s!"Filters configuration does not contain configuration for accordion: {attr}"
  | criterionNotConfigured attr name =>
      s!"Filters configuration does not contain configuration for checkbox: {name}"
        ++ s!" for attribute {attr}"
  | notAnAttribute name => s!"Accordion {name} browse name is not a valid FilterAttribute."
  | rangeValueCriterion attr name =>
      s!"Filters configuration criterion {attr}/{name} collides with a range value and is ignored"
  | unreadableRange attr name value =>
      let quoted := PropertyValue.quoted value
      s!"FilterModel variable: {attr}/{name} holds {quoted}, keeping the default range"
  | unreadableState attr name value =>
      let quoted := PropertyValue.quoted value
      s!"FilterModel variable: {attr}/{name} holds {quoted} instead of a checked state"
  | lastInstant bound =>
      let shown := bound.messageText
      s!"ToEventTime {shown} is out of range, using it as the exclusive bound"
  | publishing query => s!"Publishing query: {query}"
  | upToDate editModel => s!"Edit model {editModel} is up to date"
  | reconciled editModel schemaAdded schemaRemoved instanceAdded instanceRemoved
      instanceRestored =>
      s!"Edit model {editModel} reconciled: {schemaAdded} schema node(s) added, "
        ++ s!"{schemaRemoved} removed; {instanceAdded} instance node(s) added, "
        ++ s!"{instanceRemoved} removed, {instanceRestored} restored"
  | unreadableSeverity textBox =>
      s!"TextBox \"{textBox}\" should contain an integer value between 0 and 65535"
  | filterNotShown name => s!"Filter {name} browse name not found"
  | pickerNotShown name => s!"DateTimePicker \"{name}\" is not part of the panel"
  | textBoxNotShown name => s!"TextBox \"{name}\" is not part of the panel"
  | working path editModel typeName =>
      s!"Workspace {path}, edit model {editModel} of type {typeName}"

def line (notice : Notice) : String :=
  notice.level.text ++ " " ++ notice.message

end Notice

end AlarmView
