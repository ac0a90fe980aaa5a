import AlarmView.Json
import AlarmView.Time.Reader
import AlarmView.Workspace

/-!
# Workspaces from JSON

Reading the parts of a workspace from JSON values.  A reader is given the number of levels of
containers that may still be entered; a value that is nested deeper is refused.
-/

namespace AlarmView

namespace Json

def maxDepth : Nat := 127

/-- Reads an optional part of a record; a missing one has a default. -/
def optional (read : Json → Option α) (default : α) : Option Json → Option α
  | some json => read json
  | none => some default

end Json

namespace Flag

mutual

def ofJson? : (depth : Nat) → Json → Option Flag
  | 0, _ => none
  | depth + 1, json =>
      match json.fields? ["name", "enabled", "children"] with
      | some [some name, some enabled, children] => do
          let name ← name.string?
          let enabled ← enabled.bool?
          let children ← Json.optional (listOfJson? depth) [] children
          some { name, enabled, children }
      | _ => none

def listOfJson? : (depth : Nat) → Json → Option (List Flag)
  | 0, _ => none
  | depth + 1, json => json.items?.bind (·.mapM (ofJson? depth))

end

end Flag

def Configuration.ofJson? : (depth : Nat) → Json → Option Configuration
  | 0, _ => none
  | depth + 1, json =>
      match json.fields? ["attributes"] with
      | some [some attributes] => (Flag.listOfJson? depth attributes).map Configuration.mk
      | _ => none

namespace PropertyType

def ofText? (text : String) : Option PropertyType :=
  [object, boolean, dateTime, uint16].find? (·.text == text)

/-- Reads a type: its name, or a record with the name as its only key and null under it. -/
def ofJson? : (depth : Nat) → Json → Option PropertyType
  | _, .text name => name.bind ofText?
  | _ + 1, .record [(name, .null)] => name.bind ofText?
  | _, _ => none

end PropertyType

namespace PropertyValue

/-- Reads the value that belongs to a type; an object has none. -/
def ofTyped? : PropertyType → Json → Option PropertyValue
  | .object, _ => none
  | .boolean, json => json.bool?.map boolean
  | .dateTime, json => (json.string?.bind Instant.ofText?).map dateTime
  | .uint16, json => do
      let number ← json.integer?
      if 0 ≤ number ∧ number < UInt16.size then some (uint16 (.ofNat number.toNat)) else none

def ofJson? : (depth : Nat) → Json → Option PropertyValue
  | 0, _ => none
  | depth + 1, json =>
      match json.fields? ["type", "value"] with
      | some [some type, some value] => do
          let type ← PropertyType.ofJson? depth type
          ofTyped? type value
      | _ => none

/-- Reads an optional value; null is no value. -/
def optionOfJson? (depth : Nat) : Json → Option (Option PropertyValue)
  | .null => some none
  | json => (ofJson? depth json).map some

def tableOfJson? : (depth : Nat) → Json → Option (Table PropertyValue)
  | 0, _ => none
  | depth + 1, json => do
      let entries ← json.entries?
      let values ← entries.mapM fun (key, value) => (ofJson? depth value).map (key, ·)
      some (.ofList values)

end PropertyValue

namespace Property

mutual

def ofJson? : (depth : Nat) → Json → Option Property
  | 0, _ => none
  | depth + 1, json =>
      match json.fields? ["name", "property_type", "value", "children"] with
      | some [some name, some type, value, children] => do
          let name ← name.string?
          let type ← PropertyType.ofJson? depth type
          let value ← Json.optional (PropertyValue.optionOfJson? depth) none value
          let children ← Json.optional (listOfJson? depth) [] children
          some { name, type, value, children }
      | _ => none

def listOfJson? : (depth : Nat) → Json → Option (List Property)
  | 0, _ => none
  | depth + 1, json => json.items?.bind (·.mapM (ofJson? depth))

end

end Property

def Instance.ofJson? : (depth : Nat) → Json → Option Instance
  | 0, _ => none
  | depth + 1, json =>
      match json.fields? ["root", "retained"] with
      | some [some root, retained] => do
          let root ← Property.ofJson? depth root
          let retained ← Json.optional (PropertyValue.tableOfJson? depth) .empty retained
          some { root, retained }
      | _ => none

namespace Store

def tableOfJson? (read : (depth : Nat) → Json → Option α) :
    (depth : Nat) → Json → Option (Table α)
  | 0, _ => none
  | depth + 1, json => do
      let entries ← json.entries?
      let values ← entries.mapM fun (key, value) => (read depth value).map (key, ·)
      some (.ofList values)

def ofJson? : (depth : Nat) → Json → Option Store
  | 0, _ => none
  | depth + 1, json =>
      match json.fields? ["types", "instances"] with
      | some [types, instances] => do
          let types ← Json.optional (tableOfJson? Property.ofJson? depth) .empty types
          let instances ← Json.optional (tableOfJson? Instance.ofJson? depth) .empty instances
          some { types, instances }
      | _ => none

end Store

def Workspace.ofJson? : (depth : Nat) → Json → Option Workspace
  | 0, _ => none
  | depth + 1, json =>
      match json.fields? ["configuration", "edit_models"] with
      | some [some configuration, store] => do
          let configuration ← Configuration.ofJson? depth configuration
          let store ← Json.optional (Store.ofJson? depth) .empty store
          some { configuration, store }
      | _ => none

end AlarmView
