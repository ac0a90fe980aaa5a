import AlarmView.Json
import AlarmView.Time.Printer
import AlarmView.Workspace

/-!
# Workspaces as JSON

The JSON values under which the parts of a workspace are saved.  Empty lists of children, missing
values and empty tables of retained values are left out.
-/

namespace AlarmView

namespace Flag

mutual

def toJson : Flag → Json
  | ⟨name, enabled, []⟩ => .object [("name", .string name), ("enabled", .bool enabled)]
  | ⟨name, enabled, child :: children⟩ =>
      .object
        [("name", .string name), ("enabled", .bool enabled),
          ("children", .list (child.toJson :: listToJson children))]

def listToJson : List Flag → List Json
  | [] => []
  | flag :: rest => flag.toJson :: listToJson rest

end

end Flag

def Configuration.toJson (configuration : Configuration) : Json :=
  .object [("attributes", .list (Flag.listToJson configuration.attributes))]

def PropertyValue.toJson (value : PropertyValue) : Json :=
  let content :=
    match value with
    | boolean checked => .bool checked
    | dateTime instant => .string instant.savedText
    | uint16 number => .integer number.toNat
  .object [("type", .string value.type.text), ("value", content)]

namespace Property

mutual

def toJson : Property → Json
  | ⟨name, type, value, children⟩ =>
      let valueField := value.toList.map fun value => ("value", value.toJson)
      let childrenField :=
        match children with
        | [] => []
        | child :: rest => [("children", Json.list (child.toJson :: listToJson rest))]
      .object
        (("name", .string name) :: ("property_type", .string type.text) :: valueField
          ++ childrenField)

def listToJson : List Property → List Json
  | [] => []
  | property :: rest => property.toJson :: listToJson rest

end

end Property

/-- The JSON value of a table, whose entries are in the order of their keys. -/
def Table.toJson (encode : α → Json) (table : Table α) : Json :=
  .object (table.entries.map fun (key, value) => (key, encode value))

def Instance.toJson (model : Instance) : Json :=
  .object
    (("root", model.root.toJson) ::
      (if model.retained.isEmpty then []
      else [("retained", model.retained.toJson PropertyValue.toJson)]))

def Store.toJson (store : Store) : Json :=
  .object
    [("types", store.types.toJson Property.toJson),
      ("instances", store.instances.toJson Instance.toJson)]

def Workspace.toJson (workspace : Workspace) : Json :=
  .object
    [("configuration", workspace.configuration.toJson), ("edit_models", workspace.store.toJson)]

end AlarmView
