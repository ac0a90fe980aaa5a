import AlarmView.Proofs.Property
import AlarmView.Proofs.Table
import AlarmView.Proofs.Time.RoundTrip
import AlarmView.Workspace.File

/-!
# What is read of a saved workspace

A saved workspace holds its instants as texts.  Where a leap second off the end of a minute is
stored or retained, the second behind it is read, in a workspace that has the same text; every other
workspace is read as it was.
-/

namespace AlarmView

/-- What is read where a value was written. -/
def PropertyValue.readBack : PropertyValue → PropertyValue
  | boolean checked => boolean checked
  | dateTime instant => dateTime instant.readBack
  | uint16 number => uint16 number

namespace Property

mutual

/-- The property with all values at and below it as they are read. -/
def readBack : Property → Property
  | ⟨name, type, value, children⟩ =>
      ⟨name, type, value.map PropertyValue.readBack, readBackList children⟩

def readBackList : List Property → List Property
  | [] => []
  | property :: rest => property.readBack :: readBackList rest

end

end Property

/-- The table with all values changed under their keys. -/
def Table.map {α β : Type} (change : α → β) (table : Table α) : Table β where
  entries := table.entries.map fun entry => (entry.1, change entry.2)
  sorted := List.pairwise_map.mpr table.sorted

def Instance.readBack (model : Instance) : Instance where
  root := model.root.readBack
  retained := model.retained.map PropertyValue.readBack

/-- All values that an instance stores or retains, with their paths. -/
def Instance.values (model : Instance) : List (String × PropertyValue) :=
  model.root.values "" ++ model.retained.entries

/-- All values in the trees of a store. -/
def Store.values (store : Store) : List (String × PropertyValue) :=
  store.types.entries.flatMap (·.2.values "") ++ store.instances.entries.flatMap (·.2.values)

def Store.readBack (store : Store) : Store where
  types := store.types.map Property.readBack
  instances := store.instances.map Instance.readBack

/-- What is read where a workspace was saved. -/
def Workspace.readBack (workspace : Workspace) : Workspace :=
  { workspace with store := workspace.store.readBack }

namespace PropertyValue

@[simp] theorem type_readBack (value : PropertyValue) : value.readBack.type = value.type := by
  cases value <;> rfl

/-- Exactly the leap seconds off the end of a minute are not read as they were. -/
theorem readBack_eq_self_iff {value : PropertyValue} :
    value.readBack = value ↔ ∀ instant, value = .dateTime instant → ¬ instant.IsOffMinute := by
  cases value <;> simp [readBack, Instant.readBack_eq_self_iff]

@[simp] theorem toJson_readBack (value : PropertyValue) : value.readBack.toJson = value.toJson := by
  cases value with
  | dateTime instant => simp [readBack, toJson, type]
  | boolean checked => rfl
  | uint16 number => rfl

end PropertyValue

namespace Property

theorem readBackList_eq_map (properties : List Property) :
    readBackList properties = properties.map readBack := by
  induction properties with
  | nil => rfl
  | cons property properties ih => rw [readBackList, ih, List.map_cons]

@[simp] theorem name_readBack (property : Property) : property.readBack.name = property.name := by
  cases property
  rfl

@[simp] theorem type_readBack (property : Property) : property.readBack.type = property.type := by
  cases property
  rfl

@[simp] theorem value_readBack (property : Property) :
    property.readBack.value = property.value.map PropertyValue.readBack := by
  cases property
  rfl

@[simp] theorem children_readBack (property : Property) :
    property.readBack.children = property.children.map readBack := by
  cases property
  exact readBackList_eq_map _

mutual

theorem readBack_eq_self_iff (path : String) : (property : Property) →
    (property.readBack = property ↔
      ∀ entry ∈ property.values path, entry.2.readBack = entry.2)
  | ⟨name, type, value, children⟩ => by
      rw [readBack, mk.injEq, readBackList_eq_self_iff (BrowseName.join path name) children, values]
      cases value <;> simp [or_imp, forall_and]

theorem readBackList_eq_self_iff (path : String) : (properties : List Property) →
    (readBackList properties = properties ↔
      ∀ entry ∈ valuesList path properties, entry.2.readBack = entry.2)
  | [] => by simp [readBackList, valuesList]
  | property :: rest => by
      rw [readBackList, List.cons.injEq, readBack_eq_self_iff path property,
        readBackList_eq_self_iff path rest, valuesList, List.forall_mem_append]

end

private theorem valueField_readBack (value : Option PropertyValue) :
    (value.map PropertyValue.readBack).toList.map (fun value => ("value", value.toJson)) =
      value.toList.map fun value => ("value", value.toJson) := by
  cases value <;> simp

mutual

theorem toJson_readBack : (property : Property) → property.readBack.toJson = property.toJson
  | ⟨name, type, value, []⟩ => by
      simp only [readBack, readBackList, toJson, valueField_readBack]
  | ⟨name, type, value, child :: children⟩ => by
      simp only [readBack, readBackList, toJson, valueField_readBack, toJson_readBack child,
        listToJson_readBack children]

theorem listToJson_readBack : (properties : List Property) →
    listToJson (readBackList properties) = listToJson properties
  | [] => rfl
  | property :: properties => by
      rw [readBackList, listToJson, listToJson, toJson_readBack property,
        listToJson_readBack properties]

end

end Property

namespace Table

variable {α β : Type} {table : Table α} {change : α → β}

@[simp] theorem get?_map (table : Table α) (change : α → β) (key : String) :
    (table.map change).get? key = (table.get? key).map change := by
  simp [get?, map, List.find?_map, Function.comp_def]

@[simp] theorem isEmpty_map (table : Table α) (change : α → β) :
    (table.map change).isEmpty = table.isEmpty := by
  simp [isEmpty, map]

theorem map_eq_self_iff {change : α → α} :
    table.map change = table ↔ ∀ entry ∈ table.entries, change entry.2 = entry.2 := by
  obtain ⟨entries, sorted⟩ := table
  have same := List.map_inj_left (l := entries) (f := fun entry => (entry.1, change entry.2))
    (g := id)
  rw [List.map_id] at same
  simpa [map, Prod.ext_iff] using same

theorem toJson_map {encode : β → Json} {encodeOld : α → Json}
    (same : ∀ value, encode (change value) = encodeOld value) :
    (table.map change).toJson encode = table.toJson encodeOld := by
  simp [toJson, map, same, Function.comp_def]

end Table

namespace Instance

theorem readBack_eq_self_iff {model : Instance} :
    model.readBack = model ↔ ∀ entry ∈ model.values, entry.2.readBack = entry.2 := by
  obtain ⟨root, retained⟩ := model
  rw [readBack, mk.injEq, Property.readBack_eq_self_iff "" root, Table.map_eq_self_iff, values,
    List.forall_mem_append]

theorem toJson_readBack (model : Instance) : model.readBack.toJson = model.toJson := by
  simp only [toJson, readBack, Property.toJson_readBack, Table.isEmpty_map,
    Table.toJson_map PropertyValue.toJson_readBack]

end Instance

theorem Store.readBack_eq_self_iff {store : Store} :
    store.readBack = store ↔ ∀ entry ∈ store.values, entry.2.readBack = entry.2 := by
  obtain ⟨types, instances⟩ := store
  simp only [readBack, mk.injEq, Table.map_eq_self_iff, Property.readBack_eq_self_iff "",
    Instance.readBack_eq_self_iff, values, List.forall_mem_append, List.forall_mem_flatMap]

namespace Workspace

/-- A workspace is read as it was exactly if it holds no leap second off the end of a minute. -/
theorem readBack_eq_self_iff {workspace : Workspace} :
    workspace.readBack = workspace ↔
      ∀ path instant, (path, .dateTime instant) ∈ workspace.store.values →
        ¬ instant.IsOffMinute := by
  obtain ⟨configuration, store⟩ := workspace
  simp only [readBack, mk.injEq, true_and, Store.readBack_eq_self_iff,
    PropertyValue.readBack_eq_self_iff]
  constructor
  · exact fun fixed path instant member => fixed _ member instant rfl
  · rintro timely ⟨path, _⟩ member instant rfl
    exact timely path instant member

theorem toJson_readBack (workspace : Workspace) :
    workspace.readBack.toJson = workspace.toJson := by
  simp only [toJson, readBack, Store.toJson, Store.readBack,
    Table.toJson_map Property.toJson_readBack, Table.toJson_map Instance.toJson_readBack]

/-- The text of a workspace is that of the workspace which is read from it. -/
@[simp] theorem print_readBack (workspace : Workspace) :
    workspace.readBack.print = workspace.print := by
  rw [print, toJson_readBack, print]

end Workspace

end AlarmView
