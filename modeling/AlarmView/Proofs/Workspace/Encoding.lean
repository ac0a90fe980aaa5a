import AlarmView.Proofs.Json.RoundTrip
import AlarmView.Proofs.Workspace.ReadBack

/-!
# Encoded workspaces

Every part of a workspace is decoded from the JSON value that encodes it, as it is read back, if
that value is not nested too deeply.  Fields that an encoder leaves out are those whose default is
meant.
-/

namespace AlarmView

namespace Json

mutual

/-- How many levels of containers a value has. -/
def depth : Json → Nat
  | .list items => depthOfItems items + 1
  | .record fields => depthOfFields fields + 1
  | .null | .bool _ | .integer _ | .fraction | .text _ => 0

/-- The greatest depth of the items of a list. -/
def depthOfItems : List Json → Nat
  | [] => 0
  | item :: items => max item.depth (depthOfItems items)

/-- The greatest depth of the fields of a record. -/
def depthOfFields : List (JsonText × Json) → Nat
  | [] => 0
  | (_, value) :: fields => max value.depth (depthOfFields fields)

end

theorem depth_list {items : List Json} {limit : Nat} :
    (Json.list items).depth ≤ limit + 1 ↔ ∀ item ∈ items, item.depth ≤ limit := by
  rw [depth, Nat.add_le_add_iff_right]
  induction items with
  | nil => simp [depthOfItems]
  | cons item items ih => rw [depthOfItems, Nat.max_le, ih, List.forall_mem_cons]

theorem depth_object {fields : List (String × Json)} {limit : Nat} :
    (object fields).depth ≤ limit + 1 ↔ ∀ field ∈ fields, field.2.depth ≤ limit := by
  rw [object, depth, Nat.add_le_add_iff_right]
  induction fields with
  | nil => simp [depthOfFields]
  | cons field fields ih =>
      rw [List.map_cons, depthOfFields, Nat.max_le, ih, List.forall_mem_cons]

theorem one_le_depth_object {fields : List (String × Json)} {limit : Nat}
    (shallow : (object fields).depth ≤ limit) : ∃ inner, limit = inner + 1 := by
  cases limit with
  | zero => exact absurd shallow (by simp [object, depth])
  | succ inner => exact ⟨inner, rfl⟩

theorem one_le_depth_list {items : List Json} {limit : Nat}
    (shallow : (Json.list items).depth ≤ limit) : ∃ inner, limit = inner + 1 := by
  cases limit with
  | zero => exact absurd shallow (by simp [depth])
  | succ inner => exact ⟨inner, rfl⟩

theorem plain_list {items : List Json} : (Json.list items).Plain ↔ ∀ item ∈ items, item.Plain := by
  rw [Plain]
  induction items with
  | nil => simp [PlainItems]
  | cons item items ih => rw [PlainItems, ih, List.forall_mem_cons]

theorem plain_object {fields : List (String × Json)} :
    (object fields).Plain ↔ ∀ field ∈ fields, field.2.Plain := by
  rw [object, Plain]
  induction fields with
  | nil => simp [PlainFields]
  | cons field fields ih =>
      rw [List.map_cons, PlainFields, ih, List.forall_mem_cons]
      simp

theorem string?_string (value : String) : (string value).string? = some value := rfl

private theorem entries?_object (fields : List (String × Json)) :
    (object fields).entries? = some fields := by
  rw [object, entries?, List.mapM_map]
  induction fields with
  | nil => rfl
  | cons field fields ih =>
      rw [List.mapM_cons, ih]
      rfl

theorem fields?_object (fields : List (String × Json)) (names : List String) :
    (object fields).fields? names =
      names.mapM (field? (fields.map fun (key, value) => (some key, value))) := by
  rw [object, fields?, if_pos]
  simp

end Json

/-- A list of encoded items is decoded if each of its items is. -/
theorem mapM_encoded {α β γ : Type} {encode : α → β} {decode : β → Option γ} {decoded : α → γ}
    {items : List α} (decodes : ∀ item ∈ items, decode (encode item) = some (decoded item)) :
    (items.map encode).mapM decode = some (items.map decoded) := by
  induction items with
  | nil => rfl
  | cons item items ih =>
      obtain ⟨first, others⟩ := List.forall_mem_cons.mp decodes
      rw [List.map_cons, List.mapM_cons, first, ih others]
      rfl

namespace Table

variable {α : Type}

private theorem insertEntry_last {key : String} {value : α} {entries : List (String × α)}
    (above : ∀ entry ∈ entries, entry.1 < key) :
    insertEntry key value entries = entries ++ [(key, value)] := by
  induction entries with
  | nil => rfl
  | cons entry entries ih =>
      obtain ⟨first, others⟩ := List.forall_mem_cons.mp above
      have different : key ≠ entry.1 := fun same => String.lt_irrefl key (by rwa [← same] at first)
      rw [insertEntry, if_neg (String.lt_asymm first), if_neg different, ih others]
      rfl

private theorem insertAll_ascending (table : Table α) {entries : List (String × α)}
    (ascending : (table.entries ++ entries).Pairwise fun first second => first.1 < second.1) :
    (table.insertAll entries).entries = table.entries ++ entries := by
  induction entries generalizing table with
  | nil => rw [List.append_nil]; rfl
  | cons entry entries ih =>
      have above : ∀ other ∈ table.entries, other.1 < entry.1 := fun other member =>
        (List.pairwise_append.mp ascending).2.2 other member entry List.mem_cons_self
      have inserted : (table.insert entry.1 entry.2).entries = table.entries ++ [entry] :=
        insertEntry_last above
      have step : table.insertAll (entry :: entries) =
          (table.insert entry.1 entry.2).insertAll entries := rfl
      rw [step, ih, inserted, List.append_assoc, List.singleton_append]
      rwa [inserted, List.append_assoc, List.singleton_append]

/-- A table is the table of its entries. -/
theorem ofList_entries (table : Table α) : ofList table.entries = table := by
  have same : (ofList table.entries).entries = table.entries :=
    insertAll_ascending empty table.sorted
  cases table
  cases whole : ofList _ with
  | mk entries sorted => simp_all

private theorem eq_empty_of_isEmpty {table : Table α} (nothing : table.isEmpty) :
    table = empty := by
  obtain ⟨entries, sorted⟩ := table
  obtain rfl : entries = [] := List.isEmpty_iff.mp nothing
  rfl

end Table

namespace Flag

theorem listToJson_eq_map (flags : List Flag) : listToJson flags = flags.map toJson := by
  induction flags with
  | nil => rfl
  | cons flag flags ih => rw [listToJson, ih, List.map_cons]

theorem toJson_leaf (name : String) (enabled : Bool) :
    toJson ⟨name, enabled, []⟩ =
      .object [("name", .string name), ("enabled", .bool enabled)] := rfl

theorem toJson_parent (name : String) (enabled : Bool) {children : List Flag}
    (nonempty : children ≠ []) :
    toJson ⟨name, enabled, children⟩ =
      .object [("name", .string name), ("enabled", .bool enabled),
        ("children", .list (children.map toJson))] := by
  obtain ⟨child, others, rfl⟩ := List.exists_cons_of_ne_nil nonempty
  rw [toJson, listToJson_eq_map, List.map_cons]

mutual

theorem plain_toJson : (flag : Flag) → flag.toJson.Plain
  | ⟨name, enabled, children⟩ => by
      have below := plain_listToJson children
      by_cases leaf : children = []
      · subst leaf
        simp [toJson_leaf, Json.plain_object, Json.string, Json.Plain]
      · simp only [toJson_parent _ _ leaf, Json.plain_object, List.forall_mem_cons]
        exact ⟨rfl, trivial, Json.plain_list.mpr below, List.forall_mem_nil _⟩

theorem plain_listToJson : (flags : List Flag) → ∀ item ∈ flags.map toJson, item.Plain
  | [] => List.forall_mem_nil _
  | flag :: flags => List.forall_mem_cons.mpr ⟨plain_toJson flag, plain_listToJson flags⟩

end

mutual

theorem ofJson?_toJson : (flag : Flag) → ∀ {limit : Nat}, flag.toJson.depth ≤ limit →
    ofJson? limit flag.toJson = some flag
  | ⟨name, enabled, children⟩, limit, shallow => by
      by_cases leaf : children = []
      · subst leaf
        rw [toJson_leaf] at shallow ⊢
        obtain ⟨inner, rfl⟩ := Json.one_le_depth_object shallow
        rw [ofJson?, Json.fields?_object]
        simp [Json.field?, Json.string, Json.string?, Json.bool?, Json.optional]
      · rw [toJson_parent _ _ leaf] at shallow ⊢
        obtain ⟨inner, rfl⟩ := Json.one_le_depth_object shallow
        have listShallow := Json.depth_object.mp shallow _ (.tail _ (.tail _ (.head _)))
        obtain ⟨innermost, rfl⟩ := Json.one_le_depth_list listShallow
        have decoded : listOfJson? (innermost + 1) (.list (children.map toJson)) =
            some (children.map id) :=
          mapM_encoded (ofJson?_listToJson children (Json.depth_list.mp listShallow))
        rw [ofJson?, Json.fields?_object]
        simp [Json.field?, Json.string, Json.string?, Json.bool?, Json.optional, decoded]

theorem ofJson?_listToJson : (flags : List Flag) → ∀ {limit : Nat},
    (∀ item ∈ flags.map toJson, item.depth ≤ limit) →
    ∀ flag ∈ flags, ofJson? limit flag.toJson = some (id flag)
  | [], _, _ => List.forall_mem_nil _
  | flag :: flags, _, shallow => by
      obtain ⟨first, others⟩ := List.forall_mem_cons.mp shallow
      exact List.forall_mem_cons.mpr
        ⟨ofJson?_toJson flag first, ofJson?_listToJson flags others⟩

end

end Flag

namespace Configuration

variable (configuration : Configuration)

theorem toJson_eq : configuration.toJson =
    .object [("attributes", .list (configuration.attributes.map Flag.toJson))] := by
  rw [toJson, Flag.listToJson_eq_map]

theorem plain_toJson : configuration.toJson.Plain := by
  rw [toJson_eq, Json.plain_object, List.forall_mem_singleton, Json.plain_list]
  exact Flag.plain_listToJson configuration.attributes

theorem ofJson?_toJson {limit : Nat} (shallow : configuration.toJson.depth ≤ limit) :
    ofJson? limit configuration.toJson = some configuration := by
  rw [toJson_eq] at shallow ⊢
  obtain ⟨inner, rfl⟩ := Json.one_le_depth_object shallow
  have listShallow := Json.depth_object.mp shallow _ (.head _)
  obtain ⟨innermost, rfl⟩ := Json.one_le_depth_list listShallow
  have decoded : Flag.listOfJson? (innermost + 1)
      (.list (configuration.attributes.map Flag.toJson)) =
        some (configuration.attributes.map id) :=
    mapM_encoded (Flag.ofJson?_listToJson configuration.attributes (Json.depth_list.mp listShallow))
  rw [ofJson?, Json.fields?_object]
  simp [Json.field?, decoded]

end Configuration

theorem PropertyType.ofJson?_text (limit : Nat) (type : PropertyType) :
    ofJson? limit (.string type.text) = some type := by
  have known : ofText? type.text = some type := by
    cases type <;> decide
  cases limit <;> exact known

namespace PropertyValue

variable (value : PropertyValue)

/-- The value without its type. -/
def contentJson : PropertyValue → Json
  | boolean checked => .bool checked
  | dateTime instant => .string instant.savedText
  | uint16 number => .integer number.toNat

theorem toJson_eq :
    value.toJson = .object [("type", .string value.type.text), ("value", value.contentJson)] := by
  cases value <;> rfl

theorem plain_toJson : value.toJson.Plain := by
  rw [toJson_eq, Json.plain_object, List.forall_mem_cons, List.forall_mem_singleton]
  cases value <;> exact ⟨rfl, by simp [contentJson, Json.string, Json.Plain]⟩

private theorem ofTyped?_integer (number : Int) :
    ofTyped? .uint16 (.integer number) =
      if 0 ≤ number ∧ number < UInt16.size then some (uint16 (.ofNat number.toNat)) else none := by
  rw [ofTyped?]
  rfl

private theorem ofTyped?_contentJson :
    ofTyped? value.type value.contentJson = some value.readBack := by
  cases value with
  | boolean checked => rfl
  | dateTime instant =>
      simp [ofTyped?, contentJson, type, Json.string, Json.string?, Instant.ofText?_savedText,
        readBack]
  | uint16 number =>
      have small := number.toNat_lt
      have inRange : (0 : Int) ≤ number.toNat ∧ (number.toNat : Int) < UInt16.size := by
        rw [UInt16.size]
        omega
      rw [type, contentJson, ofTyped?_integer, if_pos inRange, Int.toNat_natCast,
        UInt16.ofNat_toNat, readBack]

theorem ofJson?_toJson {limit : Nat} (shallow : value.toJson.depth ≤ limit) :
    ofJson? limit value.toJson = some value.readBack := by
  rw [toJson_eq] at shallow ⊢
  obtain ⟨inner, rfl⟩ := Json.one_le_depth_object shallow
  rw [ofJson?, Json.fields?_object]
  simp [Json.field?, PropertyType.ofJson?_text, ofTyped?_contentJson]

/-- The encoded form of a value is not null, so it is told apart from a missing one. -/
theorem optionOfJson?_toJson {limit : Nat} (shallow : value.toJson.depth ≤ limit) :
    optionOfJson? limit value.toJson = some (some value.readBack) := by
  have record : optionOfJson? limit value.toJson = (ofJson? limit value.toJson).map some := by
    rw [toJson_eq]
    rfl
  rw [record, ofJson?_toJson value shallow]
  rfl

end PropertyValue

namespace Property

theorem listToJson_eq_map (properties : List Property) :
    listToJson properties = properties.map toJson := by
  induction properties with
  | nil => rfl
  | cons property properties ih => rw [listToJson, ih, List.map_cons]

/-- The field for the children of a property, which is left out where there are none. -/
def childrenField (children : List Property) : List (String × Json) :=
  if children = [] then [] else [("children", .list (children.map toJson))]

theorem toJson_eq (name : String) (type : PropertyType) (value : Option PropertyValue)
    (children : List Property) :
    toJson ⟨name, type, value, children⟩ =
      .object (("name", .string name) :: ("property_type", .string type.text) ::
        value.toList.map (fun value => ("value", value.toJson)) ++ childrenField children) := by
  cases children with
  | nil => simp [toJson, childrenField]
  | cons child children => simp [toJson, childrenField, listToJson_eq_map]

theorem childrenField_eq {children : List Property} (nonempty : children ≠ []) :
    childrenField children = [("children", .list (children.map toJson))] :=
  if_neg nonempty

mutual

theorem plain_toJson : (property : Property) → property.toJson.Plain
  | ⟨name, type, value, children⟩ => by
      have below := plain_listToJson children
      rw [toJson_eq, Json.plain_object]
      intro field member
      simp only [List.cons_append, List.mem_cons, List.mem_append, List.mem_map,
        Option.mem_toList] at member
      rcases member with rfl | rfl | ⟨stored, _, rfl⟩ | inChildren
      · rfl
      · rfl
      · exact stored.plain_toJson
      · by_cases leaf : children = []
        · rw [childrenField, if_pos leaf] at inChildren
          exact absurd inChildren List.not_mem_nil
        · rw [childrenField_eq leaf] at inChildren
          obtain rfl := List.mem_singleton.mp inChildren
          exact Json.plain_list.mpr below

theorem plain_listToJson : (properties : List Property) →
    ∀ item ∈ properties.map toJson, item.Plain
  | [] => List.forall_mem_nil _
  | property :: properties =>
      List.forall_mem_cons.mpr ⟨plain_toJson property, plain_listToJson properties⟩

end

/-- The fields of an encoded property, as its decoder looks them up. -/
theorem fields?_toJson (name : String) (type : PropertyType) (value : Option PropertyValue)
    (children : List Property) :
    (toJson ⟨name, type, value, children⟩).fields? ["name", "property_type", "value", "children"] =
      some [some (.string name), some (.string type.text), value.map (·.toJson),
        if children = [] then none else some (.list (children.map toJson))] := by
  rw [toJson_eq, Json.fields?_object]
  by_cases leaf : children = []
  · cases value <;> simp [Json.field?, childrenField, leaf]
  · cases value <;> simp [Json.field?, childrenField, leaf]

private theorem ofJson?_value (limit : Nat) (value : Option PropertyValue)
    (shallow : ∀ stored, value = some stored → stored.toJson.depth ≤ limit) :
    Json.optional (PropertyValue.optionOfJson? limit) none (value.map (·.toJson)) =
      some (value.map PropertyValue.readBack) := by
  cases value with
  | none => rfl
  | some stored => exact stored.optionOfJson?_toJson (shallow stored rfl)

mutual

theorem ofJson?_toJson : (property : Property) → ∀ {limit : Nat}, property.toJson.depth ≤ limit →
    ofJson? limit property.toJson = some property.readBack
  | ⟨name, type, value, children⟩, limit, shallow => by
      rw [toJson_eq] at shallow
      obtain ⟨inner, rfl⟩ := Json.one_le_depth_object shallow
      have fields := Json.depth_object.mp shallow
      have decodedValue := ofJson?_value inner value fun stored same =>
        fields ("value", stored.toJson) (by simp [same])
      have decodedChildren : Json.optional (listOfJson? inner) []
          (if children = [] then none else some (.list (children.map toJson))) =
            some (readBackList children) := by
        rw [readBackList_eq_map]
        split
        · next leaf =>
            rw [leaf]
            rfl
        · next parent =>
            have listShallow := fields ("children", .list (children.map toJson))
              (by simp [childrenField_eq parent])
            obtain ⟨innermost, rfl⟩ := Json.one_le_depth_list listShallow
            exact mapM_encoded (ofJson?_listToJson children (Json.depth_list.mp listShallow))
      rw [ofJson?, fields?_toJson]
      simp only [Json.string?_string, PropertyType.ofJson?_text, decodedValue, decodedChildren,
        Option.bind_eq_bind, Option.bind_some, readBack]

theorem ofJson?_listToJson : (properties : List Property) → ∀ {limit : Nat},
    (∀ item ∈ properties.map toJson, item.depth ≤ limit) →
    ∀ property ∈ properties, ofJson? limit property.toJson = some property.readBack
  | [], _, _ => List.forall_mem_nil _
  | property :: properties, _, shallow => by
      obtain ⟨first, others⟩ := List.forall_mem_cons.mp shallow
      exact List.forall_mem_cons.mpr
        ⟨ofJson?_toJson property first, ofJson?_listToJson properties others⟩

end

end Property

namespace Table

variable {α : Type} {encode : α → Json} {decode : Json → Option α} {decoded : α → α}
  {table : Table α}

theorem plain_toJson (plain : ∀ value, (encode value).Plain) : (table.toJson encode).Plain := by
  rw [toJson, Json.plain_object, List.forall_mem_map]
  exact fun entry _ => plain entry.2

private theorem mapM_entries
    (decodes : ∀ entry ∈ table.entries, decode (encode entry.2) = some (decoded entry.2)) :
    (table.entries.map fun (key, value) => (key, encode value)).mapM
      (fun (key, value) => (decode value).map (key, ·)) = some (table.map decoded).entries := by
  apply mapM_encoded
  rintro ⟨key, value⟩ member
  simp only [decodes (key, value) member, Option.map_some]

/-- A table is decoded if each of its values is. -/
theorem decode_toJson {limit : Nat} (shallow : (table.toJson encode).depth ≤ limit + 1)
    (decodes : ∀ value, (encode value).depth ≤ limit →
      decode (encode value) = some (decoded value)) :
    (do
      let entries ← (table.toJson encode).entries?
      let values ← entries.mapM fun (key, value) => (decode value).map (key, ·)
      some (ofList values)) = some (table.map decoded) := by
  rw [toJson, Json.depth_object, List.forall_mem_map] at shallow
  have read := mapM_entries fun entry member => decodes entry.2 (shallow entry member)
  rw [toJson, Json.entries?_object]
  simp only [Option.bind_eq_bind, Option.bind_some, read, ofList_entries]

end Table

namespace Instance

variable (model : Instance)

theorem fields?_toJson : model.toJson.fields? ["root", "retained"] =
    some [some model.root.toJson,
      if model.retained.isEmpty then none
      else some (model.retained.toJson PropertyValue.toJson)] := by
  rw [toJson, Json.fields?_object]
  split <;> simp [Json.field?]

theorem plain_toJson : model.toJson.Plain := by
  rw [toJson, Json.plain_object, List.forall_mem_cons]
  refine ⟨model.root.plain_toJson, ?_⟩
  split
  · exact List.forall_mem_nil _
  · rw [List.forall_mem_singleton]
    exact Table.plain_toJson PropertyValue.plain_toJson

theorem ofJson?_toJson {limit : Nat} (shallow : model.toJson.depth ≤ limit) :
    ofJson? limit model.toJson = some model.readBack := by
  have known := model.fields?_toJson
  rw [toJson] at shallow
  obtain ⟨inner, rfl⟩ := Json.one_le_depth_object shallow
  have fields := Json.depth_object.mp shallow
  have decodedRoot := model.root.ofJson?_toJson (fields ("root", model.root.toJson) (.head _))
  have decodedRetained : Json.optional (PropertyValue.tableOfJson? inner) .empty
      (if model.retained.isEmpty then none
      else some (model.retained.toJson PropertyValue.toJson)) =
        some (model.retained.map PropertyValue.readBack) := by
    split
    · next nothing =>
        rw [Table.eq_empty_of_isEmpty nothing]
        rfl
    · next something =>
        have tableShallow := fields ("retained", model.retained.toJson PropertyValue.toJson)
          (by simp [something])
        obtain ⟨innermost, rfl⟩ := Json.one_le_depth_object tableShallow
        exact Table.decode_toJson tableShallow fun value => value.ofJson?_toJson
  rw [ofJson?, known]
  simp only [decodedRoot, decodedRetained, Option.bind_eq_bind, Option.bind_some, readBack]

end Instance

namespace Store

variable (store : Store)

theorem plain_toJson : store.toJson.Plain := by
  rw [toJson, Json.plain_object, List.forall_mem_cons, List.forall_mem_singleton]
  exact ⟨Table.plain_toJson Property.plain_toJson, Table.plain_toJson Instance.plain_toJson⟩

theorem ofJson?_toJson {limit : Nat} (shallow : store.toJson.depth ≤ limit) :
    ofJson? limit store.toJson = some store.readBack := by
  rw [toJson] at shallow ⊢
  obtain ⟨inner, rfl⟩ := Json.one_le_depth_object shallow
  have fields := Json.depth_object.mp shallow
  have typesShallow := fields _ (.head _)
  have instancesShallow := fields _ (.tail _ (.head _))
  obtain ⟨innermost, rfl⟩ := Json.one_le_depth_object typesShallow
  have decodedTypes : tableOfJson? Property.ofJson? (innermost + 1)
      (store.types.toJson Property.toJson) = some (store.types.map Property.readBack) :=
    Table.decode_toJson typesShallow fun property => property.ofJson?_toJson
  have decodedInstances : tableOfJson? Instance.ofJson? (innermost + 1)
      (store.instances.toJson Instance.toJson) = some (store.instances.map Instance.readBack) :=
    Table.decode_toJson instancesShallow fun model => model.ofJson?_toJson
  rw [ofJson?, Json.fields?_object]
  simp [Json.field?, Json.optional, decodedTypes, decodedInstances, readBack]

end Store

namespace Workspace

variable (workspace : Workspace)

theorem plain_toJson : workspace.toJson.Plain := by
  rw [toJson, Json.plain_object, List.forall_mem_cons, List.forall_mem_singleton]
  exact ⟨workspace.configuration.plain_toJson, workspace.store.plain_toJson⟩

theorem ofJson?_toJson {limit : Nat} (shallow : workspace.toJson.depth ≤ limit) :
    ofJson? limit workspace.toJson = some workspace.readBack := by
  rw [toJson] at shallow ⊢
  obtain ⟨inner, rfl⟩ := Json.one_le_depth_object shallow
  have fields := Json.depth_object.mp shallow
  have decodedConfiguration := workspace.configuration.ofJson?_toJson (fields _ (.head _))
  have decodedStore := workspace.store.ofJson?_toJson (fields _ (.tail _ (.head _)))
  rw [ofJson?, Json.fields?_object]
  simp [Json.field?, Json.optional, decodedConfiguration, decodedStore, readBack]

/-- A saved workspace is read as the decoder reads its encoded form. -/
theorem read?_of_print : read? workspace.print = ofJson? Json.maxDepth workspace.toJson := by
  rw [read?, print, Json.read?_print workspace.plain_toJson, Option.bind_some]

end Workspace

end AlarmView
