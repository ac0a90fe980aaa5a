import AlarmView.Proofs.Workspace.Encoding

/-!
# Saved workspaces

The encoded form of what was decoded is nested no deeper than the decoder was allowed to go, in
whatever way it was spelled, and holds no leap second off the end of a minute.  So a workspace that
was loaded is loaded as it is when it was saved again, as is any other one without such leap seconds
whose encoded form is not too deep.
-/

namespace AlarmView

theorem exists_of_mapM {α β : Type} {decode : α → Option β} {items : List α} {results : List β}
    (accepted : items.mapM decode = some results) :
    ∀ result ∈ results, ∃ item ∈ items, decode item = some result := by
  induction items generalizing results with
  | nil =>
      obtain rfl : [] = results := Option.some.inj accepted
      exact List.forall_mem_nil _
  | cons item items ih =>
      rw [List.mapM_cons] at accepted
      obtain ⟨first, firstDecoded, accepted⟩ := Option.bind_eq_some_iff.mp accepted
      obtain ⟨others, othersDecoded, accepted⟩ := Option.bind_eq_some_iff.mp accepted
      obtain rfl : first :: others = results := Option.some.inj accepted
      refine List.forall_mem_cons.mpr ⟨⟨item, List.mem_cons_self, firstDecoded⟩, ?_⟩
      intro result member
      obtain ⟨other, listed, decoded⟩ := ih othersDecoded result member
      exact ⟨other, .tail _ listed, decoded⟩

namespace Json

variable {α : Type} {read : Json → Option α} {default value : α} {json : Option Json}

theorem of_optional (accepted : optional read default json = some value) :
    value = default ∨ ∃ given, read given = some value := by
  cases json with
  | none => exact .inl (Option.some.inj accepted).symm
  | some given => exact .inr ⟨given, accepted⟩

end Json

namespace Flag

theorem parts_of_ofJson? {limit : Nat} {json : Json} {flag : Flag}
    (accepted : ofJson? (limit + 1) json = some flag) :
    flag.children = [] ∨ ∃ given, listOfJson? limit given = some flag.children := by
  rw [ofJson?] at accepted
  split at accepted
  · obtain ⟨_, _, accepted⟩ := Option.bind_eq_some_iff.mp accepted
    obtain ⟨_, _, accepted⟩ := Option.bind_eq_some_iff.mp accepted
    obtain ⟨children, childrenRead, accepted⟩ := Option.bind_eq_some_iff.mp accepted
    obtain rfl := Option.some.inj accepted
    exact Json.of_optional childrenRead
  · cases accepted

theorem depth_toJson {limit : Nat} {flag : Flag}
    (below : flag.children = [] ∨ (Json.list (flag.children.map toJson)).depth ≤ limit) :
    flag.toJson.depth ≤ limit + 1 := by
  obtain ⟨name, enabled, children⟩ := flag
  by_cases leaf : children = []
  · subst leaf
    simp [toJson_leaf, Json.depth_object, Json.depth, Json.string]
  · simp only [toJson_parent _ _ leaf, Json.depth_object, List.forall_mem_cons]
    exact ⟨Nat.zero_le _, Nat.zero_le _, below.resolve_left leaf, List.forall_mem_nil _⟩

mutual

theorem depth_of_ofJson? : (limit : Nat) → ∀ {json : Json} {flag : Flag},
    ofJson? limit json = some flag → flag.toJson.depth ≤ limit
  | 0, _, _, accepted => by rw [ofJson?] at accepted; cases accepted
  | limit + 1, json, flag, accepted => by
      apply depth_toJson
      rcases parts_of_ofJson? accepted with leaf | ⟨given, decoded⟩
      · exact .inl leaf
      · exact .inr (depth_of_listOfJson? limit decoded)

theorem depth_of_listOfJson? : (limit : Nat) → ∀ {json : Json} {flags : List Flag},
    listOfJson? limit json = some flags → (Json.list (flags.map toJson)).depth ≤ limit
  | 0, _, _, accepted => by rw [listOfJson?] at accepted; cases accepted
  | limit + 1, json, flags, accepted => by
      rw [listOfJson?] at accepted
      obtain ⟨items, _, decoded⟩ := Option.bind_eq_some_iff.mp accepted
      rw [Json.depth_list, List.forall_mem_map]
      intro flag member
      obtain ⟨item, _, itemDecoded⟩ := exists_of_mapM decoded flag member
      exact depth_of_ofJson? limit itemDecoded

end

end Flag

theorem Configuration.depth_of_ofJson? {limit : Nat} {json : Json} {configuration : Configuration}
    (accepted : ofJson? limit json = some configuration) :
    configuration.toJson.depth ≤ limit ∧ 2 ≤ limit := by
  cases limit with
  | zero => cases accepted
  | succ limit =>
      rw [ofJson?] at accepted
      split at accepted
      · obtain ⟨flags, decoded, rfl⟩ := Option.map_eq_some_iff.mp accepted
        have shallow := Flag.depth_of_listOfJson? limit decoded
        obtain ⟨inner, rfl⟩ := Json.one_le_depth_list shallow
        rw [toJson_eq, Json.depth_object, List.forall_mem_singleton]
        exact ⟨shallow, by omega⟩
      · cases accepted

namespace PropertyValue

theorem depth_toJson (value : PropertyValue) (limit : Nat) : value.toJson.depth ≤ limit + 1 := by
  rw [toJson_eq, Json.depth_object, List.forall_mem_cons, List.forall_mem_singleton]
  cases value <;> exact ⟨Nat.zero_le _, Nat.zero_le _⟩

theorem depth_of_ofJson? {limit : Nat} {json : Json} {value : PropertyValue}
    (accepted : ofJson? limit json = some value) : value.toJson.depth ≤ limit := by
  cases limit with
  | zero => cases accepted
  | succ limit => exact value.depth_toJson limit

private theorem readBack_of_ofTyped? {type : PropertyType} {json : Json} {value : PropertyValue}
    (accepted : ofTyped? type json = some value) : value.readBack = value := by
  unfold ofTyped? at accepted
  split at accepted
  · cases accepted
  · obtain ⟨_, _, rfl⟩ := Option.map_eq_some_iff.mp accepted
    rfl
  · obtain ⟨instant, decoded, rfl⟩ := Option.map_eq_some_iff.mp accepted
    obtain ⟨_, _, read⟩ := Option.bind_eq_some_iff.mp decoded
    rw [readBack, Instant.readBack_of_ofText? read]
  · obtain ⟨number, _, accepted⟩ := Option.bind_eq_some_iff.mp accepted
    split at accepted
    · obtain rfl := Option.some.inj accepted
      rfl
    · cases accepted

theorem readBack_of_ofJson? {limit : Nat} {json : Json} {value : PropertyValue}
    (accepted : ofJson? limit json = some value) : value.readBack = value := by
  cases limit with
  | zero => cases accepted
  | succ limit =>
      rw [ofJson?] at accepted
      split at accepted
      · obtain ⟨_, _, accepted⟩ := Option.bind_eq_some_iff.mp accepted
        exact readBack_of_ofTyped? accepted
      · cases accepted

private theorem of_optionOfJson? {limit : Nat} {json : Json} {value : PropertyValue}
    (accepted : optionOfJson? limit json = some (some value)) :
    ∃ given, ofJson? limit given = some value := by
  unfold optionOfJson? at accepted
  split at accepted
  · cases accepted
  · obtain ⟨found, decoded, same⟩ := Option.map_eq_some_iff.mp accepted
    obtain rfl := Option.some.inj same
    exact ⟨_, decoded⟩

end PropertyValue

namespace Property

theorem parts_of_ofJson? {limit : Nat} {json : Json} {property : Property}
    (accepted : ofJson? (limit + 1) json = some property) :
    (∀ stored, property.value = some stored →
        ∃ given, PropertyValue.ofJson? limit given = some stored) ∧
      (property.children = [] ∨ ∃ given, listOfJson? limit given = some property.children) := by
  rw [ofJson?] at accepted
  split at accepted
  · obtain ⟨_, _, accepted⟩ := Option.bind_eq_some_iff.mp accepted
    obtain ⟨_, _, accepted⟩ := Option.bind_eq_some_iff.mp accepted
    obtain ⟨value, valueRead, accepted⟩ := Option.bind_eq_some_iff.mp accepted
    obtain ⟨children, childrenRead, accepted⟩ := Option.bind_eq_some_iff.mp accepted
    obtain rfl := Option.some.inj accepted
    refine ⟨?_, Json.of_optional childrenRead⟩
    rintro stored rfl
    rcases Json.of_optional valueRead with missing | ⟨given, decoded⟩
    · cases missing
    · exact PropertyValue.of_optionOfJson? decoded
  · cases accepted

theorem depth_toJson {limit : Nat} {property : Property}
    (value : ∀ stored, property.value = some stored → stored.toJson.depth ≤ limit)
    (below : property.children = [] ∨ (Json.list (property.children.map toJson)).depth ≤ limit) :
    property.toJson.depth ≤ limit + 1 := by
  obtain ⟨name, type, own, children⟩ := property
  rw [toJson_eq, Json.depth_object]
  intro field member
  simp only [List.cons_append, List.mem_cons, List.mem_append, List.mem_map,
    Option.mem_toList] at member
  rcases member with rfl | rfl | ⟨stored, same, rfl⟩ | inChildren
  · exact Nat.zero_le _
  · exact Nat.zero_le _
  · exact value stored same
  · by_cases leaf : children = []
    · rw [childrenField, if_pos leaf] at inChildren
      exact absurd inChildren List.not_mem_nil
    · rw [childrenField_eq leaf] at inChildren
      obtain rfl := List.mem_singleton.mp inChildren
      exact below.resolve_left leaf

mutual

theorem depth_of_ofJson? : (limit : Nat) → ∀ {json : Json} {property : Property},
    ofJson? limit json = some property → property.toJson.depth ≤ limit
  | 0, _, _, accepted => by rw [ofJson?] at accepted; cases accepted
  | limit + 1, json, property, accepted => by
      obtain ⟨valued, listed⟩ := parts_of_ofJson? accepted
      refine depth_toJson (fun stored same => ?_) ?_
      · obtain ⟨_, decoded⟩ := valued stored same
        exact PropertyValue.depth_of_ofJson? decoded
      · rcases listed with leaf | ⟨given, decoded⟩
        · exact .inl leaf
        · exact .inr (depth_of_listOfJson? limit decoded)

theorem depth_of_listOfJson? : (limit : Nat) → ∀ {json : Json} {properties : List Property},
    listOfJson? limit json = some properties →
    (Json.list (properties.map toJson)).depth ≤ limit
  | 0, _, _, accepted => by rw [listOfJson?] at accepted; cases accepted
  | limit + 1, json, properties, accepted => by
      rw [listOfJson?] at accepted
      obtain ⟨items, _, decoded⟩ := Option.bind_eq_some_iff.mp accepted
      rw [Json.depth_list, List.forall_mem_map]
      intro property member
      obtain ⟨item, _, itemDecoded⟩ := exists_of_mapM decoded property member
      exact depth_of_ofJson? limit itemDecoded

end

mutual

theorem readBack_of_ofJson? : (limit : Nat) → ∀ {json : Json} {property : Property},
    ofJson? limit json = some property → property.readBack = property
  | 0, _, _, accepted => by rw [ofJson?] at accepted; cases accepted
  | limit + 1, json, ⟨name, type, value, children⟩, accepted => by
      obtain ⟨valued, listed⟩ := parts_of_ofJson? accepted
      have sameValue : value.map PropertyValue.readBack = value := by
        cases value with
        | none => rfl
        | some stored =>
            obtain ⟨_, decoded⟩ := valued stored rfl
            rw [Option.map_some, PropertyValue.readBack_of_ofJson? decoded]
      have sameChildren : readBackList children = children := by
        rcases listed with rfl | ⟨given, decoded⟩
        · rfl
        · exact readBackList_of_listOfJson? limit decoded
      rw [readBack, sameValue, sameChildren]

theorem readBackList_of_listOfJson? : (limit : Nat) → ∀ {json : Json} {properties : List Property},
    listOfJson? limit json = some properties → readBackList properties = properties
  | 0, _, _, accepted => by rw [listOfJson?] at accepted; cases accepted
  | limit + 1, json, properties, accepted => by
      rw [listOfJson?] at accepted
      obtain ⟨items, _, decoded⟩ := Option.bind_eq_some_iff.mp accepted
      have same : ∀ property ∈ properties, property.readBack = property := by
        intro property member
        obtain ⟨item, _, itemDecoded⟩ := exists_of_mapM decoded property member
        exact readBack_of_ofJson? limit itemDecoded
      rw [readBackList_eq_map, List.map_congr_left same, List.map_id']

end

end Property

namespace Table

variable {α : Type} {encode : α → Json} {table : Table α}

theorem depth_toJson {limit : Nat}
    (shallow : ∀ entry ∈ table.entries, (encode entry.2).depth ≤ limit) :
    (table.toJson encode).depth ≤ limit + 1 := by
  rw [toJson, Json.depth_object, List.forall_mem_map]
  exact shallow

/-- The values of a table were decoded one by one. -/
theorem exists_of_decoded {decode : Json → Option α} {json : Json}
    (accepted : (do
      let entries ← json.entries?
      let values ← entries.mapM fun (key, value) => (decode value).map (key, ·)
      some (ofList values)) = some table) :
    ∀ entry ∈ table.entries, ∃ given, decode given = some entry.2 := by
  obtain ⟨entries, _, accepted⟩ := Option.bind_eq_some_iff.mp accepted
  obtain ⟨values, decoded, accepted⟩ := Option.bind_eq_some_iff.mp accepted
  obtain rfl := Option.some.inj accepted
  intro entry member
  have listed := (mem_insertAll member).resolve_left List.not_mem_nil
  obtain ⟨given, _, entryDecoded⟩ := exists_of_mapM decoded entry listed
  obtain ⟨value, valueDecoded, rfl⟩ := Option.map_eq_some_iff.mp entryDecoded
  exact ⟨given.2, valueDecoded⟩

end Table

namespace Instance

theorem parts_of_ofJson? {limit : Nat} {json : Json} {model : Instance}
    (accepted : ofJson? (limit + 1) json = some model) :
    (∃ given, Property.ofJson? limit given = some model.root) ∧
      (model.retained = .empty ∨
        ∃ given, PropertyValue.tableOfJson? limit given = some model.retained) := by
  rw [ofJson?] at accepted
  split at accepted
  · obtain ⟨root, rootDecoded, accepted⟩ := Option.bind_eq_some_iff.mp accepted
    obtain ⟨retained, retainedRead, accepted⟩ := Option.bind_eq_some_iff.mp accepted
    obtain rfl := Option.some.inj accepted
    exact ⟨⟨_, rootDecoded⟩, Json.of_optional retainedRead⟩
  · cases accepted

theorem depth_of_ofJson? {limit : Nat} {json : Json} {model : Instance}
    (accepted : ofJson? limit json = some model) : model.toJson.depth ≤ limit := by
  cases limit with
  | zero => cases accepted
  | succ limit =>
      obtain ⟨⟨_, rootDecoded⟩, kept⟩ := parts_of_ofJson? accepted
      rw [toJson, Json.depth_object, List.forall_mem_cons]
      refine ⟨Property.depth_of_ofJson? limit rootDecoded, ?_⟩
      split
      · exact List.forall_mem_nil _
      · next something =>
          rw [List.forall_mem_singleton]
          rcases kept with missing | ⟨given, decoded⟩
          · exact absurd (by rw [missing]; rfl) something
          · cases limit with
            | zero => cases decoded
            | succ limit =>
                refine Table.depth_toJson fun entry member => ?_
                obtain ⟨_, entryDecoded⟩ := Table.exists_of_decoded decoded entry member
                exact PropertyValue.depth_of_ofJson? entryDecoded

theorem readBack_of_ofJson? {limit : Nat} {json : Json} {model : Instance}
    (accepted : ofJson? limit json = some model) : model.readBack = model := by
  cases limit with
  | zero => cases accepted
  | succ limit =>
      obtain ⟨⟨_, rootDecoded⟩, kept⟩ := parts_of_ofJson? accepted
      have sameRetained : model.retained.map PropertyValue.readBack = model.retained := by
        apply Table.map_eq_self_iff.mpr
        intro entry member
        rcases kept with missing | ⟨given, decoded⟩
        · rw [missing] at member
          exact absurd member List.not_mem_nil
        · cases limit with
          | zero => cases decoded
          | succ limit =>
              obtain ⟨_, entryDecoded⟩ := Table.exists_of_decoded decoded entry member
              exact PropertyValue.readBack_of_ofJson? entryDecoded
      rw [readBack, Property.readBack_of_ofJson? limit rootDecoded, sameRetained]

end Instance

namespace Store

/-- The values of a table of a store were decoded one by one. -/
theorem exists_of_table {α : Type} {decode : Nat → Json → Option α} {limit : Nat}
    {json : Option Json} {table : Table α}
    (accepted : Json.optional (tableOfJson? decode (limit + 1)) .empty json = some table) :
    ∀ entry ∈ table.entries, ∃ given, decode limit given = some entry.2 := by
  rcases Json.of_optional accepted with rfl | ⟨given, decoded⟩
  · exact List.forall_mem_nil _
  · exact Table.exists_of_decoded decoded

theorem parts_of_ofJson? {limit : Nat} {json : Json} {store : Store}
    (accepted : ofJson? (limit + 2) json = some store) :
    (∀ entry ∈ store.types.entries, ∃ given, Property.ofJson? limit given = some entry.2) ∧
      ∀ entry ∈ store.instances.entries, ∃ given, Instance.ofJson? limit given = some entry.2 := by
  rw [ofJson?] at accepted
  split at accepted
  · obtain ⟨types, typesRead, accepted⟩ := Option.bind_eq_some_iff.mp accepted
    obtain ⟨instances, instancesRead, accepted⟩ := Option.bind_eq_some_iff.mp accepted
    obtain rfl := Option.some.inj accepted
    exact ⟨exists_of_table typesRead, exists_of_table instancesRead⟩
  · cases accepted

theorem depth_of_ofJson? {limit : Nat} {json : Json} {store : Store}
    (accepted : ofJson? (limit + 2) json = some store) : store.toJson.depth ≤ limit + 2 := by
  obtain ⟨types, instances⟩ := parts_of_ofJson? accepted
  rw [toJson, Json.depth_object, List.forall_mem_cons, List.forall_mem_singleton]
  refine ⟨Table.depth_toJson fun entry member => ?_, Table.depth_toJson fun entry member => ?_⟩
  · obtain ⟨_, decoded⟩ := types entry member
    exact Property.depth_of_ofJson? limit decoded
  · obtain ⟨_, decoded⟩ := instances entry member
    exact Instance.depth_of_ofJson? decoded

theorem readBack_of_ofJson? {limit : Nat} {json : Json} {store : Store}
    (accepted : ofJson? (limit + 2) json = some store) : store.readBack = store := by
  obtain ⟨types, instances⟩ := parts_of_ofJson? accepted
  have sameTypes : store.types.map Property.readBack = store.types := by
    refine Table.map_eq_self_iff.mpr fun entry member => ?_
    obtain ⟨_, decoded⟩ := types entry member
    exact Property.readBack_of_ofJson? limit decoded
  have sameInstances : store.instances.map Instance.readBack = store.instances := by
    refine Table.map_eq_self_iff.mpr fun entry member => ?_
    obtain ⟨_, decoded⟩ := instances entry member
    exact Instance.readBack_of_ofJson? decoded
  rw [readBack, sameTypes, sameInstances]

private theorem depth_empty (limit : Nat) : Store.empty.toJson.depth ≤ limit + 2 := by
  rw [toJson, Json.depth_object, List.forall_mem_cons, List.forall_mem_singleton]
  exact ⟨Table.depth_toJson (List.forall_mem_nil _), Table.depth_toJson (List.forall_mem_nil _)⟩

end Store

namespace Workspace

theorem parts_of_ofJson? {limit : Nat} {json : Json} {workspace : Workspace}
    (accepted : ofJson? limit json = some workspace) :
    ∃ inner, limit = inner + 3 ∧
      (∃ given, Configuration.ofJson? (inner + 2) given = some workspace.configuration) ∧
      (workspace.store = .empty ∨
        ∃ given, Store.ofJson? (inner + 2) given = some workspace.store) := by
  cases limit with
  | zero => cases accepted
  | succ limit =>
      rw [ofJson?] at accepted
      split at accepted
      · obtain ⟨configuration, decoded, accepted⟩ := Option.bind_eq_some_iff.mp accepted
        obtain ⟨store, storeRead, accepted⟩ := Option.bind_eq_some_iff.mp accepted
        obtain rfl := Option.some.inj accepted
        obtain ⟨inner, rfl⟩ :=
          Nat.exists_eq_add_of_le' (Configuration.depth_of_ofJson? decoded).2
        exact ⟨inner, rfl, ⟨_, decoded⟩, Json.of_optional storeRead⟩
      · cases accepted

/-- What was decoded is encoded again no deeper than it was read. -/
theorem depth_of_ofJson? {limit : Nat} {json : Json} {workspace : Workspace}
    (accepted : ofJson? limit json = some workspace) : workspace.toJson.depth ≤ limit := by
  obtain ⟨inner, rfl, ⟨_, configured⟩, stored⟩ := parts_of_ofJson? accepted
  rw [toJson, Json.depth_object, List.forall_mem_cons, List.forall_mem_singleton]
  refine ⟨(Configuration.depth_of_ofJson? configured).1, ?_⟩
  rcases stored with missing | ⟨given, decoded⟩
  · rw [missing]
    exact Store.depth_empty inner
  · exact Store.depth_of_ofJson? decoded

theorem readBack_of_ofJson? {limit : Nat} {json : Json} {workspace : Workspace}
    (accepted : ofJson? limit json = some workspace) : workspace.readBack = workspace := by
  obtain ⟨inner, rfl, _, stored⟩ := parts_of_ofJson? accepted
  have sameStore : workspace.store.readBack = workspace.store := by
    rcases stored with missing | ⟨given, decoded⟩
    · rw [missing]
      rfl
    · exact Store.readBack_of_ofJson? decoded
  rw [readBack, sameStore]

/-- What is read of a saved workspace, if it is not nested too deeply. -/
theorem read?_print {workspace : Workspace} (shallow : workspace.toJson.depth ≤ Json.maxDepth) :
    read? workspace.print = some workspace.readBack := by
  rw [read?_of_print, ofJson?_toJson workspace shallow]

theorem depth_of_read? {text : String} {workspace : Workspace}
    (loaded : read? text = some workspace) : workspace.toJson.depth ≤ Json.maxDepth := by
  obtain ⟨_, _, decoded⟩ := Option.bind_eq_some_iff.mp loaded
  exact depth_of_ofJson? decoded

theorem readBack_of_read? {text : String} {workspace : Workspace}
    (loaded : read? text = some workspace) : workspace.readBack = workspace := by
  obtain ⟨_, _, decoded⟩ := Option.bind_eq_some_iff.mp loaded
  exact readBack_of_ofJson? decoded

theorem read?_print_iff {workspace : Workspace} :
    read? workspace.print = some workspace ↔
      workspace.toJson.depth ≤ Json.maxDepth ∧ workspace.readBack = workspace := by
  refine ⟨fun loaded => ⟨depth_of_read? loaded, readBack_of_read? loaded⟩, fun given => ?_⟩
  rw [read?_print given.1, given.2]

/-- A workspace that is not nested too deeply is loaded as it was saved, but for leap seconds off
the end of a minute, and it is never loaded as it was if it is too deep or holds such leap seconds.
A workspace that was loaded, from whatever text, has neither, so saving it again writes the same
text. -/
theorem saves_and_loads :
    (∀ workspace : Workspace, workspace.toJson.depth ≤ Json.maxDepth →
      read? workspace.print = some workspace.readBack) ∧
    (∀ workspace : Workspace, read? workspace.print = some workspace ↔
      workspace.toJson.depth ≤ Json.maxDepth ∧
        ∀ path instant, (path, .dateTime instant) ∈ workspace.store.values →
          ¬ instant.IsOffMinute) ∧
    ∀ text workspace, read? text = some workspace →
      read? workspace.print = some workspace ∧
        (read? workspace.print).map print = some workspace.print := by
  refine ⟨fun _ => read?_print, fun workspace => ?_, ?_⟩
  · rw [read?_print_iff, readBack_eq_self_iff]
  intro text workspace loaded
  have again := read?_print_iff.mpr ⟨depth_of_read? loaded, readBack_of_read? loaded⟩
  exact ⟨again, by rw [again]; rfl⟩

/-- A file with lists instead of records, a field that means nothing, a missing value and a half of
a leap second under a wrong type. -/
def looseText : String :=
  "[\x7b\"attributes\":[[\"A\",true]],\"note\":null\x7d,"
    ++ "\x7b\"instances\":\x7b\"P\":[[\"P\",\"Object\",null,"
    ++ "[[\"A\",\"Boolean\",[\"DateTime\",\"+12345-06-30t23:59:60.5+00:00\"]]]]]\x7d\x7d]"

theorem saves_and_loads_looseText :
    ∃ workspace, read? looseText = some workspace ∧
      workspace.configuration = ⟨[.single "A" true]⟩ ∧
      workspace.toJson.depth ≤ Json.maxDepth ∧
      read? workspace.print = some workspace.readBack ∧
      read? workspace.print = some workspace ∧
        (read? workspace.print).map print = some workspace.print := by
  have accepted : (read? looseText).map (·.configuration) = some ⟨[.single "A" true]⟩ := by
    decide +kernel
  obtain ⟨workspace, loaded, configured⟩ := Option.map_eq_some_iff.mp accepted
  have again := saves_and_loads.2.2 _ workspace loaded
  have shallow := ((saves_and_loads.2.1 workspace).mp again.1).1
  exact ⟨workspace, loaded, configured, shallow, saves_and_loads.1 workspace shallow, again⟩

/-- A workspace with one edit model, which stores an instant. -/
def storing (instant : Instant) : Workspace where
  configuration := ⟨[]⟩
  store :=
    { types := .empty
      instances :=
        .ofList
          [("P", { root := { Property.object "P" with children := [.leaf "A" (.dateTime instant)] }
                   retained := .empty })] }

/-- Half a leap second off the end of a minute is saved, but half of the next second is loaded. -/
theorem not_loads_offMinute :
    let workspace := storing (.startOf2024 0 1500000000 (by decide) (by decide))
    workspace.toJson.depth ≤ Json.maxDepth ∧ read? workspace.print ≠ some workspace ∧
      read? workspace.print =
        some (storing (.startOf2024 1 500000000 (by decide) (by decide))) := by
  intro workspace
  have shallow : workspace.toJson.depth ≤ Json.maxDepth := by decide +kernel
  rw [read?_print shallow]
  exact ⟨shallow, by decide +kernel, by decide +kernel⟩

end Workspace

end AlarmView
