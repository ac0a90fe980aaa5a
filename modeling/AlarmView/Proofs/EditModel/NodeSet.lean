import AlarmView.Proofs.EditModel.Creation
import AlarmView.Proofs.EditModel.Settling

/-!
# The nodes of an edit model

After every successful creation the schema and the instance have exactly the nodes that the present
configuration calls for.  Through any history the schema of an edit model has no attribute and no
leaf that the configuration does not list, so the next creation finds all that it has to remove.
-/

namespace AlarmView

open BrowseName Property

/-- The paths and types of the nodes that a configuration calls for. -/
inductive Configuration.HasNode (configuration : Configuration) :
    List String → PropertyType → Prop where
  | object {attr : String} :
      configuration.attributeEnabled attr → HasNode configuration [attr] .object
  | criterion {attr name : String} :
      configuration.attributeEnabled attr → configuration.criterionEnabled attr name →
      isRangeValue name = false → HasNode configuration [attr, name] .boolean
  | lowerBound :
      configuration.attributeEnabled BrowseName.eventTime →
      configuration.criterionEnabled BrowseName.eventTime fromEventTime →
      HasNode configuration [BrowseName.eventTime, fromEventTimeValue] .dateTime
  | upperBound :
      configuration.attributeEnabled BrowseName.eventTime →
      configuration.criterionEnabled BrowseName.eventTime toEventTime →
      HasNode configuration [BrowseName.eventTime, toEventTimeValue] .dateTime
  | lowerLimit :
      configuration.attributeEnabled severity → configuration.criterionEnabled severity severity →
      HasNode configuration [severity, fromSeverity] .uint16
  | upperLimit :
      configuration.attributeEnabled severity → configuration.criterionEnabled severity severity →
      HasNode configuration [severity, toSeverity] .uint16

private theorem Configuration.HasNode.attributeEnabled {configuration : Configuration}
    {attr name : String}
    {type : PropertyType} (node : configuration.HasNode [attr, name] type) :
    configuration.attributeEnabled attr := by
  cases node with
  | criterion enabled => exact enabled
  | lowerBound enabled => exact enabled
  | upperBound enabled => exact enabled
  | lowerLimit enabled => exact enabled
  | upperLimit enabled => exact enabled

namespace Configuration

variable {configuration : Configuration}

/-- The nodes of a configuration are its enabled attributes and the leaves that it offers. -/
theorem hasNode_iff (siblings : configuration.Distinct) {path : List String}
    {type : PropertyType} :
    configuration.HasNode path type ↔
      (∃ attr, path = [attr] ∧ type = .object ∧ configuration.attributeEnabled attr) ∨
        ∃ attr name, path = [attr, name] ∧ type = leafType name ∧
          configuration.Offers attr name := by
  constructor
  · intro node
    cases node with
    | object enabled => exact .inl ⟨_, rfl, rfl, enabled⟩
    | criterion enabled shown free =>
        refine .inr ⟨_, _, rfl, (leafType_of_free free).symm, ?_⟩
        exact (offers_iff siblings).mpr
          ⟨_, ⟨enabled, shown⟩, Leaf.mem_namesOf.mpr ⟨free, .inl rfl⟩⟩
    | lowerBound enabled shown =>
        refine .inr ⟨_, _, rfl, by decide, ?_⟩
        exact (offers_iff siblings).mpr ⟨_, ⟨enabled, shown⟩, by decide⟩
    | upperBound enabled shown =>
        refine .inr ⟨_, _, rfl, by decide, ?_⟩
        exact (offers_iff siblings).mpr ⟨_, ⟨enabled, shown⟩, by decide⟩
    | lowerLimit enabled shown =>
        refine .inr ⟨_, _, rfl, by decide, ?_⟩
        exact (offers_iff siblings).mpr ⟨_, ⟨enabled, shown⟩, by decide⟩
    | upperLimit enabled shown =>
        refine .inr ⟨_, _, rfl, by decide, ?_⟩
        exact (offers_iff siblings).mpr ⟨_, ⟨enabled, shown⟩, by decide⟩
  · intro given
    rcases given with ⟨attr, rfl, rfl, enabled⟩ | ⟨attr, name, rfl, rfl, offered⟩
    · exact .object enabled
    · obtain ⟨criterion, ⟨enabled, shown⟩, called⟩ := (offers_iff siblings).mp offered
      obtain ⟨free, own | lower | upper | limits⟩ := Leaf.mem_namesOf.mp called
      · subst own
        rw [leafType_of_free free]
        exact .criterion enabled shown free
      · obtain ⟨rfl, rfl, rfl⟩ := lower
        exact .lowerBound enabled shown
      · obtain ⟨rfl, rfl, rfl⟩ := upper
        exact .upperBound enabled shown
      · obtain ⟨rfl, rfl, rfl | rfl⟩ := limits
        · exact .lowerLimit enabled shown
        · exact .upperLimit enabled shown

end Configuration

theorem Property.Regular.hasNode_iff {root : Property} (regular : root.Regular)
    {path : List String} {type : PropertyType} :
    root.HasNode path type ↔
      (∃ attr, path = [attr] ∧ type = .object ∧ root.child? attr ≠ none) ∨
        ∃ attr name, path = [attr, name] ∧ type = leafType name ∧
          root.leafAt? attr name ≠ none := by
  constructor
  · intro node
    obtain ⟨row, member, rfl, rfl⟩ := node
    obtain ⟨group, inRoot, here⟩ := mem_listingList.mp member
    have groupFound : root.child? group.name = some group :=
      findNamed_of_mem regular.distinct inRoot
    have shape := regular.groups group inRoot
    rcases here with rfl | below
    · exact .inl ⟨group.name, rfl, shape.type, by simp [groupFound]⟩
    · obtain ⟨leaf, inGroup, rfl | deeper⟩ := mem_listingList.mp below
      · have leafFound : group.child? leaf.name = some leaf :=
          findNamed_of_mem shape.distinct inGroup
        refine .inr ⟨group.name, leaf.name, rfl, (shape.leaves leaf inGroup).type_eq, ?_⟩
        simp [leafAt?, groupFound, leafFound]
      · rw [(shape.leaves leaf inGroup).children] at deeper
        exact absurd deeper List.not_mem_nil
  · intro given
    rcases given with ⟨attr, rfl, rfl, present⟩ | ⟨attr, name, rfl, rfl, present⟩
    · obtain ⟨group, found⟩ := Option.ne_none_iff_exists'.mp present
      obtain rfl : group.name = attr := findNamed_name found
      have inRoot : group ∈ root.children := findNamed_mem found
      exact ⟨_, mem_listingList.mpr ⟨group, inRoot, .inl rfl⟩, rfl,
        (regular.groups group inRoot).type⟩
    · obtain ⟨leaf, found⟩ := Option.ne_none_iff_exists'.mp present
      obtain ⟨group, groupFound, leafFound⟩ := Option.bind_eq_some_iff.mp found
      obtain rfl : group.name = attr := findNamed_name groupFound
      obtain rfl : leaf.name = name := findNamed_name leafFound
      have inRoot : group ∈ root.children := findNamed_mem groupFound
      have inGroup : leaf ∈ group.children := findNamed_mem leafFound
      let row : Row :=
        { path := [group.name, leaf.name], type := leaf.type, value := leaf.value }
      have below : row ∈ listingList [group.name] group.children :=
        mem_listingList.mpr ⟨leaf, inGroup, .inl rfl⟩
      exact ⟨row, mem_listingList.mpr ⟨group, inRoot, .inr below⟩, rfl,
        ((regular.groups group inRoot).leaves leaf inGroup).type_eq⟩

/-- Whether a schema has only attributes and leaves that a configuration lists. -/
structure Property.Covered (configuration : Configuration) (schema : Property) : Prop where
  regular : schema.Regular
  attributes : ∀ attr, schema.child? attr ≠ none →
    ∃ flag ∈ configuration.attributes, flag.name = attr
  leaves : ∀ attr name, schema.leafAt? attr name ≠ none → configuration.Lists attr name

namespace Property.Covered

variable {configuration : Configuration} {schema : Property}

private theorem object (configuration : Configuration) (name : String) :
    (Property.object name).Covered configuration where
  regular := .object name
  attributes _ present := absurd rfl present
  leaves _ _ present := absurd rfl present

private theorem extend {larger : Configuration} (covered : schema.Covered configuration)
    (extended : configuration.Extends larger) : schema.Covered larger where
  regular := covered.regular
  attributes attr present := by
    obtain ⟨flag, member, rfl⟩ := covered.attributes attr present
    obtain ⟨other, otherMember, larger⟩ := extended.larger_of_mem member
    exact ⟨other, otherMember, larger.name⟩
  leaves attr name present := extended.lists (covered.leaves attr name present)

variable (covered : schema.Covered configuration) (siblings : configuration.Distinct)
  (now : Instant)

include covered siblings

theorem child?_sync (attr : String) :
    (Schema.syncAttributes now schema configuration.attributes).1.child? attr ≠ none ↔
      configuration.attributeEnabled attr := by
  have lookup : configuration.attributes.find? (·.name == attr) = configuration.attribute? attr :=
    rfl
  rw [Schema.syncAttributes_child? covered.regular.distinct now siblings.attributes, lookup,
    Configuration.attributeEnabled]
  cases found : configuration.attribute? attr with
  | some flag => cases enabled : flag.enabled <;> simp [enabled]
  | none =>
      have absent : schema.child? attr = none := by
        by_contra present
        obtain ⟨flag, member, rfl⟩ := covered.attributes attr present
        simp [Configuration.attribute?_of_mem siblings.attributes member] at found
      simp [absent]

theorem leafAt?_sync (attr name : String) :
    (Schema.syncAttributes now schema configuration.attributes).1.leafAt? attr name ≠ none ↔
      configuration.Offers attr name :=
  Schema.syncAttributes_offers covered.regular.unique siblings covered.leaves attr name

/-- After the schema pass the schema has exactly the nodes of the configuration. -/
theorem hasNode_sync (path : List String) (type : PropertyType) :
    (Schema.syncAttributes now schema configuration.attributes).1.HasNode path type ↔
      configuration.HasNode path type := by
  rw [(Schema.regular_syncAttributes covered.regular now siblings).hasNode_iff,
    Configuration.hasNode_iff siblings]
  simp only [covered.child?_sync siblings now, covered.leafAt?_sync siblings now]

theorem sync :
    (Schema.syncAttributes now schema configuration.attributes).1.Covered configuration where
  regular := Schema.regular_syncAttributes covered.regular now siblings
  attributes attr present := by
    have enabled := (covered.child?_sync siblings now attr).mp present
    obtain ⟨flag, member, named, _⟩ :=
      (Configuration.attributeEnabled_iff siblings).mp enabled
    exact ⟨flag, member, named⟩
  leaves attr name present := ((covered.leafAt?_sync siblings now attr name).mp present).lists

end Property.Covered

/-- What can happen to a configuration and to the edit model that follows it. -/
inductive Revision where
  | setEnabled (attr : String) (criterion : Option String) (enabled : Bool)
  | create (now : Instant)

/-- A configuration and the store of the edit model that follows it. -/
structure Revised where
  configuration : Configuration
  store : Store

namespace Revised

/-- The state after a revision; an edit that fails leaves the configuration as it was. -/
def step (names : EditModelNames) (state : Revised) : Revision → Revised
  | .setEnabled attr criterion enabled =>
      match state.configuration.setEnabled attr criterion enabled with
      | .ok configuration => { state with configuration }
      | .error _ => state
  | .create now => { state with store := (state.store.create now names state.configuration).1 }

def run (names : EditModelNames) (state : Revised) (revisions : List Revision) : Revised :=
  revisions.foldl (step names) state

/-- What holds through a whole history. -/
structure Tracks (names : EditModelNames) (state : Revised) : Prop where
  siblings : state.configuration.Distinct
  covered : (state.store.schemaOf names).Covered state.configuration
  unique : (state.store.modelOf names).root.Unique

namespace Tracks

variable {names : EditModelNames} {state : Revised}

private theorem start {configuration : Configuration} (siblings : configuration.Distinct)
    {store : Store}
    (unknown : store.knows names = false) : Tracks names { configuration, store } := by
  obtain ⟨noSchema, noModel⟩ : store.types.get? names.typeName = none ∧
      store.instances.get? names.editModel = none := by
    simpa [Store.knows, Table.contains] using unknown
  refine ⟨siblings, ?_, ?_⟩
  · rw [Store.schemaOf, noSchema]
    exact .object configuration names.typeName
  · rw [Store.modelOf, noModel]
    exact ⟨.nil, trivial⟩

private theorem step (tracks : state.Tracks names) (revision : Revision) :
    (state.step names revision).Tracks names := by
  cases revision with
  | setEnabled attr criterion enabled =>
      rw [Revised.step]
      cases edited : state.configuration.setEnabled attr criterion enabled with
      | error error => exact tracks
      | ok configuration =>
          exact {
            siblings := tracks.siblings.setEnabled edited
            covered := tracks.covered.extend (Configuration.extends_setEnabled edited)
            unique := tracks.unique }
  | create now =>
      have synced := tracks.covered.sync tracks.siblings now
      rw [Revised.step]
      rcases state.store.create_cases names now state.configuration with
        ⟨_, _, _, creation⟩ | ⟨_, _, creation⟩
      · rw [creation]
        exact {
          siblings := tracks.siblings
          covered := by rwa [Store.schemaOf_put]
          unique := by
            rw [Store.modelOf_put]
            exact Instance.update_unique synced.regular.unique tracks.unique }
      · rw [creation]
        exact {
          siblings := tracks.siblings
          covered := by rw [Store.schemaOf_prepared]; exact tracks.covered
          unique := by rw [Store.modelOf_prepared]; exact tracks.unique }

private theorem run (tracks : state.Tracks names) (revisions : List Revision) :
    (state.run names revisions).Tracks names := by
  induction revisions generalizing state with
  | nil => exact tracks
  | cons revision rest ih => exact ih (tracks.step revision)

end Tracks

end Revised

/-- Whatever the history, a successful creation leaves a schema and an instance whose nodes are
exactly those of the present configuration. -/
theorem run_hasNode_iff {configuration : Configuration} (siblings : configuration.Distinct)
    {store : Store} {names : EditModelNames} (unknown : store.knows names = false)
    (revisions : List Revision) (now : Instant) :
    let state := Revised.run names { configuration, store } revisions
    ∀ after report, state.store.create now names state.configuration = (after, .ok report) →
      ∃ schema model, after.types.get? names.typeName = some schema ∧
        after.instances.get? names.editModel = some model ∧
        schema.Unique ∧ model.root.Unique ∧ ∀ path type,
          (schema.HasNode path type ↔ state.configuration.HasNode path type) ∧
          (model.root.HasNode path type ↔ state.configuration.HasNode path type) := by
  intro state after report accepted
  have tracks : state.Tracks names := (Revised.Tracks.start siblings unknown).run revisions
  have synced := tracks.covered.sync tracks.siblings now
  have unique := synced.regular.unique
  rcases state.store.create_cases names now state.configuration with
    ⟨_, _, _, creation⟩ | ⟨_, _, creation⟩
  · obtain ⟨rfl, _⟩ := Prod.mk.inj (creation.symm.trans accepted)
    have mirrors := Instance.update_mirrors unique (state.store.modelOf names)
    refine ⟨_, _, (Table.get?_insert ..).trans (if_pos rfl),
      (Table.get?_insert ..).trans (if_pos rfl), unique,
      Instance.update_unique unique tracks.unique, fun path type => ?_⟩
    have nodes := tracks.covered.hasNode_sync tracks.siblings now path type
    exact ⟨nodes, (mirrors.hasNode_iff unique).trans nodes⟩
  · exact absurd (creation.symm.trans accepted) (by simp)

/-- The event time is switched off after a first creation, and a new class is shown. -/
theorem run_hasNode_iff_hidden_eventTime :
    let names : EditModelNames := { editModel := "Alarms", widget := "Panel" }
    let revisions : List Revision :=
      [.create .unixEpoch, .setEnabled "EventTime" none false,
        .setEnabled "Class" (some "Motors") true, .setEnabled "Class" none true]
    let state := Revised.run names { configuration := .builtin, store := .empty } revisions
    Store.empty.knows names = false ∧ ∃ after report schema model,
      state.store.create .unixEpoch names state.configuration = (after, .ok report) ∧
      after.types.get? names.typeName = some schema ∧
      after.instances.get? names.editModel = some model ∧
      model.root.HasNode ["Class", "Motors"] .boolean ∧
      ¬ model.root.HasNode ["EventTime", "FromEventTimeDateTime"] .dateTime := by
  intro names revisions state
  have unknown : Store.empty.knows names = false := by decide +kernel
  have usable : state.configuration.rangeGates = .ok ⟨⟨false, false⟩, true⟩ := rfl
  have nodes := run_hasNode_iff Configuration.builtin_wellFormed.siblings unknown revisions
    .unixEpoch
  rcases state.store.create_cases names .unixEpoch state.configuration with
    ⟨_, report, _, creation⟩ | ⟨_, refused, _⟩
  · obtain ⟨schema, model, schemaFound, modelFound, _, _, same⟩ := nodes _ report creation
    refine ⟨unknown, _, report, schema, model, creation, schemaFound, modelFound, ?_, ?_⟩
    · apply (same _ _).2.mpr
      exact .criterion (by decide +kernel) (by decide +kernel) (by decide)
    · intro node
      have enabled := ((same _ _).2.mp node).attributeEnabled
      exact absurd enabled (by decide +kernel)
  · simp [usable] at refused

end AlarmView
