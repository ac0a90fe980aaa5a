import AlarmView.Proofs.EditModel.Creation

/-!
# Regenerated edit models

Deleting an edit model and creating it again leaves no trace of what the store had: the schema and
the instance are the tree that the configuration describes, in the order of the configuration, with
the values that everything has at first.
-/

namespace AlarmView

open BrowseName Property

/-- Items whose names some properties lack are still missing behind another one of its own name. -/
theorem Property.absent_append {ι : Type} {nameOf : ι → String} {item : ι} {rest : List ι}
    (apart : nameOf item ∉ rest.map nameOf) {properties : List Property}
    (absent : ∀ other ∈ rest, nameOf other ∉ names properties) {property : Property}
    (named : property.name = nameOf item) :
    ∀ other ∈ rest, nameOf other ∉ names (properties ++ [property]) := by
  intro other member known
  rw [names_append, List.mem_append] at known
  rcases known with old | new
  · exact absent other member old
  · have same : nameOf other = property.name := List.mem_singleton.mp new
    rw [← named, ← same] at apart
    exact apart (List.mem_map_of_mem member)

def Property.objectOf (name : String) (children : List Property) : Property :=
  { object name with children }

/-- The range values that a criterion of an attribute gates, as they are at first. -/
def Property.rangeValues (now : Instant) (attr criterion : String) : List Property :=
  if attr = eventTime ∧ criterion = fromEventTime then
    [leaf fromEventTimeValue (.dateTime now)]
  else if attr = eventTime ∧ criterion = toEventTime then
    [leaf toEventTimeValue (.dateTime now)]
  else if attr = severity ∧ criterion = severity then
    [leaf fromSeverity (.uint16 1), leaf toSeverity (.uint16 1000)]
  else []

/-- The names of the enabled criteria of an attribute, apart from those of range values. -/
def Flag.shownCriteria (attr : Flag) : List String :=
  (attr.children.filter fun criterion => criterion.enabled && !isRangeValue criterion.name).map
    (·.name)

/-- An attribute with its enabled criteria, none of them checked, and the range values right behind
those that gate them. -/
def Flag.pristine (now : Instant) (attr : Flag) : Property :=
  objectOf attr.name <| attr.shownCriteria.flatMap fun name =>
    leaf name (.boolean false) :: rangeValues now attr.name name

/-- What a configuration describes: its enabled attributes with nothing stored yet. -/
def Configuration.pristine (now : Instant) (configuration : Configuration) : List Property :=
  (configuration.attributes.filter (·.enabled)).map (·.pristine now)

namespace Leaf

def property (leaf : Leaf) : Property :=
  .leaf leaf.name leaf.default

/-- The properties that some leaves call for. -/
def shown (leaves : List Leaf) : List Property :=
  (leaves.filter (·.visible)).map property

private theorem shown_ofRange (now : Instant) (attr : String) (criterion : Flag) :
    shown (ofRange now attr criterion) =
      if criterion.enabled then rangeValues now attr criterion.name else [] := by
  have apart : severity ≠ eventTime := by decide
  unfold ofRange rangeValues
  split_ifs <;> simp_all [shown, property]

private theorem shown_ofCriterion (now : Instant) (attr : String) (criterion : Flag) :
    shown (ofCriterion now attr criterion) =
      if criterion.enabled && !isRangeValue criterion.name then
        .leaf criterion.name (.boolean false) :: rangeValues now attr criterion.name
      else [] := by
  have range := shown_ofRange now attr criterion
  unfold ofCriterion
  cases isRangeValue criterion.name with
  | true => simp [shown]
  | false =>
      cases enabled : criterion.enabled with
      | true => simpa [shown, property, enabled] using range
      | false => simpa [shown, enabled] using range

private theorem shown_append (first second : List Leaf) :
    shown (first ++ second) = shown first ++ shown second := by
  rw [shown, List.filter_append, List.map_append, shown, shown]

private theorem shown_ofAttribute (now : Instant) (attr : Flag) :
    shown (ofAttribute now attr) = (attr.pristine now).children := by
  unfold ofAttribute Flag.pristine Flag.shownCriteria
  induction attr.children with
  | nil => rfl
  | cons criterion rest ih =>
      rw [List.flatMap_cons, shown_append, shown_ofCriterion, ih, List.filter_cons]
      split
      · rfl
      · rfl

end Leaf

namespace Schema

private theorem syncLeaf_absent {parent : Property} {leaf : Leaf}
    (absent : leaf.name ∉ names parent.children) : syncLeaf parent leaf =
      if leaf.visible then
        (parent.addChild leaf.property,
          { Changes.none with added := [join parent.name leaf.name] })
      else (parent, .none) := by
  rw [syncLeaf, hasChild_eq_false.mpr absent]
  cases leaf.visible <;> rfl

/-- Leaves of names that an attribute does not have are added behind its own. -/
theorem syncLeaves_absent (parent : Property) {leaves : List Leaf}
    (distinct : (leaves.map (·.name)).Nodup)
    (absent : ∀ leaf ∈ leaves, leaf.name ∉ names parent.children) :
    syncLeaves parent leaves =
      ({ parent with children := parent.children ++ Leaf.shown leaves },
        { Changes.none with added := (names (Leaf.shown leaves)).map (join parent.name) }) := by
  induction leaves generalizing parent with
  | nil =>
      obtain ⟨name, type, value, children⟩ := parent
      simp [syncLeaves, Leaf.shown, names, Changes.none]
  | cons leaf rest ih =>
      obtain ⟨apart, restDistinct⟩ := List.nodup_cons.mp distinct
      obtain ⟨here, later⟩ := List.forall_mem_cons.mp absent
      rw [syncLeaves, syncLeaf_absent here]
      cases visible : leaf.visible with
      | false =>
          have hides : Leaf.shown (leaf :: rest) = Leaf.shown rest := by
            simp [Leaf.shown, visible]
          simp only [Bool.false_eq_true, if_false, ih parent restDistinct later]
          rw [hides]
          rfl
      | true =>
          have stillAbsent : ∀ other ∈ rest,
              other.name ∉ names (parent.addChild leaf.property).children :=
            absent_append apart later rfl
          have shows : Leaf.shown (leaf :: rest) = leaf.property :: Leaf.shown rest := by
            simp [Leaf.shown, visible]
          simp only [if_true, ih (parent.addChild leaf.property) restDistinct stillAbsent]
          rw [shows, List.append_cons]
          rfl

private theorem keysList_shown (path : String) (leaves : List Leaf) :
    keysList path (Leaf.shown leaves) = (names (Leaf.shown leaves)).map (join path) := by
  unfold Leaf.shown
  induction leaves.filter (·.visible) with
  | nil => rfl
  | cons leaf rest ih =>
      rw [List.map_cons, keysList_cons, ih]
      rfl

private theorem syncAttribute_absent (now : Instant) {schema : Property} {attr : Flag}
    (criteria : (attr.children.map (·.name)).Nodup)
    (absent : attr.name ∉ names schema.children) :
    syncAttribute now schema attr =
      if attr.enabled then
        (schema.addChild (attr.pristine now),
          { Changes.none with added := (attr.pristine now).keys attr.name })
      else (schema, .none) := by
  have missing : schema.child? attr.name = none := findNamed_eq_none.mpr absent
  have leaves := syncLeaves_absent (.object attr.name)
    (Leaf.ofAttribute_distinct now criteria) fun _ _ => List.not_mem_nil
  have tree : objectOf attr.name (Leaf.shown (Leaf.ofAttribute now attr)) =
      attr.pristine now := by
    rw [Leaf.shown_ofAttribute]
    rfl
  have paths : (attr.pristine now).keys attr.name =
      attr.name :: (names (Leaf.shown (Leaf.ofAttribute now attr))).map (join attr.name) := by
    rw [keys_eq, ← Leaf.shown_ofAttribute, keysList_shown]
  rw [syncAttribute, missing]
  cases attr.enabled with
  | false => rfl
  | true =>
      simp only [leaves, if_true, paths]
      rw [← tree]
      rfl

/-- Attributes that the schema does not have are added behind its own, as the configuration
describes them. -/
theorem syncAttributes_absent (now : Instant) {schema : Property} {attrs : List Flag}
    (distinct : (attrs.map (·.name)).Nodup)
    (criteria : ∀ attr ∈ attrs, (attr.children.map (·.name)).Nodup)
    (absent : ∀ attr ∈ attrs, attr.name ∉ names schema.children) :
    let tree := (attrs.filter (·.enabled)).map (·.pristine now)
    syncAttributes now schema attrs =
      ({ schema with children := schema.children ++ tree },
        { Changes.none with added := keysList "" tree }) := by
  induction attrs generalizing schema with
  | nil =>
      obtain ⟨name, type, value, children⟩ := schema
      simp [syncAttributes, keysList, nodesList, Changes.none]
  | cons attr rest ih =>
      obtain ⟨apart, restDistinct⟩ := List.nodup_cons.mp distinct
      obtain ⟨ofAttr, ofRest⟩ := List.forall_mem_cons.mp criteria
      obtain ⟨here, later⟩ := List.forall_mem_cons.mp absent
      rw [syncAttributes, syncAttribute_absent now ofAttr here, List.filter_cons]
      cases attr.enabled with
      | false =>
          simp only [Bool.false_eq_true, if_false, ih restDistinct ofRest later]
          rfl
      | true =>
          have stillAbsent : ∀ other ∈ rest,
              other.name ∉ names (schema.addChild (attr.pristine now)).children :=
            absent_append apart later rfl
          simp only [if_true, ih restDistinct ofRest stillAbsent]
          rw [List.map_cons, List.append_cons, keysList_cons]
          rfl

end Schema

namespace Instance

mutual

/-- Where nothing is retained a part of the schema is copied as it is. -/
theorem adopt_empty (path : String) :
    ∀ property : Property, adopt path property .empty =
      { copy := property, retained := .empty, restored := [] }
  | ⟨name, type, value, children⟩ => by
      have erased : (Table.empty : Table PropertyValue).erase path = .empty := rfl
      have initial : initialValue .empty path type value = (value, []) := rfl
      simp only [adopt, initial, erased, adoptList_empty path children]
      rfl

theorem adoptList_empty (path : String) :
    ∀ properties : List Property, adoptList path properties .empty =
      { copy := properties, retained := .empty, restored := [] }
  | [] => rfl
  | child :: rest => by
      simp only [adoptList, adopt_empty _ child, adoptList_empty path rest]
      rfl

end

/-- What is missing altogether is copied behind what is there. -/
theorem completeList_absent (path : String) (children : List Property) {wanted : List Property}
    (distinct : (names wanted).Nodup)
    (absent : ∀ property ∈ wanted, property.name ∉ names children) :
    completeList path wanted children .empty =
      { whole := children ++ wanted, retained := .empty
        changes := { Changes.none with added := (names wanted).map (join path) } } := by
  induction wanted generalizing children with
  | nil => simp [completeList, names, Changes.none]
  | cons property rest ih =>
      obtain ⟨apart, restDistinct⟩ := List.nodup_cons.mp distinct
      obtain ⟨here, later⟩ := List.forall_mem_cons.mp absent
      simp only [completeList, findNamed_eq_none.mpr here, adopt_empty,
        ih (children ++ [property]) restDistinct (absent_append apart later rfl)]
      rw [List.append_cons children property rest]
      rfl

/-- The instance pass copies the schema into a new instance. -/
theorem update_new {tree : List Property} (distinct : (names tree).Nodup)
    (schemaName modelName : String) :
    (Instance.new modelName).update (objectOf schemaName tree) =
      ({ root := objectOf modelName tree, retained := .empty },
        { Changes.none with added := names tree }) := by
  have completed := completeList_absent "" [] distinct fun _ _ => List.not_mem_nil
  have atRoot : (names tree).map (join "") = names tree := List.map_id _
  have nothing : (Table.empty : Table PropertyValue).insertAll [] = .empty := rfl
  simp only [update, prune_eq, Instance.new, object, objectOf, pruneList, Pruned.none, nothing,
    complete, completed, atRoot]
  rfl

end Instance

private theorem Configuration.names_pristine (now : Instant) (configuration : Configuration) :
    names (configuration.pristine now) =
      (configuration.attributes.filter (·.enabled)).map (·.name) :=
  List.map_map

/-- A new edit model gets the tree that the configuration describes, and all of it is reported. -/
theorem reconcile_new {configuration : Configuration} (siblings : configuration.Distinct)
    {gates : RangeGates} (usable : configuration.rangeGates = .ok gates)
    (schemaName modelName : String) (now : Instant) :
    let tree := configuration.pristine now
    reconcile now configuration (.object schemaName) (.new modelName) =
      .ok
        { schema := objectOf schemaName tree
          model := { root := objectOf modelName tree, retained := .empty }
          report :=
            { schema := { Changes.none with added := keysList "" tree }
              stored := { Changes.none with added := names tree } } } := by
  intro tree
  have distinct : (names tree).Nodup := by
    rw [Configuration.names_pristine]
    exact siblings.attributes.sublist (List.filter_sublist.map _)
  have synced : Schema.syncAttributes now (.object schemaName) configuration.attributes =
      (objectOf schemaName tree, { Changes.none with added := keysList "" tree }) :=
    Schema.syncAttributes_absent now siblings.attributes siblings.criteria
      fun _ _ => List.not_mem_nil
  rw [reconcile_eq, usable]
  simp only [Except.map, synced, Instance.update_new distinct]

namespace Store

/-- An edit model that is deleted and created again has nothing of its past: its schema and its
instance are what the configuration describes, nothing is retained, and the report lists every node
as added. -/
theorem create_delete {configuration : Configuration} (siblings : configuration.Distinct)
    {gates : RangeGates} (usable : configuration.rangeGates = .ok gates) (store : Store)
    (names : EditModelNames) (now : Instant) :
    let created := (store.delete names).create now names configuration
    let tree := configuration.pristine now
    created.1.schema? names = some (objectOf names.typeName tree) ∧
      created.1.requireInstance names.editModel =
        .ok { root := objectOf names.editModel tree, retained := .empty } ∧
      created.2 =
        .ok
          { schema := { added := keysList "" tree, removed := [], restored := [] }
            stored := { added := tree.map (·.name), removed := [], restored := [] } } := by
  intro created tree
  have noSchema : (store.delete names).schemaOf names = .object names.typeName := by
    rw [schemaOf, delete, Table.get?_erase, if_pos rfl, Option.getD_none]
  have noModel : (store.delete names).modelOf names = .new names.editModel := by
    rw [modelOf, delete, Table.get?_erase, if_pos rfl, Option.getD_none]
  have creation := create_eq (store.delete names) names now configuration
  rw [noSchema, noModel, reconcile_new siblings usable] at creation
  have made : created = _ := creation
  rw [made]
  exact ⟨types_put .., requireInstance_put .., rfl⟩

/-- A hidden attribute, a hidden bound and a criterion named like a range value have no node, and
what was stored and retained before does not come back. -/
theorem create_delete_retainedLimit :
    let names : EditModelNames := { editModel := "Alarms", widget := "Panel" }
    let configuration : Configuration :=
      { attributes :=
          [.ofChildren "Priority" false ["Urgent"],
            { name := "EventTime", enabled := true
              children :=
                [.single "ToEventTime" true, .single "FromEventTimeDateTime" true,
                  .single "FromEventTime" false] },
            .ofChildren "Severity" true ["Severity"]] }
    let store := Store.empty.putInstance "Alarms"
      { root := objectOf "Alarms" [objectOf "Priority" [leaf "Urgent" (.boolean true)]]
        retained := Table.empty.insert "Severity/FromSeverity" (.uint16 7) }
    let created := (store.delete names).create .unixEpoch names configuration
    configuration.Distinct ∧ configuration.rangeGates = .ok ⟨⟨false, true⟩, true⟩ ∧
      created.1.requireInstance "Alarms" =
        .ok
          { root :=
              objectOf "Alarms"
                [objectOf "EventTime"
                    [leaf "ToEventTime" (.boolean false),
                      leaf "ToEventTimeDateTime" (.dateTime .unixEpoch)],
                  objectOf "Severity"
                    [leaf "Severity" (.boolean false), leaf "FromSeverity" (.uint16 1),
                      leaf "ToSeverity" (.uint16 1000)]]
            retained := .empty } ∧
      created.2 =
        .ok
          { schema :=
              { added :=
                  ["EventTime", "EventTime/ToEventTime", "EventTime/ToEventTimeDateTime",
                    "Severity", "Severity/Severity", "Severity/FromSeverity",
                    "Severity/ToSeverity"]
                removed := [], restored := [] }
            stored := { added := ["EventTime", "Severity"], removed := [], restored := [] } } := by
  intro names configuration store created
  have siblings : configuration.Distinct := by decide +kernel
  have usable : configuration.rangeGates = .ok ⟨⟨false, true⟩, true⟩ := by decide +kernel
  obtain ⟨_, model, report⟩ := create_delete siblings usable store names .unixEpoch
  refine ⟨siblings, usable, model.trans (congrArg _ ?_), report.trans (congrArg _ ?_)⟩
  · decide +kernel
  · decide +kernel

end Store

end AlarmView
