import AlarmView.Proofs.EditModel.Creation

/-!
# Stores over their history

A store that only grown configurations have shaped knows no leaves but those that the configuration
lists.  The criteria below the severity that no panel shows are never checked.
-/

namespace AlarmView

open BrowseName Property

/-- What holds of the schemas of a store. -/
structure Property.Kept (configuration : Configuration) (schema : Property) : Prop where
  shaped : schema.Shaped
  listed : ∀ attr name, schema.leafAt? attr name ≠ none → configuration.Lists attr name
  defaults : ∀ path value, (path, value) ∈ valuesList "" schema.children →
    ∃ now attr name, NamesAttribute attr ∧ path = join attr name ∧ value = defaultValue now name

/-- What holds of the instances of a store. -/
structure Instance.Kept (model : Instance) : Prop where
  sound : model.Sound
  hidden : ∀ name value, isRangeValue name = false → name ≠ BrowseName.severity →
    model.logical? (join BrowseName.severity name) = some value → value = .boolean false

/-- What holds of a store under the configurations that it has seen. -/
structure Store.Kept (configuration : Configuration) (store : Store) : Prop where
  schemas : ∀ key schema, store.types.get? key = some schema → schema.Kept configuration
  models : ∀ key model, store.instances.get? key = some model → model.Kept

/-- Whether an edit model is in line with a configuration. -/
structure Configuration.Matches (configuration : Configuration) (schema : Property)
    (model : Instance) : Prop where
  schemaKept : schema.Kept configuration
  settled : Schema.Settled configuration.attributes schema
  offers : ∀ attr name, schema.leafAt? attr name ≠ none ↔ configuration.Offers attr name
  modelKept : model.Kept
  nodes : (nodesList "" model.root.children).Perm (nodesList "" schema.children)

variable {configuration : Configuration}

theorem Configuration.Matches.leafAt? {schema : Property} {model : Instance}
    (inLine : configuration.Matches schema model) {attr : String} (named : NamesAttribute attr)
    (name : String) : model.root.leafAt? attr name ≠ none ↔ configuration.Offers attr name := by
  rw [← inLine.offers, inLine.schemaKept.shaped.leafAt?_ne_none named,
    inLine.modelKept.sound.shaped.leafAt?_ne_none named, keysList, keysList]
  exact (inLine.nodes.map _).mem_iff

namespace Property.Kept

variable {schema : Property}

private theorem object (configuration : Configuration) (name : String) :
    (Property.object name).Kept configuration where
  shaped := .object name
  listed _ _ present := absurd rfl present
  defaults _ _ member := absurd member List.not_mem_nil

theorem extend {larger : Configuration} (kept : schema.Kept configuration)
    (extended : configuration.Extends larger) : schema.Kept larger where
  shaped := kept.shaped
  listed attr name present := extended.lists (kept.listed attr name present)
  defaults := kept.defaults

private theorem sync (kept : schema.Kept configuration) (wellFormed : configuration.WellFormed)
    (now : Instant) :
    (Schema.syncAttributes now schema configuration.attributes).1.Kept configuration where
  shaped := Schema.shaped_syncAttributes kept.shaped now wellFormed
  listed attr name present :=
    ((Schema.syncAttributes_offers kept.shaped.unique wellFormed.siblings kept.listed
      attr name).mp present).lists
  defaults := by
    intro path value member
    rcases Schema.values_syncAttributes kept.shaped.regular wellFormed.siblings member with old | shows
    · exact kept.defaults path value old
    · obtain ⟨flag, flagMember, _, leaf, leafMember, _, rfl, rfl⟩ := shows
      exact ⟨now, flag.name, leaf.name, wellFormed.named flag flagMember, rfl,
        Leaf.ofAttribute_default leafMember⟩

end Property.Kept

theorem BrowseName.severity_named : NamesAttribute BrowseName.severity := by decide

private theorem BrowseName.defaultValue_free (now : Instant) {name : String}
    (free : isRangeValue name = false) : defaultValue now name = .boolean false := by
  simp only [isRangeValue, Bool.or_eq_false_iff, beq_eq_false_iff_ne] at free
  obtain ⟨⟨⟨notFrom, notTo⟩, notLower⟩, notUpper⟩ := free
  simp [defaultValue, notFrom, notTo, notLower, notUpper]

namespace Instance.Kept

variable {model changed : Instance}

private theorem new (name : String) : (Instance.new name).Kept where
  sound := .new name
  hidden other _ _ _ stored := by
    have absent : (Instance.new name).logical? (join BrowseName.severity other) = none := rfl
    simp [absent] at stored

private theorem update (kept : model.Kept) {schema : Property}
    (schemaKept : schema.Kept configuration) : (model.update schema).1.Kept where
  sound := kept.sound.update schemaKept.shaped
  hidden := by
    intro name value free other stored
    rcases kept.sound.of_logical?_update schemaKept.shaped stored with old | default
    · exact kept.hidden name value free other old
    · obtain ⟨now, attr, leaf, named, path, rfl⟩ := schemaKept.defaults _ _ default
      obtain ⟨_, rfl⟩ := join_injective severity_named named path
      exact defaultValue_free now free

theorem setValue (kept : model.Kept) {attr name : String} {value : PropertyValue}
    (shown : attr = BrowseName.severity → isRangeValue name = true ∨ name = BrowseName.severity)
    (stored : model.setValue attr name value = .ok changed) : changed.Kept where
  sound := kept.sound.setValue stored
  hidden := by
    intro other otherValue free different logical
    rw [kept.sound.logical?_setValue stored] at logical
    split at logical
    · next same =>
        have named := named_of_setValue kept.sound.shaped stored
        obtain ⟨rfl, rfl⟩ := join_injective severity_named named same
        rcases shown rfl with range | own
        · simp [range] at free
        · exact absurd own different
    · exact kept.hidden other otherValue free different logical

end Instance.Kept

private theorem Schema.matches_sync {schema : Property} {model : Instance}
    (schemaKept : schema.Kept configuration) (kept : model.Kept)
    (wellFormed : configuration.WellFormed) (now : Instant) :
    let synced := (syncAttributes now schema configuration.attributes).1
    configuration.Matches synced (model.update synced).1 := by
  intro synced
  have syncedKept : synced.Kept configuration := schemaKept.sync wellFormed now
  exact {
    schemaKept := syncedKept
    settled := settled_syncAttributes schemaKept.shaped.unique wellFormed.siblings now
    offers := syncAttributes_offers schemaKept.shaped.unique wellFormed.siblings schemaKept.listed
    modelKept := kept.update syncedKept
    nodes := kept.sound.update_nodes syncedKept.shaped }

namespace Store.Kept

variable {store : Store}

theorem iff_each : store.Kept configuration ↔ store.Each (·.Kept configuration) Instance.Kept :=
  ⟨fun kept => ⟨kept.schemas, kept.models⟩, fun each => ⟨each.schemas, each.models⟩⟩

theorem empty (configuration : Configuration) : Store.empty.Kept configuration :=
  iff_each.mpr .empty

theorem extend {larger : Configuration} (kept : store.Kept configuration)
    (extended : configuration.Extends larger) : store.Kept larger where
  schemas key schema found := (kept.schemas key schema found).extend extended
  models := kept.models

theorem putInstance (kept : store.Kept configuration) {model : Instance} (modelKept : model.Kept)
    (editModel : String) : (store.putInstance editModel model).Kept configuration :=
  iff_each.mpr ((iff_each.mp kept).putInstance editModel modelKept)

theorem delete (kept : store.Kept configuration) (names : EditModelNames) :
    (store.delete names).Kept configuration :=
  iff_each.mpr ((iff_each.mp kept).delete names)

private theorem schemaOf (kept : store.Kept configuration) (names : EditModelNames) :
    (store.schemaOf names).Kept configuration :=
  (iff_each.mp kept).schemaOf names (.object configuration names.typeName)

private theorem modelOf (kept : store.Kept configuration) (names : EditModelNames) :
    (store.modelOf names).Kept :=
  (iff_each.mp kept).modelOf names (.new names.editModel)

theorem create (kept : store.Kept configuration) (wellFormed : configuration.WellFormed)
    (now : Instant) (names : EditModelNames) :
    ∃ after report schema model, store.create now names configuration = (after, .ok report) ∧
      after.Kept configuration ∧ after.types.get? names.typeName = some schema ∧
      after.instances.get? names.editModel = some model ∧ configuration.Matches schema model := by
  have inLine := Schema.matches_sync (kept.schemaOf names) (kept.modelOf names) wellFormed now
  rcases store.create_cases names now configuration with
    ⟨_, report, _, creation⟩ | ⟨error, refused, _⟩
  · have after := (iff_each.mp kept).put names inLine.schemaKept inLine.modelKept
    exact ⟨_, report, _, _, creation, iff_each.mpr after, types_put .., instances_put .., inLine⟩
  · obtain ⟨gates, usable⟩ := wellFormed.usable
    exact absurd (usable.symm.trans refused) (by simp)

end Store.Kept

theorem Configuration.Matches.mirrors {schema : Property} {model : Instance}
    (inLine : configuration.Matches schema model) : schema.Mirrors model.root :=
  Instance.mirrors_of_nodes inLine.schemaKept.shaped inLine.modelKept.sound.shaped inLine.nodes

end AlarmView
