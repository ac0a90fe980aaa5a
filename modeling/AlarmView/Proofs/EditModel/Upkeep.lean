import AlarmView.Proofs.EditModel.InstancePass
import AlarmView.Proofs.EditModel.SchemaPass

/-!
# Sound instances

An instance is sound if it is shaped, if no path is both live and retained, and if every retained
value belongs to a leaf of its type.  The instance pass and the storing of values keep it sound.
-/

namespace AlarmView

open BrowseName Property

namespace Instance

variable {look : String → Option PropertyValue}

theorem seed_isLeaf {leaf : Property} (shaped : leaf.IsLeaf) (path : String) :
    (seed look path leaf).IsLeaf := by
  obtain ⟨value, same, type⟩ := shaped
  generalize leaf.name = name at same type
  subst same
  rw [Property.leaf, seed]
  cases retained : (look path).filter (·.type == value.type) with
  | none => exact ⟨value, rfl, type⟩
  | some stored =>
      have sameType : stored.type = value.type := by
        simpa using (Option.filter_eq_some_iff.mp retained).2
      exact ⟨stored, by simp [seedList, Property.leaf, sameType], sameType.trans type⟩

private theorem seed_isAttribute {attr : Property} (shaped : attr.IsAttribute) (path : String) :
    (seed look path attr).IsAttribute := by
  obtain ⟨name, type, value, children⟩ := attr
  obtain ⟨⟨rfl, rfl, distinct, leaves⟩, named⟩ := shaped
  rw [seed]
  refine { named, type := rfl, value := ?_, distinct := ?_, leaves := ?_ }
  · -- No value has the type of an object.
    have noValue : (look path).filter (·.type == .object) = none := by
      apply Option.filter_eq_none_iff.mpr
      intro stored _
      cases stored <;> simp [PropertyValue.type]
    rw [noValue]
    rfl
  · rw [names_seedList]
    exact distinct
  · intro leaf member
    rw [seedList_eq_map] at member
    obtain ⟨original, listed, rfl⟩ := List.mem_map.mp member
    exact seed_isLeaf (leaves original listed) _

theorem merge_distinct (path : String) {schema property : Property}
    (schemaUnique : schema.Unique) (unique : property.Unique) :
    (names (merge look path schema property.children)).Nodup := by
  obtain ⟨distinct, below⟩ := unique_iff.mp unique
  refine (fillList_unique look path schema.children _
    (uniqueList_iff.mpr (unique_iff.mp schemaUnique).2) ?_ ?_).1
  · exact distinct.sublist (names_pruneList_sublist schema path property.children)
  · exact uniqueList_pruneList schema path property.children (uniqueList_iff.mpr below)

private theorem mem_merge_attribute {path : String} {schema attr : Property}
    (schemaShaped : schema.IsAttribute) (shaped : attr.IsAttribute) {leaf : Property}
    (member : leaf ∈ merge look path schema attr.children) : leaf.IsLeaf := by
  have found := findNamed_of_mem (merge_distinct path schemaShaped.unique shaped.unique) member
  rw [findNamed_merge path schemaShaped.distinct shaped.distinct] at found
  obtain ⟨wanted, lookup, same⟩ := Option.map_eq_some_iff.mp found
  have wantedLeaf := schemaShaped.leaves wanted (findNamed_mem lookup)
  split at same
  · next stored kept =>
      have storedLeaf := shaped.leaves stored (findNamed_mem (Option.filter_eq_some_iff.mp kept).1)
      have unchanged : merge look (join path leaf.name) wanted stored.children = [] := by
        rw [storedLeaf.children, merge, wantedLeaf.children]
        rfl
      have whole : { stored with children := [] } = stored := by
        rw [← storedLeaf.children]
        cases stored
        rfl
      rw [unchanged, whole] at same
      exact same ▸ storedLeaf
  · rw [← same]
    exact seed_isLeaf wantedLeaf _

private theorem update_shaped {schema : Property} {model : Instance} (schemaShaped : schema.Shaped)
    (shaped : model.root.Shaped) : (update schema model).1.root.Shaped where
  distinct := (unique_iff.mp (update_unique schemaShaped.unique shaped.unique)).1
  attributes attr member := by
    rw [update_eq schemaShaped.distinct_keys] at member
    have found := findNamed_of_mem
      (merge_distinct "" schemaShaped.unique shaped.unique) member
    rw [findNamed_merge "" schemaShaped.distinct shaped.distinct] at found
    obtain ⟨wanted, lookup, same⟩ := Option.map_eq_some_iff.mp found
    have wantedShaped := schemaShaped.child_isAttribute lookup
    split at same
    · next stored kept =>
        have storedShaped :=
          shaped.child_isAttribute (Option.filter_eq_some_iff.mp kept).1
        rw [← same]
        exact
          { named := storedShaped.named, type := storedShaped.type, value := storedShaped.value
            distinct := merge_distinct _ wantedShaped.unique storedShaped.unique
            leaves := fun leaf listed => mem_merge_attribute wantedShaped storedShaped listed }
    · rw [← same]
      exact seed_isAttribute wantedShaped _

/-- A value is stored in an existing leaf of its type, and nothing else changes. -/
theorem setValue_eq_ok {model changed : Instance} {attr name : String} {value : PropertyValue} :
    model.setValue attr name value = .ok changed ↔
      ∃ parent leaf, model.root.child? attr = some parent ∧ parent.child? name = some leaf ∧
        leaf.type = value.type ∧
        changed = { model with
          root := model.root.updateChild attr
            (·.updateChild name fun property => { property with value := some value }) } := by
  unfold setValue requireVariable requireAttribute
  cases model.root.child? attr with
  | none => simp [bind, Except.bind]
  | some parent =>
      cases lookup : parent.child? name with
      | none => simp [bind, Except.bind, lookup]
      | some leaf =>
          by_cases type : leaf.type = value.type
          · simp [bind, Except.bind, lookup, type, eq_comm]
          · simp [bind, Except.bind, lookup, type]

variable {model changed : Instance} {attr name : String} {value : PropertyValue}

theorem retained_setValue (stored : model.setValue attr name value = .ok changed) :
    changed.retained = model.retained := by
  obtain ⟨_, _, _, _, _, rfl⟩ := setValue_eq_ok.mp stored
  rfl

theorem named_of_setValue (shaped : model.root.Shaped)
    (stored : model.setValue attr name value = .ok changed) : NamesAttribute attr := by
  obtain ⟨parent, _, parentFound, _⟩ := setValue_eq_ok.mp stored
  have shape := (shaped.child_isAttribute parentFound).named
  rwa [findNamed_name parentFound] at shape

theorem leafAt?_setValue (stored : model.setValue attr name value = .ok changed)
    (otherAttr otherName : String) :
    changed.root.leafAt? otherAttr otherName =
      if otherAttr = attr ∧ otherName = name then
        (model.root.leafAt? attr name).map fun leaf => { leaf with value := some value }
      else model.root.leafAt? otherAttr otherName := by
  obtain ⟨parent, leaf, parentFound, leafFound, _, rfl⟩ := setValue_eq_ok.mp stored
  have parentName : parent.name = attr := findNamed_name parentFound
  have keepsLeaf : ∀ child : Property, child.name = name →
      ({ child with value := some value } : Property).name = name := fun _ named => named
  have keepsParent : ∀ child : Property, child.name = attr → (child.updateChild name fun property =>
      { property with value := some value }).name = attr := fun _ named => named
  simp only [leafAt?, child?_updateChild keepsParent]
  by_cases sameAttr : otherAttr = attr
  · subst sameAttr
    simp only [if_true, parentFound, Option.map_some, Option.bind_some,
      child?_updateChild keepsLeaf, true_and]
  · simp [sameAttr]

theorem shaped_setValue (shaped : model.root.Shaped)
    (stored : model.setValue attr name value = .ok changed) : changed.root.Shaped := by
  obtain ⟨parent, leaf, parentFound, leafFound, type, rfl⟩ := setValue_eq_ok.mp stored
  have parentShaped := shaped.child_isAttribute parentFound
  have leafShaped := parentShaped.leaves leaf (findNamed_mem leafFound)
  have changedLeaf : ({ leaf with value := some value } : Property).IsLeaf := by
    refine ⟨value, ?_, by rw [← type, leafShaped.type_eq]⟩
    obtain ⟨leafName, leafType, leafValue, children⟩ := leaf
    obtain rfl : children = [] := leafShaped.children
    obtain rfl : leafType = value.type := type
    rfl
  have keepsParent : ∀ child : Property, child.name = attr → (child.updateChild name fun property =>
      { property with value := some value }).name = attr := fun _ named => named
  have keepsLeaf : ∀ child : Property, child.name = name →
      ({ child with value := some value } : Property).name = name := fun _ named => named
  constructor
  · exact (congrArg List.Nodup (names_updateNamed keepsParent _)).mpr shaped.distinct
  · intro other member
    rcases mem_updateNamed member with old | ⟨found, lookup, rfl⟩
    · exact shaped.attributes other old
    · obtain rfl : parent = found := Option.some.inj (parentFound.symm.trans lookup)
      refine { named := parentShaped.named, type := parentShaped.type, value := parentShaped.value
               distinct := ?_, leaves := ?_ }
      · exact (congrArg List.Nodup (names_updateNamed keepsLeaf _)).mpr parentShaped.distinct
      · intro child listed
        rcases mem_updateNamed listed with old | ⟨foundLeaf, leafLookup, rfl⟩
        · exact parentShaped.leaves child old
        · obtain rfl : leaf = foundLeaf := Option.some.inj (leafFound.symm.trans leafLookup)
          exact changedLeaf

theorem nodes_setValue (stored : model.setValue attr name value = .ok changed) :
    nodesList "" changed.root.children = nodesList "" model.root.children := by
  obtain ⟨parent, leaf, _, _, _, rfl⟩ := setValue_eq_ok.mp stored
  refine nodesList_updateNamed (fun _ named => named) fun found _ => ?_
  rw [nodes_eq, nodes_eq, updateChild]
  refine congrArg _ (nodesList_updateNamed (fun _ named => named) fun child _ => ?_)
  rw [nodes_eq, nodes_eq]

end Instance

/-- Reconciling is the two passes, one after the other, wherever the configuration can be used. -/
theorem reconcile_eq (now : Instant) (configuration : Configuration) (schema : Property)
    (model : Instance) :
    reconcile now configuration schema model =
      configuration.rangeGates.map fun _ =>
        let synced := Schema.syncAttributes now schema configuration.attributes
        let updated := model.update synced.1
        { schema := synced.1, model := updated.1
          report := { schema := synced.2, stored := updated.2 } } := by
  unfold reconcile Schema.update
  cases configuration.rangeGates <;> rfl

/-- A well-formed configuration is always reconciled. -/
theorem reconcile_ok {configuration : Configuration} (wellFormed : configuration.WellFormed)
    (now : Instant) (schema : Property) (model : Instance) :
    ∃ result, reconcile now configuration schema model = .ok result ∧
      result.schema = (Schema.syncAttributes now schema configuration.attributes).1 ∧
      result.model = (model.update result.schema).1 := by
  obtain ⟨gates, usable⟩ := wellFormed.usable
  rw [reconcile_eq, usable]
  exact ⟨_, rfl, rfl, rfl⟩

/-- What holds of an instance in its whole history. -/
structure Instance.Sound (model : Instance) : Prop where
  shaped : model.root.Shaped
  apart : ∀ path, model.live? path ≠ none → model.retained.get? path = none
  retained : ∀ path value, model.retained.get? path = some value →
    ∃ attr name, NamesAttribute attr ∧ path = join attr name ∧ value.type = leafType name

namespace Instance.Sound

variable {model changed : Instance} {schema : Property} {path attr name : String}
  {value : PropertyValue}

theorem separate (sound : model.Sound) : model.Separate where
  distinct := sound.shaped.distinct_keys
  apart := sound.apart

theorem new (name : String) : (Instance.new name).Sound where
  shaped := .object name
  apart _ _ := rfl
  retained path value stored := by simp [Instance.new] at stored

theorem leaf_of_logical? (sound : model.Sound) (stored : model.logical? path = some value) :
    ∃ attr name, NamesAttribute attr ∧ path = join attr name ∧ value.type = leafType name := by
  rcases sound.separate.logical?_eq_some.mp stored with live | retained
  · obtain ⟨attr, name, named, same, type, _⟩ := sound.shaped.node_of_value live
    exact ⟨attr, name, named, same, type⟩
  · exact sound.retained path value retained

theorem logical?_update (sound : model.Sound) (schemaShaped : schema.Shaped)
    (stored : model.logical? path = some value) :
    (model.update schema).1.logical? path = some value := by
  refine logical?_update_of_some schemaShaped.distinct_keys schemaShaped.unique
    sound.shaped.unique sound.separate stored fun type node => ?_
  obtain ⟨attr, name, named, rfl, valueType⟩ := sound.leaf_of_logical? stored
  rw [valueType, schemaShaped.type_of_leaf named node]

theorem of_logical?_update (sound : model.Sound) (schemaShaped : schema.Shaped)
    (stored : (model.update schema).1.logical? path = some value) :
    model.logical? path = some value ∨ (path, value) ∈ valuesList "" schema.children :=
  logical?_update_eq_some schemaShaped.distinct_keys schemaShaped.unique sound.shaped.unique
    sound.separate stored

theorem update_nodes (sound : model.Sound) (schemaShaped : schema.Shaped) :
    (nodesList "" (model.update schema).1.root.children).Perm (nodesList "" schema.children) :=
  Instance.update_nodes schemaShaped.distinct_keys schemaShaped.unique sound.shaped.unique

theorem update (sound : model.Sound) (schemaShaped : schema.Shaped) :
    (model.update schema).1.Sound := by
  have after := update_separate schemaShaped.distinct_keys schemaShaped.unique
    sound.shaped.unique sound.separate
  refine ⟨update_shaped schemaShaped sound.shaped, after.apart, fun path value stored => ?_⟩
  rcases sound.of_logical?_update schemaShaped (after.logical?_eq_some.mpr (.inr stored)) with
    old | default
  · exact sound.leaf_of_logical? old
  · obtain ⟨attr, name, named, same, type, _⟩ := schemaShaped.node_of_value default
    exact ⟨attr, name, named, same, type⟩

theorem live?_setValue (sound : model.Sound)
    (stored : model.setValue attr name value = .ok changed) (path : String) :
    changed.live? path = if path = join attr name then some value else model.live? path := by
  have after := shaped_setValue sound.shaped stored
  have leafAfter := leafAt?_setValue stored
  have named := named_of_setValue sound.shaped stored
  obtain ⟨parent, leaf, parentFound, leafFound, _, _⟩ := setValue_eq_ok.mp stored
  have found : model.root.leafAt? attr name = some leaf := by
    rw [leafAt?, parentFound]
    exact leafFound
  ext other
  rw [live?_eq_some after.distinct_keys, after.mem_values_iff_leafAt?]
  split
  · next here =>
      subst here
      constructor
      · intro given
        obtain ⟨otherAttr, otherName, otherNamed, same, lookup⟩ := given
        obtain ⟨rfl, rfl⟩ := join_injective named otherNamed same
        simpa [leafAfter, found] using lookup
      · intro same
        exact ⟨attr, name, named, rfl, by simpa [leafAfter, found] using same⟩
  · next elsewhere =>
      rw [live?_eq_some sound.shaped.distinct_keys, sound.shaped.mem_values_iff_leafAt?]
      refine exists_congr fun otherAttr => exists_congr fun otherName =>
        and_congr_right fun _ => and_congr_right fun same => ?_
      rw [leafAfter, if_neg]
      intro given
      obtain ⟨rfl, rfl⟩ := given
      exact elsewhere same

theorem logical?_setValue (sound : model.Sound)
    (stored : model.setValue attr name value = .ok changed) (path : String) :
    changed.logical? path = if path = join attr name then some value else model.logical? path := by
  rw [logical?, sound.live?_setValue stored, retained_setValue stored]
  split <;> rfl

private theorem live_of_setValue (sound : model.Sound)
    (stored : model.setValue attr name value = .ok changed) :
    model.live? (join attr name) ≠ none := by
  obtain ⟨parent, leaf, parentFound, leafFound, _, _⟩ := setValue_eq_ok.mp stored
  have shape := sound.shaped.child_isAttribute parentFound
  obtain ⟨old, same, _⟩ := (shape.leaves leaf (findNamed_mem leafFound)).value_ne_none
  have listed := sound.shaped.mem_values.mpr ⟨parent, findNamed_mem parentFound, leaf,
    findNamed_mem leafFound, rfl, same⟩
  rw [findNamed_name parentFound, findNamed_name leafFound] at listed
  simp [sound.separate.live?_eq_some.mpr listed]

theorem setValue (sound : model.Sound) (stored : model.setValue attr name value = .ok changed) :
    changed.Sound where
  shaped := shaped_setValue sound.shaped stored
  apart path live := by
    rw [retained_setValue stored]
    apply sound.apart path
    rw [sound.live?_setValue stored] at live
    split at live
    · next here =>
        rw [here]
        exact sound.live_of_setValue stored
    · exact live
  retained := by
    rw [retained_setValue stored]
    exact sound.retained

end Instance.Sound

end AlarmView
