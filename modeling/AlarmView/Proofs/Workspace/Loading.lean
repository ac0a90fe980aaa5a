import AlarmView.Proofs.Panel.Tracing
import AlarmView.Proofs.Workspace.ReadBack

/-!
# Loaded edit models

What is read of a saved edit model has the tree that was saved, with a value of the same type under
every path.  So whatever is known of the trees, of the types and of the checked states of a store
still holds when it was saved and loaded.
-/

namespace AlarmView

open BrowseName Property

private theorem BrowseName.readBack_defaultValue (now : Instant) (name : String) :
    (defaultValue now name).readBack = defaultValue now.readBack name := by
  unfold defaultValue
  split_ifs <;> rfl

theorem PropertyValue.readBack_eq_boolean {value : PropertyValue} {checked : Bool} :
    value.readBack = .boolean checked ↔ value = .boolean checked := by
  cases value <;> simp [readBack]

namespace Property

mutual

theorem skeleton_readBack : (property : Property) → property.readBack.skeleton = property.skeleton
  | ⟨name, type, value, children⟩ => by
      rw [readBack, skeleton, skeleton, skeletonList_readBackList children]

theorem skeletonList_readBackList : (properties : List Property) →
    skeletonList (readBackList properties) = skeletonList properties
  | [] => rfl
  | property :: rest => by
      rw [readBackList, skeletonList, skeletonList, skeleton_readBack property,
        skeletonList_readBackList rest]

end

mutual

theorem nodes_readBack (path : String) :
    (property : Property) → property.readBack.nodes path = property.nodes path
  | ⟨name, type, value, children⟩ => by
      rw [readBack, nodes, nodes, nodesList_readBackList path children]

theorem nodesList_readBackList (path : String) : (properties : List Property) →
    nodesList path (readBackList properties) = nodesList path properties
  | [] => rfl
  | property :: rest => by
      rw [readBackList, nodesList, nodesList, name_readBack, nodes_readBack _ property,
        nodesList_readBackList path rest]

end

mutual

theorem values_readBack (path : String) : (property : Property) →
    property.readBack.values path =
      (property.values path).map fun entry => (entry.1, entry.2.readBack)
  | ⟨name, type, value, children⟩ => by
      rw [readBack, values, values, valuesList_readBackList _ children, List.map_append]
      cases value <;> rfl

theorem valuesList_readBackList (path : String) : (properties : List Property) →
    valuesList path (readBackList properties) =
      (valuesList path properties).map fun entry => (entry.1, entry.2.readBack)
  | [] => rfl
  | property :: rest => by
      rw [readBackList, valuesList, valuesList, values_readBack path property,
        valuesList_readBackList path rest, List.map_append]

end

variable {root : Property}

@[simp] theorem names_readBack (properties : List Property) :
    names (properties.map readBack) = names properties := by
  simp [names, Function.comp_def]

@[simp] theorem child?_readBack (property : Property) (name : String) :
    property.readBack.child? name = (property.child? name).map readBack := by
  simp only [child?, findNamed, children_readBack, List.find?_map, Function.comp_def, name_readBack]

@[simp] theorem hasChild_readBack (property : Property) (name : String) :
    property.readBack.hasChild name = property.hasChild name := by
  simp [hasChild]

theorem leafAt?_readBack (root : Property) (attr name : String) :
    root.readBack.leafAt? attr name = (root.leafAt? attr name).map readBack := by
  simp only [leafAt?, child?_readBack, Option.bind_map, Option.map_bind, Function.comp_def]

theorem mem_values_readBack {entry : String × PropertyValue}
    (member : entry ∈ valuesList "" root.readBack.children) :
    ∃ value, (entry.1, value) ∈ valuesList "" root.children ∧ entry.2 = value.readBack := by
  obtain ⟨name, type, own, children⟩ := root
  rw [readBack, valuesList_readBackList] at member
  obtain ⟨⟨path, value⟩, listed, rfl⟩ := List.mem_map.mp member
  exact ⟨value, listed, rfl⟩

theorem IsLeaf.readBack {leaf : Property} (shaped : leaf.IsLeaf) : leaf.readBack.IsLeaf := by
  obtain ⟨value, same, type⟩ := shaped
  have sameRead : (Property.leaf leaf.name value).readBack = .leaf leaf.name value.readBack := by
    cases value <;> rfl
  rw [same, sameRead]
  exact isLeaf_leaf (value.type_readBack.trans type)

theorem IsGroup.readBack {group : Property} (shaped : group.IsGroup) : group.readBack.IsGroup where
  type := by rw [type_readBack, shaped.type]
  value := by rw [value_readBack, shaped.value, Option.map_none]
  distinct := by
    rw [children_readBack, names_readBack]
    exact shaped.distinct
  leaves := by
    rw [children_readBack, List.forall_mem_map]
    exact fun leaf member => (shaped.leaves leaf member).readBack

theorem Regular.readBack (regular : root.Regular) : root.readBack.Regular where
  distinct := by
    rw [children_readBack, names_readBack]
    exact regular.distinct
  groups := by
    rw [children_readBack, List.forall_mem_map]
    exact fun group member => (regular.groups group member).readBack

theorem Shaped.readBack (shaped : root.Shaped) : root.readBack.Shaped where
  distinct := by
    rw [children_readBack, names_readBack]
    exact shaped.distinct
  attributes := by
    rw [children_readBack, List.forall_mem_map]
    intro attr member
    have isAttribute := shaped.attributes attr member
    exact
      { toIsGroup := isAttribute.toIsGroup.readBack
        named := by rw [name_readBack]; exact isAttribute.named }

theorem Kept.readBack {configuration : Configuration} (kept : root.Kept configuration) :
    root.readBack.Kept configuration where
  shaped := kept.shaped.readBack
  listed attr name present :=
    kept.listed attr name (by simpa [leafAt?_readBack] using present)
  defaults path value member := by
    obtain ⟨stored, listed, same⟩ := mem_values_readBack member
    obtain ⟨now, attr, name, named, path, rfl⟩ := kept.defaults _ _ listed
    exact ⟨now.readBack, attr, name, named, path, same.trans (readBack_defaultValue now name)⟩

theorem Unset.readBack (unset : root.Unset) : root.readBack.Unset where
  regular := unset.regular.readBack
  unset entry member := by
    obtain ⟨stored, listed, same⟩ := mem_values_readBack member
    rw [same, ne_eq, PropertyValue.readBack_eq_boolean]
    exact unset.unset _ listed

end Property

theorem Schema.Settled.readBack {flags : List Flag} {schema : Property}
    (settled : Settled flags schema) : Settled flags schema.readBack := by
  intro flag member
  have here := settled flag member
  split at here
  · next enabled =>
      rw [if_pos enabled]
      obtain ⟨parent, found, leaves⟩ := here
      refine ⟨parent.readBack, by rw [child?_readBack, found, Option.map_some], ?_⟩
      intro now leaf listed
      rw [hasChild_readBack]
      exact leaves now leaf listed
  · next disabled => rw [if_neg disabled, child?_readBack, here, Option.map_none]

namespace Instance

variable {model : Instance}

private theorem lookup_readBack (entries : List (String × PropertyValue)) (path : String) :
    (entries.map fun entry => (entry.1, entry.2.readBack)).lookup path =
      (entries.lookup path).map PropertyValue.readBack := by
  induction entries with
  | nil => rfl
  | cons entry rest ih =>
      rw [List.map_cons, List.lookup_cons, List.lookup_cons, ih]
      split <;> rfl

theorem live?_readBack (model : Instance) (path : String) :
    model.readBack.live? path = (model.live? path).map PropertyValue.readBack := by
  obtain ⟨⟨name, type, value, children⟩, retained⟩ := model
  rw [live?, live?, ← lookup_readBack, ← valuesList_readBackList]
  rfl

private theorem logical?_readBack (model : Instance) (path : String) :
    model.readBack.logical? path = (model.logical? path).map PropertyValue.readBack := by
  rw [logical?, logical?, live?_readBack, readBack, Table.get?_map, Option.map_or]

theorem Sound.readBack (sound : model.Sound) : model.readBack.Sound where
  shaped := sound.shaped.readBack
  apart path live := by
    rw [live?_readBack, ne_eq, Option.map_eq_none_iff] at live
    rw [Instance.readBack, Table.get?_map, sound.apart path live, Option.map_none]
  retained path value stored := by
    rw [Instance.readBack, Table.get?_map] at stored
    obtain ⟨kept, found, rfl⟩ := Option.map_eq_some_iff.mp stored
    rw [PropertyValue.type_readBack]
    exact sound.retained path kept found

theorem Kept.readBack (kept : model.Kept) : model.readBack.Kept where
  sound := kept.sound.readBack
  hidden name value free other stored := by
    rw [logical?_readBack] at stored
    obtain ⟨before, found, rfl⟩ := Option.map_eq_some_iff.mp stored
    rw [kept.hidden name before free other found]
    rfl

theorem Traced.readBack {allowed : Attribute → String → Prop} (traced : model.Traced allowed) :
    model.readBack.Traced allowed where
  unique := (unique_congr (skeleton_readBack model.root)).mpr traced.unique
  checks := by
    have same {path : String} {value : PropertyValue} (checks : Checks allowed (path, value)) :
        Checks allowed (path, value.readBack) := by
      intro attr name entry
      obtain ⟨rfl, checked⟩ := Prod.mk.inj entry
      rw [PropertyValue.readBack_eq_boolean.mp checked] at checks
      exact checks attr name rfl
    constructor
    · rintro ⟨path, value⟩ member
      obtain ⟨stored, listed, rfl⟩ := mem_values_readBack member
      exact same (traced.checks.stored _ listed)
    · rw [Instance.readBack, Table.map, List.forall_mem_map]
      exact fun entry member => same (traced.checks.retained entry member)

end Instance

namespace Store

variable {configuration : Configuration} {names : EditModelNames} {store : Store}

theorem Each.readBack {ofSchema : Property → Prop} {ofModel : Instance → Prop}
    (each : store.Each ofSchema ofModel)
    (schema : ∀ {schema}, ofSchema schema → ofSchema schema.readBack)
    (model : ∀ {model}, ofModel model → ofModel model.readBack) :
    store.readBack.Each ofSchema ofModel where
  schemas key found stored := by
    rw [Store.readBack, Table.get?_map] at stored
    obtain ⟨before, known, rfl⟩ := Option.map_eq_some_iff.mp stored
    exact schema (each.schemas key before known)
  models key found stored := by
    rw [Store.readBack, Table.get?_map] at stored
    obtain ⟨before, known, rfl⟩ := Option.map_eq_some_iff.mp stored
    exact model (each.models key before known)

theorem Kept.readBack (kept : store.Kept configuration) : store.readBack.Kept configuration := by
  have each : store.Each (·.Kept configuration) Instance.Kept := ⟨kept.schemas, kept.models⟩
  have eachRead := each.readBack Property.Kept.readBack Instance.Kept.readBack
  exact ⟨eachRead.schemas, eachRead.models⟩

theorem Traced.readBack {allowed : Attribute → String → Prop} (traced : store.Traced allowed) :
    store.readBack.Traced allowed :=
  Each.readBack traced Property.Unset.readBack Instance.Traced.readBack

end Store

theorem Configuration.Matches.readBack {configuration : Configuration} {schema : Property}
    {model : Instance} (inLine : configuration.Matches schema model) :
    configuration.Matches schema.readBack model.readBack where
  schemaKept := inLine.schemaKept.readBack
  settled := inLine.settled.readBack
  offers attr name := by
    rw [leafAt?_readBack, ne_eq, Option.map_eq_none_iff]
    exact inLine.offers attr name
  modelKept := inLine.modelKept.readBack
  nodes := by
    have same (property : Property) : nodesList "" property.readBack.children =
        nodesList "" property.children := by
      cases property
      exact nodesList_readBackList _ _
    rw [same schema, Instance.readBack, same model.root]
    exact inLine.nodes

theorem Store.InLine.readBack {configuration : Configuration} {names : EditModelNames}
    {store : Store} (inLine : store.InLine configuration names) :
    store.readBack.InLine configuration names where
  kept := inLine.kept.readBack
  matched := by
    obtain ⟨schema, model, schemaFound, modelFound, matched⟩ := inLine.matched
    refine ⟨schema.readBack, model.readBack, ?_, ?_, matched.readBack⟩
    · rw [Store.readBack, Table.get?_map, schemaFound, Option.map_some]
    · rw [Store.readBack, Table.get?_map, modelFound, Option.map_some]

end AlarmView
