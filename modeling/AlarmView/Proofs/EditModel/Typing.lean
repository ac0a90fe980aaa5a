import AlarmView.Proofs.EditModel.Mirroring
import AlarmView.Proofs.EditModel.Upkeep

/-!
# Typed trees

Every property but the objects holds a value of its declared type.  Schemas are made so, retained
values of other types do not come back, and only values of the declared type are stored, so this
holds through any history, whatever the paths of retained values are.
-/

namespace AlarmView

open BrowseName Property

namespace Property

mutual

/-- Whether a property and all below it hold values of their types, where they are no objects. -/
def Typed : Property → Prop
  | ⟨_, type, value, children⟩ =>
      (type ≠ .object → value.map PropertyValue.type = some type) ∧ TypedList children

/-- List counterpart of `Typed`. -/
def TypedList : List Property → Prop
  | [] => True
  | property :: rest => property.Typed ∧ TypedList rest

end

theorem typedList_iff {properties : List Property} :
    TypedList properties ↔ ∀ property ∈ properties, property.Typed := by
  induction properties with
  | nil => simp [TypedList]
  | cons head rest ih => simp [TypedList, ih]

theorem typed_iff {property : Property} :
    property.Typed ↔
      (property.type ≠ .object → property.value.map PropertyValue.type = some property.type) ∧
        TypedList property.children := by
  obtain ⟨name, type, value, children⟩ := property
  rfl

private theorem typedList_append {first second : List Property} :
    TypedList (first ++ second) ↔ TypedList first ∧ TypedList second := by
  simp [typedList_iff, or_imp, forall_and]

theorem typedList_updateNamed {name : String} {change : Property → Property}
    {properties : List Property} (typed : TypedList properties)
    (changed : ∀ found, findNamed name properties = some found → found.Typed →
      (change found).Typed) : TypedList (updateNamed name change properties) := by
  refine typedList_iff.mpr fun property member => ?_
  rcases mem_updateNamed member with old | ⟨found, lookup, rfl⟩
  · exact typedList_iff.mp typed property old
  · exact changed found lookup (typedList_iff.mp typed found (findNamed_mem lookup))

theorem IsLeaf.typed {leaf : Property} (shaped : leaf.IsLeaf) : leaf.Typed := by
  obtain ⟨value, same, _⟩ := shaped
  rw [same]
  exact ⟨fun _ => rfl, trivial⟩

theorem IsGroup.typed {group : Property} (shaped : group.IsGroup) : group.Typed := by
  refine typed_iff.mpr ⟨fun other => absurd shaped.type other, ?_⟩
  exact typedList_iff.mpr fun leaf member => (shaped.leaves leaf member).typed

theorem Regular.typed {root : Property} (regular : root.Regular) : TypedList root.children :=
  typedList_iff.mpr fun group member => (regular.groups group member).typed

end Property

namespace Instance

/-- Whether an instance holds values of the declared types. -/
def Typed (model : Instance) : Prop :=
  TypedList model.root.children

private theorem initialValue_typed (retained : Table PropertyValue) (path : String)
    {type : PropertyType}
    {default : Option PropertyValue} (typed : default.map PropertyValue.type = some type) :
    (initialValue retained path type default).1.map PropertyValue.type = some type := by
  unfold initialValue
  split
  · next value found =>
      have same : value.type = type := by
        simpa using (Option.filter_eq_some_iff.mp found).2
      rw [Option.map_some, same]
  · exact typed

mutual

theorem adopt_typed (path : String) :
    ∀ (property : Property) (retained : Table PropertyValue), property.Typed →
      (adopt path property retained).copy.Typed
  | ⟨_, _, _, children⟩, retained, ⟨typed, below⟩ =>
      ⟨fun other => initialValue_typed retained path (typed other),
        adoptList_typed path children _ below⟩

theorem adoptList_typed (path : String) :
    ∀ (properties : List Property) (retained : Table PropertyValue), TypedList properties →
      TypedList (adoptList path properties retained).copy
  | [], _, _ => trivial
  | property :: rest, _, ⟨first, others⟩ =>
      ⟨adopt_typed _ property _ first, adoptList_typed path rest _ others⟩

end

mutual

theorem complete_typed (path : String) :
    ∀ (schema property : Property) (retained : Table PropertyValue), schema.Typed →
      property.Typed → (complete path schema property retained).whole.Typed
  | ⟨_, _, _, wanted⟩, ⟨_, _, _, children⟩, retained, ⟨_, wantedTyped⟩, ⟨typed, below⟩ =>
      ⟨typed, completeList_typed path wanted children retained wantedTyped below⟩

theorem completeList_typed (path : String) :
    ∀ (wanted children : List Property) (retained : Table PropertyValue), TypedList wanted →
      TypedList children → TypedList (completeList path wanted children retained).whole
  | [], _, _, _, typed => typed
  | property :: rest, children, retained, ⟨first, others⟩, typed => by
      let here := join path property.name
      rw [completeList]
      cases found : findNamed property.name children with
      | none =>
          apply completeList_typed path rest _ _ others
          exact typedList_append.mpr ⟨typed, adopt_typed here property retained first, trivial⟩
      | some child =>
          have childTyped := typedList_iff.mp typed child (findNamed_mem found)
          apply completeList_typed path rest _ _ others
          exact typedList_updateNamed typed fun _ _ _ =>
            complete_typed here property child retained first childTyped

end

mutual

theorem prune_typed (schema : Property) (path : String) :
    ∀ property : Property, property.Typed → (prune schema path property).1.Typed
  | ⟨_, _, _, children⟩, ⟨typed, below⟩ => ⟨typed, pruneList_typed schema path children below⟩

theorem pruneList_typed (schema : Property) (path : String) :
    ∀ children : List Property, TypedList children → TypedList (pruneList schema path children).1
  | [], _ => trivial
  | child :: rest, ⟨first, others⟩ => by
      have restTyped := pruneList_typed schema path rest others
      rw [pruneList]
      cases counterpart? schema child with
      | none => exact restTyped
      | some counterpart => exact ⟨prune_typed counterpart _ child first, restTyped⟩

end

theorem update_typed {schema : Property} {model : Instance}
    (schemaTyped : TypedList schema.children) (typed : model.Typed) :
    (model.update schema).1.Typed := by
  obtain ⟨⟨name, type, value, children⟩, retained⟩ := model
  obtain ⟨schemaName, schemaType, schemaValue, wanted⟩ := schema
  exact completeList_typed "" wanted _ _ schemaTyped (pruneList_typed _ "" children typed)

variable {model changed : Instance} {attr name : String} {value : PropertyValue}

theorem setValue_typed (typed : model.Typed)
    (stored : model.setValue attr name value = .ok changed) : changed.Typed := by
  obtain ⟨parent, leaf, parentFound, leafFound, type, rfl⟩ := setValue_eq_ok.mp stored
  refine typedList_updateNamed typed fun found lookup foundTyped => ?_
  obtain rfl : found = parent := Option.some.inj (lookup.symm.trans parentFound)
  obtain ⟨own, below⟩ := typed_iff.mp foundTyped
  refine typed_iff.mpr ⟨own, typedList_updateNamed below fun child childLookup childTyped => ?_⟩
  obtain rfl : child = leaf := Option.some.inj (childLookup.symm.trans leafFound)
  exact typed_iff.mpr ⟨fun _ => congrArg some type.symm, (typed_iff.mp childTyped).2⟩

theorem skeleton_setValue (stored : model.setValue attr name value = .ok changed) :
    changed.root.skeleton = model.root.skeleton := by
  obtain ⟨parent, leaf, _, _, _, rfl⟩ := setValue_eq_ok.mp stored
  refine skeleton_inj.mpr ⟨rfl, rfl, skeletonList_updateNamed_of_same fun found _ => ?_⟩
  refine skeleton_inj.mpr ⟨rfl, rfl, skeletonList_updateNamed_of_same fun child _ => ?_⟩
  exact skeleton_inj.mpr ⟨rfl, rfl, rfl⟩

end Instance

end AlarmView
