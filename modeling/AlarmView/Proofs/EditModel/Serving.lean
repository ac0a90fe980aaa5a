import AlarmView.Proofs.EditModel.Creation
import AlarmView.Proofs.EditModel.Settling
import AlarmView.Proofs.EditModel.Typing

/-!
# Edit models that serve a configuration

After an edit model was created, every leaf that the configuration offers holds a value of the type
that its name calls for.  This needs no more of the history than that siblings of the configurations
had different names, and it stays so whatever is stored.
-/

namespace AlarmView

open BrowseName Property

namespace Property

variable {schema root leaf : Property} {attr name : String}

theorem Mirrors.leafAt? (mirrors : schema.Mirrors root) (unique : schema.Unique)
    {wanted : Property} (found : schema.leafAt? attr name = some wanted) :
    ∃ leaf, root.leafAt? attr name = some leaf ∧ leaf.type = wanted.type := by
  obtain ⟨distinct, below⟩ := unique_iff.mp unique
  obtain ⟨group, groupFound, wantedFound⟩ := Option.bind_eq_some_iff.mp found
  obtain rfl : group.name = attr := findNamed_name groupFound
  obtain rfl : wanted.name = name := findNamed_name wantedFound
  have inSchema : group ∈ schema.children := findNamed_mem groupFound
  obtain ⟨parent, parentFound, _, inner⟩ := mirrors.child distinct inSchema
  obtain ⟨leaf, leafFound, type, _⟩ :=
    inner.child (unique_iff.mp (below group inSchema)).1 (findNamed_mem wantedFound)
  exact ⟨leaf, Option.bind_eq_some_iff.mpr ⟨parent, parentFound, leafFound⟩, type⟩

theorem Mirrors.leafAt?_schema (mirrors : schema.Mirrors root) (unique : schema.Unique)
    (found : root.leafAt? attr name = some leaf) :
    ∃ wanted, schema.leafAt? attr name = some wanted := by
  obtain ⟨parent, parentFound, leafFound⟩ := Option.bind_eq_some_iff.mp found
  obtain rfl : parent.name = attr := findNamed_name parentFound
  obtain rfl : leaf.name = name := findNamed_name leafFound
  obtain ⟨group, groupListed, groupName, _, below⟩ :=
    mirrors.within.of_mem (findNamed_mem parentFound)
  obtain ⟨wanted, listed, wantedName, _, _⟩ := below.of_mem (findNamed_mem leafFound)
  obtain ⟨distinct, inner⟩ := unique_iff.mp unique
  have groupFound := findNamed_of_mem distinct groupListed
  have wantedFound := findNamed_of_mem (unique_iff.mp (inner group groupListed)).1 listed
  rw [groupName] at groupFound
  rw [wantedName] at wantedFound
  exact ⟨wanted, Option.bind_eq_some_iff.mpr ⟨group, groupFound, wantedFound⟩⟩

private theorem Regular.type_leafAt? (regular : root.Regular)
    (found : root.leafAt? attr name = some leaf) : leaf.type = leafType name := by
  obtain ⟨group, groupFound, leafFound⟩ := Option.bind_eq_some_iff.mp found
  obtain rfl : leaf.name = name := findNamed_name leafFound
  exact ((regular.child_isGroup groupFound).leaves leaf (findNamed_mem leafFound)).type_eq

private theorem typed_leafAt? (typed : TypedList root.children)
    (found : root.leafAt? attr name = some leaf) : leaf.Typed := by
  obtain ⟨group, groupFound, leafFound⟩ := Option.bind_eq_some_iff.mp found
  have groupTyped := typedList_iff.mp typed group (findNamed_mem groupFound)
  exact typedList_iff.mp (typed_iff.mp groupTyped).2 leaf (findNamed_mem leafFound)

end Property

private theorem BrowseName.leafType_ne_object (name : String) : leafType name ≠ .object := by
  unfold leafType
  split_ifs <;> decide

theorem Schema.leafAt?_of_offers {configuration : Configuration} {schema : Property}
    (settled : Settled configuration.attributes schema) {attr name : String}
    (offered : configuration.Offers attr name) : ∃ leaf, schema.leafAt? attr name = some leaf := by
  obtain ⟨flag, member, rfl, enabled, criterion, listed, shown, called⟩ := offered
  have state := settled flag member
  rw [if_pos enabled] at state
  obtain ⟨parent, found, leaves⟩ := state
  obtain ⟨leaf, leafMember, rfl, visible⟩ :=
    (Flag.mem_ofAttribute .unixEpoch).mpr ⟨criterion, listed, shown, called⟩
  have present := leaves .unixEpoch leaf leafMember
  rw [visible, hasChild, Option.isSome_iff_exists] at present
  obtain ⟨child, childFound⟩ := present
  exact ⟨child, Option.bind_eq_some_iff.mpr ⟨parent, found, childFound⟩⟩

theorem Schema.offers_of_leafAt? {configuration : Configuration} {schema leaf : Property}
    (settled : Settled configuration.attributes schema) {attr name : String}
    (found : schema.leafAt? attr name = some leaf) (listed : configuration.Lists attr name) :
    configuration.Offers attr name := by
  obtain ⟨flag, member, rfl, criterion, criterionListed, called⟩ := listed
  obtain ⟨group, groupFound, leafFound⟩ := Option.bind_eq_some_iff.mp found
  have state := settled flag member
  split at state
  · next enabled =>
      obtain ⟨parent, parentFound, leaves⟩ := state
      obtain rfl : group = parent := Option.some.inj (groupFound.symm.trans parentFound)
      obtain ⟨wanted, wantedMember, rfl, visible⟩ :=
        (Flag.mem_ofAttribute .unixEpoch).mpr ⟨criterion, criterionListed, rfl, called⟩
      have shown := leaves .unixEpoch wanted wantedMember
      rw [visible, hasChild, leafFound] at shown
      exact ⟨flag, member, rfl, enabled, criterion, criterionListed, shown.symm, called⟩
  · exact absurd (state.symm.trans groupFound) (by simp)

namespace Instance

variable {model changed : Instance} {attr name : String} {value : PropertyValue}

/-- The value that an instance holds below an attribute. -/
def stored? (model : Instance) (attr name : String) : Option PropertyValue :=
  (model.root.leafAt? attr name).bind (·.value)

private theorem requireVariable_eq_ok {property : Property} :
    model.requireVariable attr name = .ok property ↔
      model.root.leafAt? attr name = some property := by
  unfold requireVariable requireAttribute leafAt?
  cases model.root.child? attr with
  | none => simp [bind, Except.bind]
  | some parent => cases found : parent.child? name <;> simp [bind, Except.bind, found]

theorem read_eq_ok {α : Type} {reader : PropertyValue → Option α} {expected : PropertyType}
    {result : α} :
    read reader expected model attr name = .ok result ↔
      (model.stored? attr name).bind reader = some result := by
  unfold read stored?
  cases required : model.requireVariable attr name with
  | error error =>
      have absent : model.root.leafAt? attr name = none := by
        by_contra present
        obtain ⟨leaf, found⟩ := Option.ne_none_iff_exists'.mp present
        rw [requireVariable_eq_ok.mpr found] at required
        exact absurd required (by simp)
      simp [absent, bind, Except.bind]
  | ok property =>
      rw [requireVariable_eq_ok.mp required]
      cases found : property.value.bind reader <;> simp [found, bind, Except.bind]

theorem checkedState_eq_ok {checked : Bool} :
    model.checkedState attr name = .ok checked ↔
      model.stored? attr name = some (.boolean checked) := by
  rw [checkedState, read_eq_ok, Option.bind_eq_some_iff]
  constructor
  · rintro ⟨value, stored, same⟩
    cases value <;> simp_all
  · exact fun stored => ⟨_, stored, rfl⟩

theorem instant_eq_ok {instant : AlarmView.Instant} :
    model.instant attr name = .ok instant ↔
      model.stored? attr name = some (.dateTime instant) := by
  rw [Instance.instant, read_eq_ok, Option.bind_eq_some_iff]
  constructor
  · rintro ⟨value, stored, same⟩
    cases value <;> simp_all
  · exact fun stored => ⟨_, stored, rfl⟩

theorem number_eq_ok {number : UInt16} :
    model.number attr name = .ok number ↔
      model.stored? attr name = some (.uint16 number) := by
  rw [Instance.number, read_eq_ok, Option.bind_eq_some_iff]
  constructor
  · rintro ⟨value, stored, same⟩
    cases value <;> simp_all
  · exact fun stored => ⟨_, stored, rfl⟩

theorem stored?_setValue (stored : model.setValue attr name value = .ok changed)
    (otherAttr otherName : String) :
    changed.stored? otherAttr otherName =
      if otherAttr = attr ∧ otherName = name then some value
      else model.stored? otherAttr otherName := by
  obtain ⟨parent, leaf, parentFound, leafFound, _, _⟩ := setValue_eq_ok.mp stored
  have found : model.root.leafAt? attr name = some leaf :=
    Option.bind_eq_some_iff.mpr ⟨parent, parentFound, leafFound⟩
  rw [stored?, leafAt?_setValue stored]
  split
  · rw [found]
    rfl
  · rfl

end Instance

/-- Whether an edit model is in line with a configuration, whatever its paths are like. -/
structure Configuration.ServedBy (configuration : Configuration) (schema : Property)
    (model : Instance) : Prop where
  regular : schema.Regular
  settled : Schema.Settled configuration.attributes schema
  mirrors : schema.Mirrors model.root
  typed : model.Typed

namespace Configuration.ServedBy

variable {configuration : Configuration} {schema : Property} {model changed : Instance}
  {attr name : String}

theorem sync (regular : schema.Regular) (siblings : configuration.Distinct)
    (typed : model.Typed) (now : Instant) :
    let synced := (Schema.syncAttributes now schema configuration.attributes).1
    configuration.ServedBy synced (model.update synced).1 := by
  intro synced
  have syncedRegular : synced.Regular := Schema.regular_syncAttributes regular now siblings
  exact {
    regular := syncedRegular
    settled := Schema.settled_syncAttributes regular.unique siblings now
    mirrors := Instance.update_mirrors syncedRegular.unique model
    typed := Instance.update_typed syncedRegular.typed typed }

/-- Every leaf that the configuration offers is there and holds a value of its type. -/
theorem leaf (served : configuration.ServedBy schema model)
    (offered : configuration.Offers attr name) :
    ∃ leaf, model.root.leafAt? attr name = some leaf ∧ leaf.type = leafType name ∧
      ∃ value, model.stored? attr name = some value ∧ value.type = leafType name := by
  obtain ⟨wanted, wantedFound⟩ := Schema.leafAt?_of_offers served.settled offered
  obtain ⟨leaf, found, sameType⟩ := served.mirrors.leafAt? served.regular.unique wantedFound
  have type : leaf.type = leafType name :=
    sameType.trans (served.regular.type_leafAt? wantedFound)
  have notObject : leaf.type ≠ .object := type ▸ leafType_ne_object name
  obtain ⟨value, stored, valueType⟩ := Option.map_eq_some_iff.mp
    ((typed_iff.mp (typed_leafAt? served.typed found)).1 notObject)
  refine ⟨leaf, found, type, value, ?_, valueType.trans type⟩
  rw [Instance.stored?, found]
  exact stored

theorem setValue (served : configuration.ServedBy schema model) {value : PropertyValue}
    (stored : model.setValue attr name value = .ok changed) :
    configuration.ServedBy schema changed where
  regular := served.regular
  settled := served.settled
  mirrors := served.mirrors.congr (Instance.skeleton_setValue stored).symm
  typed := Instance.setValue_typed served.typed stored

end Configuration.ServedBy

/-- What holds of a store whose configurations had different names among siblings. -/
structure Store.Typed (store : Store) : Prop where
  schemas : ∀ key schema, store.types.get? key = some schema → schema.Regular
  models : ∀ key model, store.instances.get? key = some model → model.Typed

namespace Store.Typed

variable {store : Store} {configuration : Configuration}

theorem iff_each : store.Typed ↔ store.Each Regular Instance.Typed :=
  ⟨fun typed => ⟨typed.schemas, typed.models⟩, fun each => ⟨each.schemas, each.models⟩⟩

theorem empty : Store.empty.Typed :=
  iff_each.mpr .empty

theorem schemaOf (typed : store.Typed) (names : EditModelNames) :
    (store.schemaOf names).Regular :=
  (iff_each.mp typed).schemaOf names (.object names.typeName)

theorem modelOf (typed : store.Typed) (names : EditModelNames) :
    (store.modelOf names).Typed :=
  (iff_each.mp typed).modelOf names trivial

theorem put (typed : store.Typed) (names : EditModelNames) {schema : Property} {model : Instance}
    (regular : schema.Regular) (modelTyped : model.Typed) :
    (store.put names schema model).Typed :=
  iff_each.mpr ((iff_each.mp typed).put names regular modelTyped)

theorem putInstance (typed : store.Typed) (editModel : String) {model : Instance}
    (modelTyped : model.Typed) : (store.putInstance editModel model).Typed :=
  iff_each.mpr ((iff_each.mp typed).putInstance editModel modelTyped)

theorem delete (typed : store.Typed) (names : EditModelNames) : (store.delete names).Typed :=
  iff_each.mpr ((iff_each.mp typed).delete names)

theorem create (typed : store.Typed) (siblings : configuration.Distinct) (now : Instant)
    (names : EditModelNames) : (store.create now names configuration).1.Typed := by
  refine iff_each.mpr ((iff_each.mp typed).create (.object names.typeName) trivial ?_)
  intro schema model regular modelTyped
  have served := Configuration.ServedBy.sync regular siblings modelTyped now
  exact ⟨served.regular, served.typed⟩

end Store.Typed

end AlarmView
