import AlarmView.Proofs.EditModel.InstancePass

/-!
# Mirroring the schema

An instance mirrors its schema if each of its nodes has a counterpart in the schema and none is
missing, whatever it stores.  The instance pass makes every instance mirror the schema, even where
siblings of the instance have equal names or where paths of the schema coincide, and it has nothing
to do on an instance that mirrors the schema already.
-/

namespace AlarmView

open Property

/-- Whether a property has the nodes of the schema below it and no others. -/
structure Property.Mirrors (schema root : Property) : Prop where
  within : Within schema.children root.children
  complete : Instance.missing "" schema root = []

/-- Whether a listing of a property has a row with some path and type. -/
def Property.HasNode (property : Property) (path : List String) (type : PropertyType) : Prop :=
  ∃ row ∈ property.rows, row.path = path ∧ row.type = type

namespace Instance

variable {schema : Property}

theorem update_mirrors (unique : schema.Unique) (model : Instance) :
    schema.Mirrors (model.update schema).1.root := by
  let noValue : String → Option PropertyValue := fun _ => none
  let pruned := keptRoot schema model
  have same : (model.update schema).1.root.skeleton = (fill noValue "" schema pruned).skeleton :=
    skeleton_update noValue schema model
  have within : Within schema.children (fill noValue "" schema pruned).children :=
    within_fill noValue "" schema pruned unique (within_pruneList schema "" model.root.children)
  constructor
  · exact within.congr (skeleton_inj.mp same).2.2.symm
  · rw [missing_congr "" schema same]
    exact missing_fill noValue "" "" schema pruned unique

private theorem counterpart?_of_mem {schema child counterpart : Property} (unique : schema.Unique)
    (member : counterpart ∈ schema.children) (name : counterpart.name = child.name)
    (type : counterpart.type = child.type) : counterpart? schema child = some counterpart := by
  have found := findNamed_of_mem (unique_iff.mp unique).1 member
  rw [counterpart?, child?, ← name, found]
  simp [type]

private theorem pruneList_of_within {wanted children : List Property}
    (within : Within wanted children) :
    ∀ (schema : Property) (path : String), schema.children = wanted → schema.Unique →
      pruneList schema path children = (children, .none) := by
  induction within with
  | nil wanted => exact fun _ _ _ _ => rfl
  | @cons _ _ child _ listed name type _ _ below rest =>
      rintro schema path rfl unique
      have found := counterpart?_of_mem unique listed name type
      have counterpartUnique := (unique_iff.mp unique).2 _ listed
      simp only [pruneList_cons, found, below _ _ rfl counterpartUnique,
        rest schema path rfl unique]
      obtain ⟨_, _, _, _⟩ := child
      rfl

mutual

theorem complete_of_missing (path : String) :
    ∀ (schema property : Property) (retained : Table PropertyValue),
      missing path schema property = [] →
      complete path schema property retained = { whole := property, retained, changes := .none }
  | ⟨_, _, _, wanted⟩, property, retained, nothing => by
      have below := completeList_of_missing path wanted property.children retained nothing
      obtain ⟨_, _, _, _⟩ := property
      rw [complete, below]

theorem completeList_of_missing (path : String) :
    ∀ (wanted children : List Property) (retained : Table PropertyValue),
      missingList path wanted children = [] →
      completeList path wanted children retained =
        { whole := children, retained, changes := .none }
  | [], _, _, _ => rfl
  | property :: rest, children, retained, nothing => by
      obtain ⟨here, others⟩ := List.append_eq_nil_iff.mp nothing
      cases found : findNamed property.name children with
      | none => simp [found] at here
      | some child =>
          rw [found] at here
          have inner := complete_of_missing _ property child retained here
          simp only [completeList, found, inner, updateNamed_of_found found,
            completeList_of_missing path rest children retained others]
          rfl

end

theorem update_of_mirrors {model : Instance} (unique : schema.Unique)
    (mirrors : schema.Mirrors model.root) : model.update schema = (model, .none) := by
  have pruned := prune_eq schema "" model.root
  rw [pruneList_of_within mirrors.within schema "" rfl unique] at pruned
  obtain ⟨⟨name, type, value, children⟩, retained⟩ := model
  simp only [update, pruned]
  rw [complete_of_missing "" schema _ _ mirrors.complete]
  rfl

mutual

/-- What is missing does not depend on where the property stands. -/
theorem missing_elsewhere (path other : String) :
    ∀ schema property : Property, missing path schema property = [] →
      missing other schema property = []
  | ⟨_, _, _, wanted⟩, _, nothing => by
      refine missingList_eq_nil.mpr fun listed member => ?_
      obtain ⟨child, found, below⟩ := missingList_eq_nil.mp nothing listed member
      exact ⟨child, found, missing_elsewhere_of_mem wanted listed member _ _ child below⟩

theorem missing_elsewhere_of_mem :
    ∀ wanted : List Property, ∀ listed ∈ wanted, ∀ (path other : String) (child : Property),
      missing path listed child = [] → missing other listed child = []
  | [] => by simp
  | head :: rest =>
      List.forall_mem_cons.mpr
        ⟨fun path other child => missing_elsewhere path other head child,
          missing_elsewhere_of_mem rest⟩

end

end Instance

namespace Property

namespace Mirrors

variable {schema root : Property}

theorem congr {other : Property} (mirrors : schema.Mirrors root)
    (same : root.skeleton = other.skeleton) : schema.Mirrors other where
  within := mirrors.within.congr (skeleton_inj.mp same).2.2
  complete := by
    rw [← Instance.missing_congr "" schema same]
    exact mirrors.complete

/-- Below every child of the schema the instance mirrors it again. -/
theorem child (mirrors : schema.Mirrors root) (distinct : (names schema.children).Nodup)
    {wanted : Property} (listed : wanted ∈ schema.children) :
    ∃ child, root.child? wanted.name = some child ∧ child.type = wanted.type ∧
      wanted.Mirrors child := by
  have complete := mirrors.complete
  rw [Instance.missing_eq] at complete
  obtain ⟨child, found, nothing⟩ := Instance.missingList_eq_nil.mp complete wanted listed
  obtain ⟨counterpart, among, name, type, within⟩ := mirrors.within.of_mem (findNamed_mem found)
  obtain rfl : counterpart = wanted :=
    List.inj_on_of_nodup_map distinct among listed (name.trans (findNamed_name found))
  exact ⟨child, found, type.symm, within, Instance.missing_elsewhere _ "" _ child nothing⟩

end Mirrors

theorem mem_listingList {path : List String} {properties : List Property} {row : Row} :
    row ∈ listingList path properties ↔ ∃ property ∈ properties,
      row = { path := path ++ [property.name], type := property.type, value := property.value } ∨
        row ∈ listingList (path ++ [property.name]) property.children := by
  induction properties with
  | nil => simp [listingList]
  | cons head rest ih =>
      obtain ⟨name, type, value, children⟩ := head
      simp [listingList, listing, ih, or_assoc]

private theorem rows_of_within {wanted properties : List Property}
    (within : Within wanted properties) :
    ∀ (path : List String), ∀ row ∈ listingList path properties, ∃ other ∈ listingList path wanted,
      other.path = row.path ∧ other.type = row.type := by
  induction within with
  | nil wanted => exact fun _ _ member => absurd member List.not_mem_nil
  | @cons wanted counterpart child rest listed name type _ _ below ih =>
      intro path row member
      obtain ⟨property, among, here⟩ := mem_listingList.mp member
      rcases List.mem_cons.mp among with rfl | later
      · rcases here with rfl | inner
        · exact ⟨_, mem_listingList.mpr ⟨counterpart, listed, .inl rfl⟩, by rw [name], type⟩
        · obtain ⟨other, otherMember, same⟩ := below _ row inner
          rw [← name] at otherMember
          exact ⟨other, mem_listingList.mpr ⟨counterpart, listed, .inr otherMember⟩, same⟩
      · exact ih path row (mem_listingList.mpr ⟨property, later, here⟩)

mutual

theorem rows_of_mirrors :
    ∀ schema root : Property, schema.Unique → schema.Mirrors root → ∀ (path : List String),
      ∀ row ∈ listingList path schema.children, ∃ other ∈ listingList path root.children,
        other.path = row.path ∧ other.type = row.type
  | ⟨_, _, _, wanted⟩, root, ⟨distinct, below⟩, mirrors, path, row, member => by
      obtain ⟨listed, among, here⟩ := mem_listingList.mp member
      obtain ⟨child, found, type, inner⟩ := mirrors.child distinct among
      have named : child.name = listed.name := findNamed_name found
      have inRoot : child ∈ root.children := findNamed_mem found
      rcases here with rfl | deeper
      · exact ⟨_, mem_listingList.mpr ⟨child, inRoot, .inl rfl⟩, by rw [named], type⟩
      · obtain ⟨other, otherMember, same⟩ :=
          rows_of_mirrors_of_mem wanted below listed among child inner _ row deeper
        rw [← named] at otherMember
        exact ⟨other, mem_listingList.mpr ⟨child, inRoot, .inr otherMember⟩, same⟩

theorem rows_of_mirrors_of_mem :
    ∀ wanted : List Property, UniqueList wanted → ∀ listed ∈ wanted, ∀ child : Property,
      listed.Mirrors child → ∀ (path : List String), ∀ row ∈ listingList path listed.children,
        ∃ other ∈ listingList path child.children, other.path = row.path ∧ other.type = row.type
  | [], _ => by simp
  | head :: rest, ⟨first, others⟩ =>
      List.forall_mem_cons.mpr
        ⟨fun child => rows_of_mirrors head child first, rows_of_mirrors_of_mem rest others⟩

end

/-- The listings of a schema and of what mirrors it have the same nodes. -/
theorem Mirrors.hasNode_iff {schema root : Property} (mirrors : schema.Mirrors root)
    (unique : schema.Unique) {path : List String} {type : PropertyType} :
    root.HasNode path type ↔ schema.HasNode path type := by
  constructor
  · rintro ⟨row, member, rfl, rfl⟩
    exact rows_of_within mirrors.within [] row member
  · rintro ⟨row, member, rfl, rfl⟩
    exact rows_of_mirrors schema root unique mirrors [] row member

end Property

end AlarmView
