import AlarmView.Proofs.EditModel.Filling

/-!
# Skeletons

The skeleton of a property keeps the names and the types of its tree and forgets the values.  The
instance pass makes the same skeleton whatever was retained, so its structure is that of filling
even where paths of the schema coincide.
-/

namespace AlarmView

namespace Property

mutual

/-- A property and all below it without their values. -/
def skeleton : Property → Property
  | ⟨name, type, _, children⟩ => ⟨name, type, none, skeletonList children⟩

/-- List counterpart of `skeleton`. -/
def skeletonList : List Property → List Property
  | [] => []
  | property :: rest => property.skeleton :: skeletonList rest

end

theorem skeletonList_eq_map (properties : List Property) :
    skeletonList properties = properties.map skeleton := by
  induction properties with
  | nil => rfl
  | cons head rest ih => rw [skeletonList, ih, List.map_cons]

theorem skeleton_eq (property : Property) :
    property.skeleton = ⟨property.name, property.type, none, skeletonList property.children⟩ := by
  obtain ⟨name, type, value, children⟩ := property
  rfl

theorem skeleton_name (property : Property) : property.skeleton.name = property.name := by
  rw [skeleton_eq]

theorem skeleton_inj {first second : Property} :
    first.skeleton = second.skeleton ↔
      first.name = second.name ∧ first.type = second.type ∧
        skeletonList first.children = skeletonList second.children := by
  simp [skeleton_eq]

private theorem names_skeletonList (properties : List Property) :
    names (skeletonList properties) = names properties := by
  simp [skeletonList_eq_map, names, skeleton_name]

theorem findNamed_skeletonList (name : String) (properties : List Property) :
    findNamed name (skeletonList properties) = (findNamed name properties).map skeleton := by
  rw [skeletonList_eq_map, findNamed, findNamed, List.find?_map]
  simp only [Function.comp_def, skeleton_name]

theorem skeletonList_append (first second : List Property) :
    skeletonList (first ++ second) = skeletonList first ++ skeletonList second := by
  simp [skeletonList_eq_map]

private theorem skeletonList_updateNamed (name : String) (changed : Property)
    (properties : List Property) : skeletonList (updateNamed name (fun _ => changed) properties) =
      updateNamed name (fun _ => changed.skeleton) (skeletonList properties) := by
  induction properties with
  | nil => rfl
  | cons head rest ih =>
      rw [skeletonList, updateNamed, updateNamed, skeleton_name]
      split
      · rfl
      · rw [skeletonList, ih]

/-- A change that keeps the skeleton of the child of a name keeps that of the whole. -/
theorem skeletonList_updateNamed_of_same {name : String} {change : Property → Property}
    {properties : List Property}
    (same : ∀ found, findNamed name properties = some found →
      (change found).skeleton = found.skeleton) :
    skeletonList (updateNamed name change properties) = skeletonList properties := by
  cases lookup : findNamed name properties with
  | none => rw [updateNamed_of_absent change (findNamed_eq_none.mp lookup)]
  | some found =>
      have unchanged := same found lookup
      have named := findNamed_name lookup
      obtain ⟨before, behind, rfl, absent⟩ := findNamed_split lookup
      rw [updateNamed_split change absent named, skeletonList_append, skeletonList_append,
        skeletonList, skeletonList, unchanged]

mutual

theorem unique_skeleton : ∀ property : Property, property.skeleton.Unique ↔ property.Unique
  | ⟨_, _, _, children⟩ => by
      rw [skeleton, Unique, Unique, names_skeletonList, uniqueList_skeletonList children]

theorem uniqueList_skeletonList :
    ∀ properties : List Property, UniqueList (skeletonList properties) ↔ UniqueList properties
  | [] => .rfl
  | property :: rest => by
      rw [skeletonList, UniqueList, UniqueList, unique_skeleton property,
        uniqueList_skeletonList rest]

end

theorem unique_congr {first second : Property} (same : first.skeleton = second.skeleton) :
    first.Unique ↔ second.Unique := by
  rw [← unique_skeleton first, same, unique_skeleton second]

namespace Within

private theorem skeletonList {wanted properties : List Property}
    (within : Within wanted properties) : Within wanted (Property.skeletonList properties) := by
  induction within with
  | nil wanted => exact .nil wanted
  | @cons _ counterpart child _ listed name type _ _ below rest =>
      rw [Property.skeletonList, skeleton_eq]
      exact .cons listed name type below rest

private theorem of_skeletonList {wanted skeletons : List Property}
    (within : Within wanted skeletons) :
    ∀ properties : List Property, skeletons = Property.skeletonList properties →
      Within wanted properties := by
  induction within with
  | nil wanted =>
      intro properties same
      cases properties with
      | nil => exact .nil wanted
      | cons head rest => exact absurd same.symm (List.cons_ne_nil _ _)
  | cons listed name type _ _ below rest =>
      intro properties same
      cases properties with
      | nil => exact absurd same (List.cons_ne_nil _ _)
      | cons head others =>
          rw [Property.skeletonList, skeleton_eq] at same
          obtain ⟨rfl, sameRest⟩ := List.cons.inj same
          exact .cons listed name type (below head.children rfl) (rest others sameRest)

theorem congr {wanted first second : List Property}
    (same : Property.skeletonList first = Property.skeletonList second)
    (within : Within wanted first) : Within wanted second :=
  within.skeletonList.of_skeletonList second same

mutual

/-- Every property is within itself. -/
theorem refl : ∀ property : Property, Within property.children property.children
  | ⟨_, _, _, children⟩ => reflList children children fun _ member => member

theorem reflList (wanted : List Property) :
    ∀ properties : List Property, (∀ property ∈ properties, property ∈ wanted) →
      Within wanted properties
  | [], _ => .nil wanted
  | property :: rest, listed =>
      .cons (listed property List.mem_cons_self) rfl rfl (refl property)
        (reflList wanted rest fun other member => listed other (List.mem_cons_of_mem _ member))

end

end Within

end Property

namespace Instance

open Property

variable {look : String → Option PropertyValue}

theorem missingList_eq_nil {path : String} {wanted children : List Property} :
    missingList path wanted children = [] ↔
      ∀ property ∈ wanted, ∃ child, findNamed property.name children = some child ∧
        missing (BrowseName.join path property.name) property child = [] := by
  induction wanted with
  | nil => simp [missingList]
  | cons property rest ih =>
      rw [missingList, List.append_eq_nil_iff, ih, List.forall_mem_cons]
      refine and_congr_left fun _ => ?_
      cases findNamed property.name children <;> simp

mutual

theorem missing_skeleton (path : String) :
    ∀ schema property : Property, missing path schema property.skeleton =
      missing path schema property
  | ⟨_, _, _, wanted⟩, ⟨_, _, _, children⟩ => missingList_skeletonList path wanted children

theorem missingList_skeletonList (path : String) :
    ∀ wanted children : List Property, missingList path wanted (skeletonList children) =
      missingList path wanted children
  | [], _ => rfl
  | property :: rest, children => by
      rw [missingList, missingList, missingList_skeletonList path rest children,
        findNamed_skeletonList]
      cases findNamed property.name children with
      | none => rfl
      | some child =>
          rw [Option.map_some]
          dsimp only
          rw [missing_skeleton _ property child]

end

theorem missing_congr (path : String) (schema : Property) {first second : Property}
    (same : first.skeleton = second.skeleton) :
    missing path schema first = missing path schema second := by
  rw [← missing_skeleton path schema first, same, missing_skeleton]

mutual

theorem missing_self (path : String) :
    ∀ property : Property, property.Unique → missing path property property = []
  | ⟨_, _, _, children⟩, ⟨distinct, below⟩ =>
      missingList_eq_nil.mpr fun child member =>
        ⟨child, findNamed_of_mem distinct member, missing_self_of_mem children below child member _⟩

theorem missing_self_of_mem :
    ∀ properties : List Property, UniqueList properties → ∀ property ∈ properties, ∀ path,
      missing path property property = []
  | [], _ => by simp
  | head :: rest, ⟨first, others⟩ =>
      List.forall_mem_cons.mpr
        ⟨fun path => missing_self path head first, missing_self_of_mem rest others⟩

end

mutual

theorem skeleton_seed (path : String) :
    ∀ property : Property, (seed look path property).skeleton = property.skeleton
  | ⟨_, _, _, children⟩ => by
      rw [seed, skeleton, skeleton, skeletonList_seedList path children]

theorem skeletonList_seedList (path : String) :
    ∀ properties : List Property,
      skeletonList (seedList look path properties) = skeletonList properties
  | [] => rfl
  | property :: rest => by
      rw [seedList, skeletonList, skeletonList, skeleton_seed _ property,
        skeletonList_seedList path rest]

end

mutual

theorem skeleton_adopt (path : String) :
    ∀ (property : Property) (retained : Table PropertyValue),
      (adopt path property retained).copy.skeleton = property.skeleton
  | ⟨name, type, _, children⟩, _ =>
      congrArg (Property.mk name type none) (skeletonList_adoptList path children _)

theorem skeletonList_adoptList (path : String) :
    ∀ (properties : List Property) (retained : Table PropertyValue),
      skeletonList (adoptList path properties retained).copy = skeletonList properties
  | [], _ => rfl
  | property :: rest, retained => by
      rw [adoptList, skeletonList, skeletonList, skeleton_adopt _ property,
        skeletonList_adoptList path rest]

end

mutual

/-- Completing makes the skeleton that filling makes, whatever is retained. -/
theorem skeleton_complete (look : String → Option PropertyValue) (path : String) :
    ∀ (schema property other : Property) (retained : Table PropertyValue),
      property.skeleton = other.skeleton →
      (complete path schema property retained).whole.skeleton =
        (fill look path schema other).skeleton
  | ⟨_, _, _, wanted⟩, property, other, retained, same => by
      obtain ⟨name, type, children⟩ := skeleton_inj.mp same
      exact skeleton_inj.mpr
        ⟨name, type, skeleton_completeList look path wanted _ _ retained children⟩

theorem skeleton_completeList (look : String → Option PropertyValue) (path : String) :
    ∀ (wanted children others : List Property) (retained : Table PropertyValue),
      skeletonList children = skeletonList others →
      skeletonList (completeList path wanted children retained).whole =
        skeletonList (fillList look path wanted others)
  | [], _, _, _, same => same
  | property :: rest, children, others, retained, same => by
      let here := BrowseName.join path property.name
      have found : (findNamed property.name children).map skeleton =
          (findNamed property.name others).map skeleton := by
        rw [← findNamed_skeletonList, same, findNamed_skeletonList]
      rw [completeList, fillList]
      cases lookup : findNamed property.name children with
      | none =>
          rw [lookup, Option.map_none] at found
          rw [Option.map_eq_none_iff.mp found.symm]
          apply skeleton_completeList look path rest
          rw [skeletonList_append, skeletonList_append, same]
          simp only [skeletonList, skeleton_adopt, skeleton_seed]
      | some child =>
          rw [lookup, Option.map_some] at found
          obtain ⟨other, otherLookup, sameChild⟩ := Option.map_eq_some_iff.mp found.symm
          have inner := skeleton_complete look here property child other retained sameChild.symm
          rw [otherLookup]
          apply skeleton_completeList look path rest
          rw [skeletonList_updateNamed, skeletonList_updateNamed, same, inner]

end

mutual

theorem missing_fill (look : String → Option PropertyValue) (here path : String) :
    ∀ schema property : Property, schema.Unique →
      missing here schema (fill look path schema property) = []
  | ⟨_, _, _, wanted⟩, property, ⟨distinct, below⟩ => by
      refine missingList_eq_nil.mpr fun listed member => ?_
      have own : findNamed listed.name wanted = some listed := findNamed_of_mem distinct member
      have found := @findNamed_fillList look path listed.name wanted property.children distinct
      rw [own] at found
      cases stored : findNamed listed.name property.children with
      | none =>
          rw [stored] at found
          have listedUnique := uniqueList_iff.mp below listed member
          have complete := missing_congr (BrowseName.join here listed.name) listed
            (@skeleton_seed look (BrowseName.join path listed.name) listed)
          exact ⟨_, found, complete.trans (missing_self _ listed listedUnique)⟩
      | some child =>
          rw [stored] at found
          exact ⟨_, found, missing_fill_of_mem look wanted below listed member _ _ child⟩

theorem missing_fill_of_mem (look : String → Option PropertyValue) :
    ∀ wanted : List Property, UniqueList wanted → ∀ property ∈ wanted, ∀ (here path : String)
      (child : Property), missing here property (fill look path property child) = []
  | [], _ => by simp
  | head :: rest, ⟨first, others⟩ =>
      List.forall_mem_cons.mpr
        ⟨fun here path child => missing_fill look here path head child first,
          missing_fill_of_mem look rest others⟩

end

private theorem within_updateNamed {wanted children : List Property}
    (within : Within wanted children)
    {property changed : Property} (listed : property ∈ wanted) (name : changed.name = property.name)
    (type : property.type = changed.type) (below : Within property.children changed.children) :
    Within wanted (updateNamed property.name (fun _ => changed) children) := by
  apply Within.iff_forall.mpr
  intro child member
  rcases mem_updateNamed member with old | ⟨_, _, rfl⟩
  · exact within.of_mem old
  · exact ⟨property, listed, name.symm, type, below⟩

mutual

/-- Filling adds only what has counterparts. -/
theorem within_fill (look : String → Option PropertyValue) (path : String) :
    ∀ schema property : Property, schema.Unique → Within schema.children property.children →
      Within schema.children (fill look path schema property).children
  | ⟨_, _, _, wanted⟩, property, ⟨distinct, below⟩, within =>
      within_fillList look path distinct wanted property.children below (fun _ member => member)
        within

theorem within_fillList (look : String → Option PropertyValue) (path : String)
    {all : List Property} (distinct : (names all).Nodup) :
    ∀ wanted children : List Property, UniqueList wanted → (∀ property ∈ wanted, property ∈ all) →
      Within all children → Within all (fillList look path wanted children)
  | [], _, _, _, within => within
  | property :: rest, children, ⟨first, others⟩, listed, within => by
      let here := BrowseName.join path property.name
      have known := listed property List.mem_cons_self
      have restListed : ∀ other ∈ rest, other ∈ all :=
        fun other member => listed other (List.mem_cons_of_mem _ member)
      rw [fillList]
      cases found : findNamed property.name children with
      | none =>
          apply within_fillList look path distinct rest _ others restListed
          apply Within.iff_forall.mpr
          intro child member
          rcases List.mem_append.mp member with old | fresh
          · exact within.of_mem old
          · obtain rfl := List.mem_singleton.mp fresh
            obtain ⟨name, type, children⟩ := skeleton_inj.mp (@skeleton_seed look here property)
            exact ⟨property, known, name.symm, type.symm,
              (Within.refl property).congr children.symm⟩
      | some child =>
          obtain ⟨counterpart, among, name, type, below⟩ := within.of_mem (findNamed_mem found)
          have named := findNamed_name found
          obtain rfl : counterpart = property :=
            List.inj_on_of_nodup_map distinct among known (name.trans named)
          have filled := within_fill look here counterpart child first below
          apply within_fillList look path distinct rest _ others restListed
          refine within_updateNamed within known ?_ ?_ filled
          · rw [fill_name, named]
          · rw [fill_eq]
            exact type

end

end Instance

end AlarmView
