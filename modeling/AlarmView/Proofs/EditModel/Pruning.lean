import AlarmView.EditModel.Reconciliation
import AlarmView.Proofs.Property

/-!
# Pruning an instance

Pruning loses no value: what it does not keep it reports.  What it keeps has a counterpart of the
same name and type in the schema, at every level.
-/

namespace AlarmView

open Property

/-- Properties that have counterparts among some others at every level. -/
inductive Property.Within : List Property → List Property → Prop where
  | nil (wanted : List Property) : Within wanted []
  | cons {wanted : List Property} {counterpart child : Property} {rest : List Property} :
      counterpart ∈ wanted → counterpart.name = child.name → counterpart.type = child.type →
      Within counterpart.children child.children → Within wanted rest →
      Within wanted (child :: rest)

namespace Property.Within

theorem of_mem {wanted properties : List Property} (within : Within wanted properties)
    {child : Property} (member : child ∈ properties) :
    ∃ counterpart ∈ wanted, counterpart.name = child.name ∧ counterpart.type = child.type ∧
      Within counterpart.children child.children := by
  induction within with
  | nil => simp at member
  | cons listed name type below _ _ ih =>
      rcases List.mem_cons.mp member with rfl | later
      · exact ⟨_, listed, name, type, below⟩
      · exact ih later

theorem iff_forall {wanted properties : List Property} :
    Within wanted properties ↔ ∀ child ∈ properties, ∃ counterpart ∈ wanted,
      counterpart.name = child.name ∧ counterpart.type = child.type ∧
        Within counterpart.children child.children := by
  constructor
  · exact fun within _ member => within.of_mem member
  · intro each
    induction properties with
    | nil => exact .nil wanted
    | cons head rest ih =>
        obtain ⟨counterpart, listed, name, type, below⟩ := each head List.mem_cons_self
        exact .cons listed name type below
          (ih fun child member => each child (List.mem_cons_of_mem _ member))

theorem of_otherNames {property : Property} {rest properties some : List Property}
    (within : Within (property :: rest) properties) (listed : ∀ child ∈ some, child ∈ properties)
    (others : ∀ child ∈ some, child.name ≠ property.name) : Within rest some := by
  apply iff_forall.mpr
  intro child member
  obtain ⟨counterpart, among, name, type, below⟩ := within.of_mem (listed child member)
  rcases List.mem_cons.mp among with rfl | later
  · exact absurd name.symm (others child member)
  · exact ⟨counterpart, later, name, type, below⟩

theorem of_name {property child : Property} {rest properties : List Property}
    (within : Within (property :: rest) properties) (member : child ∈ properties)
    (named : child.name = property.name) (others : ∀ other ∈ rest, other.name ≠ property.name) :
    property.type = child.type ∧ Within property.children child.children := by
  obtain ⟨counterpart, among, name, type, below⟩ := within.of_mem member
  rcases List.mem_cons.mp among with rfl | later
  · exact ⟨type, below⟩
  · exact absurd (name.trans named) (others counterpart later)

end Property.Within

namespace Instance

private theorem counterpart?_eq_some {schema stored counterpart : Property}
    (found : counterpart? schema stored = some counterpart) :
    counterpart ∈ schema.children ∧ counterpart.name = stored.name ∧
      counterpart.type = stored.type := by
  obtain ⟨lookup, type⟩ := Option.filter_eq_some_iff.mp found
  exact ⟨findNamed_mem lookup, findNamed_name lookup, by simpa using type⟩

theorem prune_eq (schema : Property) (path : String) (property : Property) :
    prune schema path property =
      ({ property with children := (pruneList schema path property.children).1 },
        (pruneList schema path property.children).2) := by
  obtain ⟨name, type, value, children⟩ := property
  rfl

theorem pruneList_cons (schema : Property) (path : String) (child : Property)
    (rest : List Property) :
    pruneList schema path (child :: rest) =
      match counterpart? schema child with
      | some counterpart =>
          let inner := pruneList counterpart (BrowseName.join path child.name) child.children
          ({ child with children := inner.1 } :: (pruneList schema path rest).1,
            inner.2 ++ (pruneList schema path rest).2)
      | none =>
          ((pruneList schema path rest).1,
            { values := child.values path, paths := [BrowseName.join path child.name] } ++
              (pruneList schema path rest).2) := by
  rw [pruneList]
  split <;> simp_all [prune_eq]

theorem pruned_values_append (first second : Pruned) :
    (first ++ second).values = first.values ++ second.values :=
  rfl

mutual

theorem valuesList_prune (schema : Property) (path : String) :
    ∀ children : List Property,
      (valuesList path (pruneList schema path children).1 ++
        (pruneList schema path children).2.values).Perm (valuesList path children)
  | [] => .nil
  | child :: rest => by
      have restConserved := valuesList_prune schema path rest
      rw [pruneList_cons, valuesList]
      cases counterpart? schema child with
      | none =>
          simp only [pruned_values_append]
          exact (List.perm_append_comm_assoc ..).trans (restConserved.append_left _)
      | some counterpart =>
          have conserved := values_prune counterpart path child
          simp only [pruned_values_append, valuesList]
          refine List.Perm.trans ?_ (conserved.append restConserved)
          rw [List.append_assoc, List.append_assoc]
          exact (List.perm_append_comm_assoc ..).append_left _

/-- Every value is either kept or reported. -/
theorem values_prune (schema : Property) (path : String) :
    ∀ property : Property,
      (values path { property with
          children :=
            (pruneList schema (BrowseName.join path property.name) property.children).1 } ++
        (pruneList schema (BrowseName.join path property.name) property.children).2.values).Perm
        (property.values path)
  | ⟨name, type, value, children⟩ => by
      simpa only [values, List.append_assoc] using
        (valuesList_prune schema (BrowseName.join path name) children).append_left _

end

mutual

theorem within_pruneList (schema : Property) (path : String) :
    ∀ children : List Property, Within schema.children (pruneList schema path children).1
  | [] => .nil _
  | child :: rest => by
      have restWithin := within_pruneList schema path rest
      rw [pruneList_cons]
      cases found : counterpart? schema child with
      | none => exact restWithin
      | some counterpart =>
          obtain ⟨listed, name, type⟩ := counterpart?_eq_some found
          exact .cons listed name type (within_prune counterpart _ child) restWithin

theorem within_prune (schema : Property) (path : String) :
    ∀ property : Property,
      Within schema.children (pruneList schema path property.children).1
  | ⟨_, _, _, children⟩ => within_pruneList schema path children

end

theorem names_pruneList_sublist (schema : Property) (path : String) (children : List Property) :
    (names (pruneList schema path children).1).Sublist (names children) := by
  induction children with
  | nil => exact .slnil
  | cons child rest ih =>
      rw [pruneList_cons]
      cases counterpart? schema child with
      | none => exact ih.cons _
      | some counterpart => exact ih.cons_cons _

mutual

theorem uniqueList_pruneList (schema : Property) (path : String) :
    ∀ children : List Property, UniqueList children →
      UniqueList (pruneList schema path children).1
  | [], _ => trivial
  | child :: rest, ⟨first, others⟩ => by
      have restUnique := uniqueList_pruneList schema path rest others
      rw [pruneList_cons]
      cases counterpart? schema child with
      | none => exact restUnique
      | some counterpart => exact ⟨unique_prune counterpart _ child first, restUnique⟩

theorem unique_prune (schema : Property) (path : String) :
    ∀ property : Property, property.Unique →
      Unique { property with children := (pruneList schema path property.children).1 }
  | ⟨_, _, _, children⟩, ⟨first, below⟩ =>
      ⟨first.sublist (names_pruneList_sublist schema path children),
        uniqueList_pruneList schema path children below⟩

end

theorem findNamed_pruneList (schema : Property) (path : String) {children : List Property}
    (unique : (names children).Nodup) (name : String) :
    findNamed name (pruneList schema path children).1 =
      (findNamed name children).bind fun child =>
        (counterpart? schema child).map fun counterpart =>
          { child with
            children := (pruneList counterpart (BrowseName.join path child.name)
              child.children).1 } := by
  induction children with
  | nil => rfl
  | cons child rest ih =>
      obtain ⟨first, restUnique⟩ : child.name ∉ names rest ∧ (names rest).Nodup :=
        List.nodup_cons.mp unique
      have restFound := ih restUnique
      rw [pruneList_cons, findNamed_cons]
      by_cases here : child.name = name
      · subst here
        have absent : findNamed child.name (pruneList schema path rest).1 = none :=
          findNamed_eq_none.mpr fun member =>
            first ((names_pruneList_sublist schema path rest).subset member)
        cases found : counterpart? schema child with
        | none => simp [absent, found]
        | some counterpart => simp [findNamed_cons, found]
      · cases found : counterpart? schema child with
        | none => simp [here, restFound]
        | some counterpart => simp [findNamed_cons, here, restFound]

end Instance

end AlarmView
