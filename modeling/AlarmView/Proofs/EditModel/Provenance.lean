import AlarmView.Proofs.EditModel.Serving

/-!
# Where values come from

Reconciling invents no value.  Whatever the paths are like, everything that an instance holds or
retains afterwards was held or retained before under the same path, or is a default of the schema.
-/

namespace AlarmView

open BrowseName Property

variable {holds : String × PropertyValue → Prop}

namespace Property

theorem mem_valuesList {path : String} {properties : List Property}
    {entry : String × PropertyValue} :
    entry ∈ valuesList path properties ↔ ∃ property ∈ properties, entry ∈ property.values path := by
  rw [valuesList_eq_flatMap, List.mem_flatMap]

theorem mem_values_here_or_below {path : String} {property : Property}
    {entry : String × PropertyValue} :
    entry ∈ property.values path ↔
      (∃ value, property.value = some value ∧ entry = (join path property.name, value)) ∨
        entry ∈ valuesList (join path property.name) property.children := by
  obtain ⟨name, type, value, children⟩ := property
  simp [values, eq_comm]

theorem forall_updateNamed {path name : String} {change : Property → Property}
    {properties : List Property} (old : ∀ entry ∈ valuesList path properties, holds entry)
    (new : ∀ found, findNamed name properties = some found →
      ∀ entry ∈ (change found).values path, holds entry) :
    ∀ entry ∈ valuesList path (updateNamed name change properties), holds entry := by
  intro entry member
  obtain ⟨property, listed, below⟩ := mem_valuesList.mp member
  rcases mem_updateNamed listed with kept | ⟨found, lookup, rfl⟩
  · exact old entry (mem_valuesList.mpr ⟨property, kept, below⟩)
  · exact new found lookup entry below

end Property

namespace Instance

mutual

theorem adopt_only (path : String) :
    ∀ (property : Property) (retained : Table PropertyValue),
      (∀ entry ∈ property.values path, holds entry) → (∀ entry ∈ retained.entries, holds entry) →
      let adopted := adopt (join path property.name) property retained
      (∀ entry ∈ adopted.copy.values path, holds entry) ∧
        ∀ entry ∈ adopted.retained.entries, holds entry
  | ⟨name, type, value, children⟩, retained, offered, kept => by
      have below := adoptList_only (join path name) children (retained.erase (join path name))
        (fun entry member => offered entry (mem_values_here_or_below.mpr (.inr member)))
        (fun entry member => kept entry (List.mem_of_mem_filter member))
      refine ⟨fun entry member => ?_, below.2⟩
      rcases mem_values_here_or_below.mp member with ⟨own, stored, rfl⟩ | inner
      · simp only [adopt, initialValue] at stored
        split at stored
        · next restored found =>
            obtain rfl := Option.some.inj stored
            exact kept _ (Table.mem_of_get? (Option.filter_eq_some_iff.mp found).1)
        · exact offered _ (mem_values_here_or_below.mpr (.inl ⟨own, stored, rfl⟩))
      · exact below.1 entry inner

theorem adoptList_only (path : String) :
    ∀ (properties : List Property) (retained : Table PropertyValue),
      (∀ entry ∈ valuesList path properties, holds entry) →
      (∀ entry ∈ retained.entries, holds entry) →
      (∀ entry ∈ valuesList path (adoptList path properties retained).copy, holds entry) ∧
        ∀ entry ∈ (adoptList path properties retained).retained.entries, holds entry
  | [], _, _, kept => ⟨fun _ member => (nomatch member), kept⟩
  | property :: rest, retained, offered, kept => by
      obtain ⟨here, others⟩ := List.forall_mem_append.mp offered
      have first := adopt_only path property retained here kept
      have later := adoptList_only path rest _ others first.2
      exact ⟨List.forall_mem_append.mpr ⟨first.1, later.1⟩, later.2⟩

end

mutual

theorem complete_only (path : String) :
    ∀ (schema property : Property) (retained : Table PropertyValue),
      (∀ entry ∈ valuesList path schema.children, holds entry) →
      (∀ entry ∈ valuesList path property.children, holds entry) →
      (∀ entry ∈ retained.entries, holds entry) →
      let completed := complete path schema property retained
      (∀ entry ∈ valuesList path completed.whole.children, holds entry) ∧
        ∀ entry ∈ completed.retained.entries, holds entry
  | ⟨_, _, _, wanted⟩, property, retained, offered, stored, kept =>
      completeList_only path wanted property.children retained offered stored kept

theorem completeList_only (path : String) :
    ∀ (wanted children : List Property) (retained : Table PropertyValue),
      (∀ entry ∈ valuesList path wanted, holds entry) →
      (∀ entry ∈ valuesList path children, holds entry) →
      (∀ entry ∈ retained.entries, holds entry) →
      let completed := completeList path wanted children retained
      (∀ entry ∈ valuesList path completed.whole, holds entry) ∧
        ∀ entry ∈ completed.retained.entries, holds entry
  | [], _, _, _, stored, kept => ⟨stored, kept⟩
  | property :: rest, children, retained, offered, stored, kept => by
      obtain ⟨here, others⟩ := List.forall_mem_append.mp offered
      rw [completeList]
      cases found : findNamed property.name children with
      | none =>
          have fresh := adopt_only path property retained here kept
          refine completeList_only path rest _ _ others ?_ fresh.2
          rw [valuesList_eq_flatMap, List.flatMap_append, List.flatMap_singleton,
            ← valuesList_eq_flatMap]
          exact List.forall_mem_append.mpr ⟨stored, fresh.1⟩
      | some child =>
          have named : child.name = property.name := findNamed_name found
          have ofChild (entry : String × PropertyValue) (member : entry ∈ child.values path) :
              holds entry :=
            stored entry (mem_valuesList.mpr ⟨child, findNamed_mem found, member⟩)
          have inner := complete_only (join path property.name) property child retained
            (fun entry member => here entry (mem_values_here_or_below.mpr (.inr member)))
            (fun entry member =>
              ofChild entry (mem_values_here_or_below.mpr (.inr (named ▸ member))))
            kept
          refine completeList_only path rest _ _ others ?_ inner.2
          refine forall_updateNamed stored fun _ _ entry member => ?_
          rw [complete_frame] at member
          rcases mem_values_here_or_below.mp member with ⟨value, own, rfl⟩ | below
          · exact ofChild _ (mem_values_here_or_below.mpr (.inl ⟨value, own, rfl⟩))
          · exact inner.1 entry (named ▸ below)

end

/-- Whether everything that an instance holds or retains is of one kind. -/
structure Only (holds : String × PropertyValue → Prop) (model : Instance) : Prop where
  stored : ∀ entry ∈ valuesList "" model.root.children, holds entry
  retained : ∀ entry ∈ model.retained.entries, holds entry

namespace Only

variable {model changed : Instance}

theorem new (name : String) : (Instance.new name).Only holds where
  stored _ member := nomatch member
  retained _ member := nomatch member

theorem update (only : model.Only holds) {schema : Property}
    (defaults : ∀ entry ∈ valuesList "" schema.children, holds entry) :
    (model.update schema).1.Only holds := by
  have before : ∀ entry ∈ valuesList "" (kept schema model) ++ taken schema model, holds entry :=
    fun entry member => only.stored entry ((values_conserved schema model).subset member)
  obtain ⟨left, removed⟩ := List.forall_mem_append.mp before
  have available : ∀ entry ∈ (offered schema model).entries, holds entry := by
    intro entry member
    rcases Table.mem_insertAll member with old | pruned
    · exact only.retained entry old
    · exact removed entry pruned
  have after := complete_only "" schema (keptRoot schema model) (offered schema model) defaults
    left available
  simp only [Instance.update, prune_eq]
  exact ⟨after.1, after.2⟩

theorem setValue (only : model.Only holds) {attr name : String} {value : PropertyValue}
    (here : holds (join attr name, value))
    (stored : model.setValue attr name value = .ok changed) : changed.Only holds := by
  obtain ⟨parent, leaf, parentFound, leafFound, _, rfl⟩ := setValue_eq_ok.mp stored
  obtain rfl : parent.name = attr := findNamed_name parentFound
  obtain rfl : leaf.name = name := findNamed_name leafFound
  have ofParent (entry : String × PropertyValue) (member : entry ∈ parent.values "") :
      holds entry :=
    only.stored entry (mem_valuesList.mpr ⟨parent, findNamed_mem parentFound, member⟩)
  have below : ∀ entry ∈ valuesList parent.name parent.children, holds entry :=
    fun entry member => ofParent entry (mem_values_here_or_below.mpr (.inr member))
  refine ⟨forall_updateNamed only.stored fun found lookup entry member => ?_, only.retained⟩
  obtain rfl : found = parent := Option.some.inj (lookup.symm.trans parentFound)
  rcases mem_values_here_or_below.mp member with ⟨own, holdsOwn, rfl⟩ | inner
  · exact ofParent _ (mem_values_here_or_below.mpr (.inl ⟨own, holdsOwn, rfl⟩))
  · refine forall_updateNamed below (fun twin leafLookup other inLeaf => ?_) entry inner
    obtain rfl : twin = leaf := Option.some.inj (leafLookup.symm.trans leafFound)
    rcases mem_values_here_or_below.mp inLeaf with ⟨own, holdsOwn, rfl⟩ | deeper
    · obtain rfl := Option.some.inj holdsOwn
      exact here
    · have inside : other ∈ twin.values found.name := mem_values_here_or_below.mpr (.inr deeper)
      exact below other (mem_valuesList.mpr ⟨twin, findNamed_mem leafFound, inside⟩)

theorem of_stored? (only : model.Only holds) {attr name : String} {value : PropertyValue}
    (found : model.stored? attr name = some value) : holds (join attr name, value) := by
  obtain ⟨leaf, leafAt, stored⟩ := Option.bind_eq_some_iff.mp found
  obtain ⟨parent, parentFound, leafFound⟩ := Option.bind_eq_some_iff.mp leafAt
  obtain rfl : parent.name = attr := findNamed_name parentFound
  obtain rfl : leaf.name = name := findNamed_name leafFound
  have own : (join parent.name leaf.name, value) ∈ leaf.values (join "" parent.name) :=
    mem_values_here_or_below.mpr (.inl ⟨value, stored, rfl⟩)
  have inParent : (join parent.name leaf.name, value) ∈ parent.values "" :=
    mem_values_here_or_below.mpr (.inr (mem_valuesList.mpr ⟨leaf, findNamed_mem leafFound, own⟩))
  exact only.stored _ (mem_valuesList.mpr ⟨parent, findNamed_mem parentFound, inParent⟩)

end Only

end Instance

variable {configuration : Configuration} {schema : Property}

/-- What holds of schemas of which no default is a checked state. -/
structure Property.Unset (schema : Property) : Prop where
  regular : schema.Regular
  unset : ∀ entry ∈ valuesList "" schema.children, entry.2 ≠ .boolean true

private theorem BrowseName.defaultValue_ne_true (now : Instant) (name : String) :
    defaultValue now name ≠ .boolean true := by
  unfold defaultValue
  split_ifs <;> simp

namespace Property.Unset

theorem object (name : String) : (Property.object name).Unset where
  regular := .object name
  unset _ member := nomatch member

theorem sync (unset : schema.Unset) (siblings : configuration.Distinct) (now : Instant) :
    (Schema.syncAttributes now schema configuration.attributes).1.Unset where
  regular := Schema.regular_syncAttributes unset.regular now siblings
  unset := by
    rintro ⟨path, value⟩ member
    rcases Schema.values_syncAttributes unset.regular siblings member with old | shows
    · exact unset.unset _ old
    · obtain ⟨attr, _, _, leaf, called, _, _, rfl⟩ := shows
      rw [Leaf.ofAttribute_default called]
      exact defaultValue_ne_true now leaf.name

end Property.Unset

end AlarmView
