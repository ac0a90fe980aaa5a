import AlarmView.Proofs.Panel.Session

/-!
# Where checked states come from

Nothing but panels checks criteria.  So what holds of every checked filter that a panel saves holds
of everything that is stored or retained as checked.
-/

namespace AlarmView

open BrowseName Property

variable {allowed : Attribute → String → Prop} {configuration : Configuration} {schema : Property}
  {model : Instance} {store : Store} {panel : Panel} {now : Instant}

/-- Whether an entry is a checked state only where one is allowed. -/
def Checks (allowed : Attribute → String → Prop) (entry : String × PropertyValue) : Prop :=
  ∀ (attr : Attribute) (name : String), entry = (join attr.browseName name, .boolean true) →
    allowed attr name

theorem Checks.of_ne {entry : String × PropertyValue} (unset : entry.2 ≠ .boolean true) :
    Checks allowed entry := by
  rintro attr name rfl
  exact absurd rfl unset

namespace Panel

private theorem value_of_rangeWrite {write : Write}
    (member : write ∈ panel.pickerWrites now ++ panel.severityWrites) :
    write.value ≠ .boolean true := by
  simp only [pickerWrites, severityWrites, List.mem_append, List.mem_ite_nil_right,
    List.mem_singleton, List.mem_map] at member
  rcases member with (⟨_, rfl⟩ | ⟨_, rfl⟩) | ⟨_, name, _, rfl⟩ <;> simp

/-- A panel saves a checked state only for a checked filter. -/
theorem checks_write
    (allows : ∀ filter ∈ panel.filters.filters, filter.checked → allowed filter.attr filter.name)
    {write : Write} (member : write ∈ panel.writes now) :
    Checks allowed (join write.attr write.name, write.value) := by
  rw [writes, List.append_assoc] at member
  rcases List.mem_append.mp member with criterion | range
  · obtain ⟨filter, listed, rfl⟩ := List.mem_map.mp criterion
    intro attr name same
    obtain ⟨path, checked⟩ := Prod.mk.inj same
    obtain ⟨sameAttr, rfl⟩ :=
      join_injective filter.attr.browseName_named attr.browseName_named path
    obtain rfl := Attribute.browseName_injective sameAttr
    exact allows filter listed (PropertyValue.boolean.inj checked)
  · exact .of_ne (value_of_rangeWrite range)

end Panel

/-- What holds of instances in which criteria are only checked where that is allowed. -/
structure Instance.Traced (allowed : Attribute → String → Prop) (model : Instance) : Prop where
  unique : model.root.Unique
  checks : model.Only (Checks allowed)

namespace Instance.Traced

private theorem new (name : String) : (Instance.new name).Traced allowed where
  unique := ⟨.nil, trivial⟩
  checks := .new name

private theorem update (traced : model.Traced allowed) (unset : schema.Unset) :
    (model.update schema).1.Traced allowed where
  unique := update_unique unset.regular.unique traced.unique
  checks := traced.checks.update fun entry member => .of_ne (unset.unset entry member)

private theorem writeAll (traced : model.Traced allowed) {writes : List Write}
    (allows : ∀ write ∈ writes, Checks allowed (join write.attr write.name, write.value)) :
    (model.writeAll writes).1.Traced allowed where
  unique := (unique_congr (skeleton_writeAll model writes)).mpr traced.unique
  checks := traced.checks.writeAll allows

theorem of_checked (traced : model.Traced allowed) {attr : Attribute} {name : String}
    (checked : model.stored? attr.browseName name = some (.boolean true)) : allowed attr name :=
  traced.checks.of_stored? checked attr name rfl

end Instance.Traced

/-- What holds of stores in which criteria are only checked where that is allowed. -/
abbrev Store.Traced (allowed : Attribute → String → Prop) (store : Store) : Prop :=
  store.Each Property.Unset (Instance.Traced allowed)

namespace Store.Traced

theorem create (traced : store.Traced allowed) (siblings : configuration.Distinct) (now : Instant)
    (names : EditModelNames) : (store.create now names configuration).1.Traced allowed := by
  apply Each.create traced (.object names.typeName) (.new names.editModel)
  intro schema model unset modelTraced
  have synced := unset.sync siblings now
  exact ⟨synced, modelTraced.update synced⟩

theorem save (traced : panel.store.Traced allowed)
    (allows : ∀ filter ∈ panel.filters.filters, filter.checked → allowed filter.attr filter.name)
    (now : Instant) : (panel.save now).1.store.Traced allowed := by
  rw [Panel.save]
  split
  · exact traced
  · next model found =>
      have modelTraced := traced.models _ model (requireInstance_eq_ok.mp found)
      exact traced.putInstance _ (modelTraced.writeAll fun write => Panel.checks_write allows)

end Store.Traced

end AlarmView
