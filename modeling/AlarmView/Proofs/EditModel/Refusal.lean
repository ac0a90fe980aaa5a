import AlarmView.Proofs.EditModel.Isolation

/-!
# Refused creations

Creating an edit model fails exactly if its configuration cannot be used, whatever the store holds.
What the store had of the edit model stays as it was, and so do all others, but what it lacked is
left behind empty.
-/

namespace AlarmView

/-- Reconciling fails for the configuration alone, before it comes to the trees. -/
theorem reconcile_eq_error {now : Instant} {configuration : Configuration} {schema : Property}
    {model : Instance} {reason : VisibilityError} :
    reconcile now configuration schema model = .error reason ↔
      configuration.rangeGates = .error reason := by
  rw [reconcile_eq]
  cases configuration.rangeGates <;> simp [Except.map]

private theorem Table.contains_iff {α : Type} {table : Table α} {key : String} :
    table.contains key ↔ ∃ value, table.get? key = some value := by
  rw [contains, Option.isSome_iff_exists]

private theorem Table.insert_unless_contains_eq_self {α : Type} {table : Table α} {key : String}
    {value : α} :
    (if table.contains key then table else table.insert key value) = table ↔
      table.contains key := by
  constructor
  · intro same
    by_contra absent
    rw [if_neg absent] at same
    have found : table.get? key = some value := by
      rw [← same, get?_insert, if_pos rfl]
    exact absent (contains_iff.mpr ⟨value, found⟩)
  · exact fun known => if_pos known

namespace Store

variable {store : Store} {names : EditModelNames}

private theorem prepared_eq_self :
    store.prepared names = store ↔
      store.types.contains names.typeName ∧ store.instances.contains names.editModel := by
  obtain ⟨types, instances⟩ := store
  rw [prepared, Store.mk.injEq, Table.insert_unless_contains_eq_self,
    Table.insert_unless_contains_eq_self]

private theorem requireInstance_prepared (editModel : String) :
    (store.prepared names).requireInstance editModel =
      if editModel = names.editModel then .ok (store.modelOf names)
      else store.requireInstance editModel := by
  rw [requireInstance, instances_prepared]
  by_cases here : editModel = names.editModel
  · rw [if_pos here, if_pos here]
  · rw [if_neg here, if_neg here, requireInstance]

private theorem schema?_prepared (other : EditModelNames) :
    (store.prepared names).schema? other =
      if other.typeName = names.typeName then some (store.schemaOf names)
      else store.schema? other :=
  types_prepared store names other.typeName

private theorem create_eq_error {now : Instant} {configuration : Configuration}
    {error : EditModelError} (refused : (store.create now names configuration).2 = .error error) :
    (store.create now names configuration).1 = store.prepared names ∧
      ∃ reason, error = .visibility reason ∧ configuration.rangeGates = .error reason := by
  rcases store.create_cases names now configuration with ⟨_, _, _, creation⟩ |
    ⟨reason, unusable, creation⟩
  · rw [creation] at refused
    exact absurd refused (by simp)
  · rw [creation] at refused ⊢
    exact ⟨rfl, reason, (Except.error.inj refused).symm, unusable⟩

/-- A refused creation leaves the store as it was exactly if the edit model had both its schema and
its instance already.  Otherwise what was missing is there afterwards and is empty. -/
theorem create_refused {now : Instant} {configuration : Configuration} {error : EditModelError}
    (refused : (store.create now names configuration).2 = .error error) :
    let after := (store.create now names configuration).1
    (after = store ↔
      store.types.contains names.typeName ∧ store.instances.contains names.editModel) ∧
      (∀ other : EditModelNames, after.schema? other =
        if other.typeName = names.typeName then
          some ((store.schema? names).getD (.object names.typeName))
        else store.schema? other) ∧
      (∀ editModel : String, after.requireInstance editModel =
        if editModel = names.editModel then
          .ok ((store.instances.get? editModel).getD (.new editModel))
        else store.requireInstance editModel) ∧
      ∃ reason, error = .visibility reason ∧
        ∀ schema model, reconcile now configuration schema model = .error reason := by
  intro after
  obtain ⟨prepared, reason, same, unusable⟩ := create_eq_error refused
  have prepares : after = store.prepared names := prepared
  rw [prepares]
  refine ⟨prepared_eq_self, schema?_prepared, fun editModel => ?_, reason, same,
    fun schema model => reconcile_eq_error.mpr unusable⟩
  rw [requireInstance_prepared]
  split
  · next here => rw [here, modelOf]
  · rfl

/-- The store has the instance but not the schema, and the configuration lacks a bound of the event
time. -/
theorem create_refused_schemaMissing :
    let names : EditModelNames := { editModel := "Alarms", widget := "Panel" }
    let store := Store.empty.putInstance "Alarms" (.new "Alarms")
    let configuration : Configuration := { attributes := [.single "EventTime" true] }
    let created := store.create .unixEpoch names configuration
    created.2 = .error (.visibility (.missingChild "EventTime" "FromEventTime")) ∧
      created.1 ≠ store ∧ store.schema? names = none ∧
      created.1.schema? names = some (.object "AlarmsPanel") := by
  intro names store configuration created
  have refused : created.2 =
      .error (.visibility (.missingChild "EventTime" "FromEventTime")) := by decide +kernel
  obtain ⟨untouched, schemas, _, _⟩ := create_refused refused
  have missing : store.schema? names = none := by decide +kernel
  refine ⟨refused, ?_, missing, ?_⟩
  · intro same
    exact absurd (untouched.mp same).1 (by decide +kernel)
  · rw [schemas names, if_pos rfl, missing]
    rfl

end Store

end AlarmView
