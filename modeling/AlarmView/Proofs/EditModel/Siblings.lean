import AlarmView.Proofs.EditModel.Retention
import AlarmView.Proofs.EditModel.Typing

/-!
# Siblings of different names

A property is added to the schema only where there is none of its name, and to an instance only
where the schema has one and the instance has not.  So siblings never come to share a name, whatever
the configurations are like: they may list an attribute or a criterion twice, and enabled as well as
disabled, and they may be unusable.
-/

namespace AlarmView.EditState

/-- Whether siblings have different names at every level of the schema and of the instance. -/
structure Unique (state : EditState) : Prop where
  schema : state.schema.Unique
  model : state.model.root.Unique

variable {state : EditState}

private theorem Unique.reconciled (unique : state.Unique) {now : Instant}
    {configuration : Configuration}
    {result : Reconciled}
    (reconciled : reconcile now configuration state.schema state.model = .ok result) :
    Unique { schema := result.schema, model := result.model } := by
  rw [reconcile_eq] at reconciled
  cases usable : configuration.rangeGates with
  | error reason => simp [usable, Except.map] at reconciled
  | ok gates =>
      rw [usable] at reconciled
      obtain rfl := Except.ok.inj reconciled
      have schema := Schema.syncAttributes_unique unique.schema now configuration.attributes
      exact ⟨schema, Instance.update_unique schema unique.model⟩

private theorem Unique.step (unique : state.Unique) (operation : EditOperation) :
    (state.step operation).Unique := by
  cases operation with
  | reconcile now configuration =>
      cases reconciled : AlarmView.reconcile now configuration state.schema state.model with
      | error reason => simpa [EditState.step, reconciled] using unique
      | ok result => simpa [EditState.step, reconciled] using unique.reconciled reconciled
  | setValue attr name value =>
      cases stored : state.model.setValue attr name value with
      | error error => simpa [EditState.step, stored] using unique
      | ok model =>
          have after : Unique { state with model } :=
            { schema := unique.schema
              model :=
                (Property.unique_congr (Instance.skeleton_setValue stored)).mpr unique.model }
          simpa [EditState.step, stored] using after

/-- Siblings keep different names through any operations, among them reconciliations with any
configurations, those that fail included. -/
theorem run_unique (unique : state.Unique) (operations : List EditOperation) :
    (state.run operations).Unique := by
  induction operations generalizing state with
  | nil => exact unique
  | cons operation rest ih => exact ih (unique.step operation)

/-- The priority is on, off and on again, its criteria are repeated, and one of them has the name of a
range value; the last configuration cannot be used. -/
theorem run_unique_repeatedPriority :
    let priority (enabled : Bool) : Flag :=
      { name := "Priority"
        enabled
        children :=
          [.single "Urgent" true, .single "Urgent" false, .single "Urgent" true,
            .single "High" true, .single "High" true, .single "FromSeverity" true] }
    let repeating : Configuration :=
      { attributes :=
          priority true :: priority false :: priority true :: Configuration.builtin.attributes }
    let unusable : Configuration := { attributes := [priority false, priority true] }
    let before := (start "Schema" "Instance").run
      [.reconcile .unixEpoch .builtin, .setValue "Priority" "Urgent" (.boolean true)]
    let after := before.run [.reconcile .unixEpoch repeating, .reconcile .unixEpoch unusable]
    before.Unique ∧ before.schema ≠ after.schema ∧
      reconcile .unixEpoch unusable after.schema after.model =
        .error (.missingAttribute "EventTime") ∧
      after.Unique := by
  intro priority repeating unusable before after
  have unique : before.Unique := ⟨by decide +kernel, by decide +kernel⟩
  exact ⟨unique, by decide +kernel, by decide +kernel, run_unique unique _⟩

end AlarmView.EditState
