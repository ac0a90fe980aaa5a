import AlarmView.Proofs.EditModel.Settling

/-!
# Reconciling twice

The first reconciliation settles the schema and makes the instance mirror it, so a second one with
the same configuration finds nothing to do, whatever the trees were like before.
-/

namespace AlarmView

open Property

/-- Reconciling again with the same configuration changes nothing and reports nothing. -/
theorem reconcile_idempotent {configuration : Configuration} (siblings : configuration.Distinct)
    {schema : Property} (unique : schema.Unique) {model : Instance} {now : Instant}
    {first : Reconciled} (accepted : reconcile now configuration schema model = .ok first)
    (later : Instant) :
    reconcile later configuration first.schema first.model =
      .ok { first with report := { schema := .none, stored := .none } } := by
  rw [reconcile_eq] at accepted
  cases usable : configuration.rangeGates with
  | error error => simp [usable, Except.map] at accepted
  | ok gates =>
      rw [usable] at accepted
      obtain rfl := Except.ok.inj accepted
      have syncedUnique := Schema.unique_syncAttributes unique now siblings
      exact reconcile_of_settled usable syncedUnique
        (Schema.settled_syncAttributes unique siblings now)
        (Instance.update_mirrors syncedUnique model) later

/-- A schema with a stale attribute and a missing one, and an instance with equal siblings, a value
of another type, a node below a leaf and retained values. -/
theorem reconcile_idempotent_untidy :
    let stale : Property := { object "Stale" with children := [object "Inner"] }
    let mistyped : Property := { leaf "Urgent" (.uint16 7) with children := [object "Below"] }
    let schema : Property :=
      { object "Schema" with children := [object "Priority", stale, object "AlarmStatus"] }
    let model : Instance :=
      { root :=
          { object "Instance" with
            children :=
              [{ object "Priority" with children := [mistyped, leaf "High" (.boolean true)] },
                object "Priority", leaf "Stale" (.boolean true)] }
        retained := Table.empty.insert "Priority/Urgent" (.boolean true) }
    ∃ first, reconcile .unixEpoch .builtin schema model = .ok first ∧ first.report.isEmpty = false ∧
      ∀ later, reconcile later .builtin first.schema first.model =
        .ok { first with report := { schema := .none, stored := .none } } := by
  intro stale mistyped schema model
  have usable : Configuration.builtin.rangeGates = .ok ⟨⟨true, true⟩, true⟩ := rfl
  have accepted := reconcile_eq .unixEpoch .builtin schema model
  rw [usable] at accepted
  have unique : schema.Unique := by decide +kernel
  exact ⟨_, accepted, by decide +kernel,
    reconcile_idempotent Configuration.builtin_wellFormed.siblings unique accepted⟩

end AlarmView
