import AlarmView.Proofs.EditModel.Creation

/-!
# Isolation of edit models

A store keeps the instance of an edit model under its name and the schema under the name of its
type, which joins the name of the widget to it.  What is done to one edit model therefore stays
hidden from another one of a different name exactly if their types have different names as well.
-/

namespace AlarmView

/-- What can be done to an edit model. -/
inductive StoreEdit where
  | create (now : Instant) (configuration : Configuration)
  | delete
  | setValue (attr name : String) (value : PropertyValue)

/-- Whether two edit models have neither their instance nor their schema in common. -/
structure EditModelNames.Apart (first second : EditModelNames) : Prop where
  editModel : first.editModel ≠ second.editModel
  typeName : first.typeName ≠ second.typeName

namespace Store

/-- The store after an edit.  A value that cannot be stored changes nothing. -/
def edit (names : EditModelNames) (store : Store) : StoreEdit → Store
  | .create now configuration => (store.create now names configuration).1
  | .delete => store.delete names
  | .setValue attr name value =>
      match (store.requireInstance names.editModel).bind (·.setValue attr name value) with
      | .ok model => store.putInstance names.editModel model
      | .error _ => store

/-- The store after some edits, each of the edit model whose names stand with it. -/
def run (store : Store) (edits : List (EditModelNames × StoreEdit)) : Store :=
  edits.foldl (fun store (names, change) => store.edit names change) store

/-- Whether two stores have the same instance and the same schema of an edit model, or lack them
alike, and report the same when it is created next. -/
structure Alike (names : EditModelNames) (store other : Store) : Prop where
  model : store.requireInstance names.editModel = other.requireInstance names.editModel
  schema : store.schema? names = other.schema? names
  report : ∀ now configuration,
    (store.create now names configuration).2 = (other.create now names configuration).2

variable {names : EditModelNames} {store other : Store}

theorem requireInstance_congr {editModel : String} :
    store.requireInstance editModel = other.requireInstance editModel ↔
      store.instances.get? editModel = other.instances.get? editModel := by
  rw [requireInstance, requireInstance]
  cases store.instances.get? editModel <;> cases other.instances.get? editModel <;> simp

private theorem schema?_create (store : Store) (names : EditModelNames) (now : Instant)
    (configuration : Configuration) :
    (store.create now names configuration).1.schema? names ≠ none := by
  rw [schema?]
  rcases store.create_cases names now configuration with
    ⟨_, _, _, creation⟩ | ⟨_, _, creation⟩
  · simp [creation, types_put]
  · simp [creation, types_prepared]

namespace Alike

/-- Creating an edit model reads nothing of the store but its instance and its schema. -/
theorem create (model : store.instances.get? names.editModel = other.instances.get? names.editModel)
    (schema : store.schema? names = other.schema? names) (now : Instant)
    (configuration : Configuration) :
    let created := store.create now names configuration
    let expected := other.create now names configuration
    created.2 = expected.2 ∧
      created.1.instances.get? names.editModel = expected.1.instances.get? names.editModel ∧
      created.1.schema? names = expected.1.schema? names := by
  have sameSchema : store.schemaOf names = other.schemaOf names := by
    rw [schemaOf, schemaOf, ← schema?, schema, schema?]
  have sameModel : store.modelOf names = other.modelOf names := by
    rw [modelOf, modelOf, model]
  simp only [create_eq, ← sameSchema, ← sameModel]
  cases reconcile now configuration (store.schemaOf names) (store.modelOf names) with
  | ok reconciled => simp only [schema?, types_put, instances_put, and_self]
  | error error => simp [schema?, types_prepared, instances_prepared, sameSchema, sameModel]

theorem of_found
    (model : store.instances.get? names.editModel = other.instances.get? names.editModel)
    (schema : store.schema? names = other.schema? names) : store.Alike names other where
  model := requireInstance_congr.mpr model
  schema := schema
  report now configuration := (create model schema now configuration).1

theorem refl (names : EditModelNames) (store : Store) : store.Alike names store :=
  of_found rfl rfl

private theorem trans {last : Store} (first : store.Alike names other)
    (second : other.Alike names last) : store.Alike names last where
  model := first.model.trans second.model
  schema := first.schema.trans second.schema
  report now configuration :=
    (first.report now configuration).trans (second.report now configuration)

/-- Stores that are alike for an edit model stay alike under its edits. -/
theorem edit (alike : store.Alike names other) (change : StoreEdit) :
    (store.edit names change).Alike names (other.edit names change) := by
  have model := requireInstance_congr.mp alike.model
  have schema := alike.schema
  cases change with
  | create now configuration =>
      obtain ⟨_, sameModel, sameSchema⟩ := create model schema now configuration
      exact of_found sameModel sameSchema
  | delete =>
      refine of_found ?_ ?_
      · rw [Store.edit, Store.edit, delete, delete, Table.get?_erase, Table.get?_erase, if_pos rfl,
          if_pos rfl]
      · rw [Store.edit, Store.edit, schema?, schema?, delete, delete, Table.get?_erase,
          Table.get?_erase, if_pos rfl, if_pos rfl]
  | setValue attr name value =>
      rw [Store.edit, Store.edit, ← alike.model]
      cases (store.requireInstance names.editModel).bind (·.setValue attr name value) with
      | error error => exact alike
      | ok changed =>
          refine of_found ?_ schema
          exact requireInstance_congr.mp
            ((requireInstance_putInstance ..).trans (requireInstance_putInstance ..).symm)

end Alike

/-- An edit of one edit model does not touch another one that has nothing in common with it. -/
theorem edit_apart {changed : EditModelNames} (apart : names.Apart changed) (store : Store)
    (change : StoreEdit) : (store.edit changed change).Alike names store := by
  obtain ⟨otherModel, otherType⟩ := apart
  cases change with
  | create now configuration =>
      rw [edit]
      rcases store.create_cases changed now configuration with
        ⟨_, _, _, creation⟩ | ⟨_, _, creation⟩
      · rw [creation]
        refine .of_found ?_ ?_
        · rw [put, Table.get?_insert, if_neg otherModel]
        · rw [schema?, put, Table.get?_insert, if_neg otherType, schema?]
      · rw [creation]
        refine .of_found ?_ ?_
        · rw [instances_prepared, if_neg otherModel]
        · rw [schema?, types_prepared, if_neg otherType, schema?]
  | delete =>
      refine .of_found ?_ ?_
      · rw [edit, delete, Table.get?_erase, if_neg otherModel]
      · rw [edit, schema?, delete, Table.get?_erase, if_neg otherType, schema?]
  | setValue attr name value =>
      rw [edit]
      cases (store.requireInstance changed.editModel).bind (·.setValue attr name value) with
      | error error => exact .refl names store
      | ok model =>
          refine .of_found ?_ rfl
          exact (Table.get?_insert ..).trans (if_neg otherModel)

/-- What becomes of an edit model is the same without the edits of all those that have nothing in
common with it. -/
theorem run_alike {edits : List (EditModelNames × StoreEdit)}
    (others : ∀ entry ∈ edits, entry.1 = names ∨ names.Apart entry.1)
    (alike : store.Alike names other) :
    (store.run edits).Alike names (other.run (edits.filter (·.1 = names))) := by
  induction edits generalizing store other with
  | nil => exact alike
  | cons entry rest ih =>
      obtain ⟨changed, change⟩ := entry
      obtain ⟨here, later⟩ := List.forall_mem_cons.mp others
      by_cases own : changed = names
      · subst own
        rw [List.filter_cons_of_pos (by simp)]
        exact ih later (alike.edit change)
      · have apart : names.Apart changed := here.resolve_left own
        rw [List.filter_cons_of_neg (by simpa using own)]
        exact ih later ((edit_apart apart store change).trans alike)

end Store

namespace EditModelNames

/-- Whether nothing that is done to a second edit model can be told from the first: on every store
and for all their edits in any order, the first is as if the second had never been edited. -/
def Isolated (first second : EditModelNames) : Prop :=
  ∀ (store : Store) (edits : List (EditModelNames × StoreEdit)),
    (∀ entry ∈ edits, entry.1 = first ∨ entry.1 = second) →
      (store.run edits).Alike first (store.run (edits.filter (·.1 = first)))

variable {first second : EditModelNames}

private theorem Apart.isolated (apart : first.Apart second) : first.Isolated second := by
  intro store edits ofBoth
  refine Store.run_alike (fun entry member => ?_) (.refl first store)
  exact (ofBoth entry member).imp id fun (other : entry.1 = second) => other ▸ apart

/-- Deleting an edit model takes the schema from another one with the same name of its type. -/
theorem not_isolated_of_typeName (different : first.editModel ≠ second.editModel)
    (shared : first.typeName = second.typeName) : ¬ first.Isolated second := by
  intro isolated
  let creation : EditModelNames × StoreEdit := (first, .create .unixEpoch .builtin)
  have alike := isolated .empty [creation, (second, .delete)] (by simp [creation])
  have other : second ≠ first := fun same => different (congrArg (·.editModel) same.symm)
  have own : [creation, (second, .delete)].filter (·.1 = first) = [creation] := by
    simp [creation, other]
  rw [own] at alike
  have gone : (Store.empty.run [creation, (second, .delete)]).schema? first = none :=
    (Table.get?_erase ..).trans (if_pos shared)
  exact Store.schema?_create .empty first .unixEpoch .builtin (alike.schema.symm.trans gone)

/-- Edit models of different names are isolated from each other exactly if their types have
different names too. -/
theorem isolated_iff (different : first.editModel ≠ second.editModel) :
    first.Isolated second ↔ first.typeName ≠ second.typeName :=
  ⟨fun isolated shared => not_isolated_of_typeName different shared isolated,
    fun apart => Apart.isolated ⟨different, apart⟩⟩

theorem isolated_iff_alarmsAndEvents :
    let alarms : EditModelNames := { editModel := "Alarms", widget := "Panel" }
    let events : EditModelNames := { editModel := "AlarmsPanel", widget := "Grid" }
    alarms.editModel ≠ events.editModel ∧ alarms.Isolated events := by
  intro alarms events
  have different : alarms.editModel ≠ events.editModel := by decide
  exact ⟨different, (isolated_iff different).mpr (by decide)⟩

/-- Two edit models of different names whose types share the name `AlarmsPanel`. -/
theorem not_isolated_alarmsPanel :
    let alarms : EditModelNames := { editModel := "Alarms", widget := "Panel" }
    let pan : EditModelNames := { editModel := "AlarmsPan", widget := "el" }
    alarms.editModel ≠ pan.editModel ∧ ¬ alarms.Isolated pan := by
  intro alarms pan
  have different : alarms.editModel ≠ pan.editModel := by decide
  exact ⟨different, not_isolated_of_typeName different (by decide)⟩

end EditModelNames

end AlarmView
