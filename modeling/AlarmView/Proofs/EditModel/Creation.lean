import AlarmView.EditModel.Store
import AlarmView.Proofs.EditModel.Settling
import AlarmView.Proofs.Table

/-!
# Creating edit models

Creating an edit model reconciles what the store has of it, and an empty schema or instance where it
has nothing.  With a configuration that cannot be used, nothing but the empty ones is added, and an
edit model that is in line with its configuration stays as it is.
-/

namespace AlarmView.Store

variable (store : Store) (names : EditModelNames)

def schemaOf : Property :=
  (store.types.get? names.typeName).getD (.object names.typeName)

def modelOf : Instance :=
  (store.instances.get? names.editModel).getD (.new names.editModel)

/-- The store with this schema and this instance of an edit model. -/
def put (schema : Property) (model : Instance) : Store where
  types := store.types.insert names.typeName schema
  instances := store.instances.insert names.editModel model

theorem create_eq (now : Instant) (configuration : Configuration) :
    store.create now names configuration =
      match reconcile now configuration (store.schemaOf names) (store.modelOf names) with
      | .ok reconciled =>
          (store.put names reconciled.schema reconciled.model, .ok reconciled.report)
      | .error error => (store.prepared names, .error (.visibility error)) := rfl

/-- What creating an edit model can do. -/
theorem create_cases (now : Instant) (configuration : Configuration) :
    let schema := (Schema.syncAttributes now (store.schemaOf names) configuration.attributes).1
    (∃ gates report, configuration.rangeGates = .ok gates ∧
      store.create now names configuration =
        (store.put names schema ((store.modelOf names).update schema).1, .ok report)) ∨
    ∃ error, configuration.rangeGates = .error error ∧
      store.create now names configuration =
        (store.prepared names, .error (.visibility error)) := by
  intro schema
  have reconciled := reconcile_eq now configuration (store.schemaOf names) (store.modelOf names)
  cases usable : configuration.rangeGates with
  | ok gates =>
      rw [usable] at reconciled
      refine .inl ⟨gates,
        { schema := (Schema.syncAttributes now (store.schemaOf names) configuration.attributes).2
          stored := ((store.modelOf names).update schema).2 }, rfl, ?_⟩
      rw [create_eq, reconciled]
      rfl
  | error error =>
      rw [usable] at reconciled
      refine .inr ⟨error, rfl, ?_⟩
      rw [create_eq, reconciled]
      rfl

theorem types_prepared (key : String) :
    (store.prepared names).types.get? key =
      if key = names.typeName then some (store.schemaOf names) else store.types.get? key :=
  Table.get?_insert_unless_contains ..

theorem instances_prepared (key : String) :
    (store.prepared names).instances.get? key =
      if key = names.editModel then some (store.modelOf names) else store.instances.get? key :=
  Table.get?_insert_unless_contains ..

variable {store names}

theorem requireInstance_eq_ok {editModel : String} {model : Instance} :
    store.requireInstance editModel = .ok model ↔
      store.instances.get? editModel = some model := by
  rw [requireInstance]
  cases store.instances.get? editModel <;> simp

theorem requireInstance_putInstance (store : Store) (editModel : String) (model : Instance) :
    (store.putInstance editModel model).requireInstance editModel = .ok model := by
  rw [requireInstance_eq_ok, putInstance, Table.get?_insert, if_pos rfl]

theorem types_put (schema : Property) (model : Instance) :
    (store.put names schema model).types.get? names.typeName = some schema := by
  rw [put, Table.get?_insert, if_pos rfl]

theorem instances_put (schema : Property) (model : Instance) :
    (store.put names schema model).instances.get? names.editModel = some model := by
  rw [put, Table.get?_insert, if_pos rfl]

theorem requireInstance_put (schema : Property) (model : Instance) :
    (store.put names schema model).requireInstance names.editModel = .ok model :=
  requireInstance_eq_ok.mpr (instances_put schema model)

theorem schemaOf_put (schema : Property) (model : Instance) :
    (store.put names schema model).schemaOf names = schema := by
  rw [schemaOf, types_put, Option.getD_some]

theorem modelOf_put (schema : Property) (model : Instance) :
    (store.put names schema model).modelOf names = model := by
  rw [modelOf, instances_put, Option.getD_some]

theorem schemaOf_prepared : (store.prepared names).schemaOf names = store.schemaOf names := by
  rw [schemaOf, types_prepared, if_pos rfl]
  rfl

theorem modelOf_prepared : (store.prepared names).modelOf names = store.modelOf names := by
  rw [modelOf, instances_prepared, if_pos rfl]
  rfl

/-- Creating an edit model that is in line with the configuration leaves its instance as it is. -/
theorem create_of_settled {configuration : Configuration} {gates : RangeGates}
    (usable : configuration.rangeGates = .ok gates) {schema : Property} {model : Instance}
    (schemaFound : store.types.get? names.typeName = some schema)
    (modelFound : store.instances.get? names.editModel = some model) (unique : schema.Unique)
    (settled : Schema.Settled configuration.attributes schema)
    (mirrors : schema.Mirrors model.root) (now : Instant) :
    ∃ report,
      store.create now names configuration = (store.put names schema model, .ok report) := by
  have same := reconcile_of_settled usable unique settled mirrors now
  exact ⟨_, by rw [create, schemaFound, modelFound, Option.getD, Option.getD, same]; rfl⟩

/-- Whether all schemas of a store are of one kind and all its instances of another. -/
structure Each (ofSchema : Property → Prop) (ofModel : Instance → Prop) (store : Store) : Prop where
  schemas : ∀ key schema, store.types.get? key = some schema → ofSchema schema
  models : ∀ key model, store.instances.get? key = some model → ofModel model

namespace Each

variable {ofSchema : Property → Prop} {ofModel : Instance → Prop}

theorem empty : Store.empty.Each ofSchema ofModel where
  schemas _ _ found := absurd found (by simp [Store.empty, Table.get?_empty])
  models _ _ found := absurd found (by simp [Store.empty, Table.get?_empty])

theorem schemaOf (each : store.Each ofSchema ofModel) (names : EditModelNames)
    (object : ofSchema (.object names.typeName)) : ofSchema (store.schemaOf names) := by
  rw [Store.schemaOf]
  cases found : store.types.get? names.typeName with
  | none => exact object
  | some schema => exact each.schemas _ schema found

theorem modelOf (each : store.Each ofSchema ofModel) (names : EditModelNames)
    (new : ofModel (.new names.editModel)) : ofModel (store.modelOf names) := by
  rw [Store.modelOf]
  cases found : store.instances.get? names.editModel with
  | none => exact new
  | some model => exact each.models _ model found

theorem put (each : store.Each ofSchema ofModel) (names : EditModelNames) {schema : Property}
    {model : Instance} (ofNew : ofSchema schema) (ofNewModel : ofModel model) :
    (store.put names schema model).Each ofSchema ofModel where
  schemas _ _ found := Table.of_get?_insert each.schemas ofNew found
  models _ _ found := Table.of_get?_insert each.models ofNewModel found

theorem putInstance (each : store.Each ofSchema ofModel) (editModel : String) {model : Instance}
    (ofNew : ofModel model) : (store.putInstance editModel model).Each ofSchema ofModel where
  schemas := each.schemas
  models _ _ found := Table.of_get?_insert each.models ofNew found

theorem delete (each : store.Each ofSchema ofModel) (names : EditModelNames) :
    (store.delete names).Each ofSchema ofModel where
  schemas key schema found := by
    rw [Store.delete, Table.get?_erase] at found
    split at found
    · exact absurd found (by simp)
    · exact each.schemas key schema found
  models key model found := by
    rw [Store.delete, Table.get?_erase] at found
    split at found
    · exact absurd found (by simp)
    · exact each.models key model found

/-- Creating an edit model keeps what both passes keep. -/
theorem create (each : store.Each ofSchema ofModel) {configuration : Configuration} {now : Instant}
    {names : EditModelNames} (object : ofSchema (.object names.typeName))
    (new : ofModel (.new names.editModel))
    (passes : ∀ schema model, ofSchema schema → ofModel model →
      let synced := (Schema.syncAttributes now schema configuration.attributes).1
      ofSchema synced ∧ ofModel (model.update synced).1) :
    (store.create now names configuration).1.Each ofSchema ofModel := by
  have ofOld := each.schemaOf names object
  have ofOldModel := each.modelOf names new
  rcases store.create_cases names now configuration with ⟨_, _, _, creation⟩ | ⟨_, _, creation⟩
  · obtain ⟨ofSynced, ofUpdated⟩ := passes _ _ ofOld ofOldModel
    rw [creation]
    exact each.put names ofSynced ofUpdated
  · rw [creation]
    constructor
    · intro key schema found
      rw [types_prepared] at found
      split at found
      · exact Option.some.inj found ▸ ofOld
      · exact each.schemas key schema found
    · intro key model found
      rw [instances_prepared] at found
      split at found
      · exact Option.some.inj found ▸ ofOldModel
      · exact each.models key model found

end Each

end AlarmView.Store
