import AlarmView.EditModel.Reconciliation

/-!
# Stores of edit models

A store holds the schemas of edit models by the name of their type and the instances by the name of
the edit model.
-/

namespace AlarmView

/-- The names of one edit model and of the widget that owns it. -/
structure EditModelNames where
  editModel : String
  widget : String
deriving DecidableEq, Repr

def EditModelNames.typeName (names : EditModelNames) : String :=
  names.editModel ++ names.widget

structure Store where
  types : Table Property
  instances : Table Instance
deriving DecidableEq, Inhabited

namespace Store

def empty : Store where
  types := .empty
  instances := .empty

def schema? (store : Store) (names : EditModelNames) : Option Property :=
  store.types.get? names.typeName

def requireInstance (store : Store) (editModel : String) : Except EditModelError Instance :=
  match store.instances.get? editModel with
  | some model => .ok model
  | none => .error (.notFound editModel)

def putInstance (store : Store) (editModel : String) (model : Instance) : Store :=
  { store with instances := store.instances.insert editModel model }

/-- The store in which an edit model exists, if only as an empty schema and an empty instance. -/
def prepared (store : Store) (names : EditModelNames) : Store where
  types :=
    if store.types.contains names.typeName then store.types
    else store.types.insert names.typeName (.object names.typeName)
  instances :=
    if store.instances.contains names.editModel then store.instances
    else store.instances.insert names.editModel (.new names.editModel)

/-- Creates an edit model if there is none and brings it in line with a configuration.  When the
configuration cannot be used, an edit model that was missing stays behind empty. -/
def create (now : Instant) (store : Store) (names : EditModelNames)
    (configuration : Configuration) : Store × Except EditModelError ReconcileReport :=
  let schema := (store.types.get? names.typeName).getD (.object names.typeName)
  let model := (store.instances.get? names.editModel).getD (.new names.editModel)
  match reconcile now configuration schema model with
  | .ok reconciled =>
      ({ types := store.types.insert names.typeName reconciled.schema
         instances := store.instances.insert names.editModel reconciled.model },
        .ok reconciled.report)
  | .error error => (store.prepared names, .error (.visibility error))

def createNotices (names : EditModelNames) (configuration : Configuration) :
    Except EditModelError ReconcileReport → List Notice
  | .ok report =>
      Schema.notices configuration ++
        [if report.isEmpty then .upToDate names.editModel
          else
            .reconciled names.editModel report.schema.added.length report.schema.removed.length
              report.stored.added.length report.stored.removed.length
              report.stored.restored.length]
  | .error _ => []

/-- Removes the schema and the instance of an edit model with everything stored in them. -/
def delete (store : Store) (names : EditModelNames) : Store where
  types := store.types.erase names.typeName
  instances := store.instances.erase names.editModel

def knows (store : Store) (names : EditModelNames) : Bool :=
  store.types.contains names.typeName || store.instances.contains names.editModel

end Store

end AlarmView
