import AlarmView.EditModel.Instance
import AlarmView.EditModel.Schema

/-!
# Reconciling edit models

An edit model is brought in line with the configuration in two passes.  The schema pass makes the
schema hold a property for everything that is enabled.  The instance pass then removes what has no
counterpart in the schema, retaining its values, and adds what is missing, preferring retained
values to defaults.  Values that are already stored are never overwritten.
-/

namespace AlarmView

structure Pruned where
  values : List (String × PropertyValue)
  paths : List String
deriving DecidableEq

namespace Pruned

def none : Pruned := ⟨[], []⟩

def append (first second : Pruned) : Pruned where
  values := first.values ++ second.values
  paths := first.paths ++ second.paths

instance : Append Pruned := ⟨append⟩

end Pruned

namespace Instance

/-- The property of the schema with the name and the type of a stored one. -/
def counterpart? (schema stored : Property) : Option Property :=
  (schema.child? stored.name).filter (·.type == stored.type)

mutual

def prune (schema : Property) (path : String) : Property → Property × Pruned
  | ⟨name, type, value, children⟩ =>
      let (children, pruned) := pruneList schema path children
      (⟨name, type, value, children⟩, pruned)

/-- List counterpart of `prune`, for the children of the property at `path`. -/
def pruneList (schema : Property) (path : String) : List Property → List Property × Pruned
  | [] => ([], .none)
  | child :: rest =>
      match counterpart? schema child with
      | some counterpart =>
          let (child, inner) := prune counterpart (BrowseName.join path child.name) child
          let (rest, outer) := pruneList schema path rest
          (child :: rest, inner ++ outer)
      | none =>
          let taken : Pruned :=
            { values := child.values path, paths := [BrowseName.join path child.name] }
          let (rest, outer) := pruneList schema path rest
          (rest, taken ++ outer)

end

/-- A copy of a part of the schema, with what is left of the retained values and the paths at which
one of them came back. -/
structure Copied (α : Type) where
  copy : α
  retained : Table PropertyValue
  restored : List String

/-- The value with which the property at a path comes into being, and whether it was retained.  A
retained value of another type does not count. -/
def initialValue (retained : Table PropertyValue) (path : String) (type : PropertyType)
    (default : Option PropertyValue) : Option PropertyValue × List String :=
  match (retained.get? path).filter (·.type == type) with
  | some value => (some value, [path])
  | none => (default, [])

mutual

/-- Copies a part of the schema to a path; retained values of the path are used up. -/
def adopt (path : String) : Property → Table PropertyValue → Copied Property
  | ⟨name, type, value, children⟩, retained =>
      let (value, restored) := initialValue retained path type value
      let below := adoptList path children (retained.erase path)
      { copy := ⟨name, type, value, below.copy⟩
        retained := below.retained
        restored := restored ++ below.restored }

/-- List counterpart of `adopt`, for the children of the property at `path`. -/
def adoptList (path : String) :
    List Property → Table PropertyValue → Copied (List Property)
  | [], retained => { copy := [], retained, restored := [] }
  | child :: rest, retained =>
      let first := adopt (BrowseName.join path child.name) child retained
      let others := adoptList path rest first.retained
      { copy := first.copy :: others.copy
        retained := others.retained
        restored := first.restored ++ others.restored }

end

/-- A part of an instance after adding what was missing. -/
structure Completed (α : Type) where
  whole : α
  retained : Table PropertyValue
  changes : Changes

mutual

def complete (path : String) :
    (schema : Property) → Property → Table PropertyValue → Completed Property
  | ⟨_, _, _, wanted⟩, property, retained =>
      let below := completeList path wanted property.children retained
      { below with whole := { property with children := below.whole } }

/-- List counterpart of `complete`, for the children of the property at `path`. -/
def completeList (path : String) :
    (wanted : List Property) → List Property → Table PropertyValue → Completed (List Property)
  | [], children, retained => { whole := children, retained, changes := .none }
  | property :: rest, children, retained =>
      let here := BrowseName.join path property.name
      match Property.findNamed property.name children with
      | some child =>
          let inner := complete here property child retained
          let children := Property.updateNamed property.name (fun _ => inner.whole) children
          let others := completeList path rest children inner.retained
          { others with changes := inner.changes ++ others.changes }
      | none =>
          let fresh := adopt here property retained
          let others := completeList path rest (children ++ [fresh.copy]) fresh.retained
          let changes : Changes := { added := [here], removed := [], restored := fresh.restored }
          { others with changes := changes ++ others.changes }

end

/-- The instance pass: remove what the schema does not have, then add what it has. -/
def update (schema : Property) (model : Instance) : Instance × Changes :=
  let (root, pruned) := prune schema "" model.root
  let completed := complete "" schema root (model.retained.insertAll pruned.values)
  ({ root := completed.whole, retained := completed.retained },
    { Changes.none with removed := pruned.paths } ++ completed.changes)

end Instance

/-- An edit model in line with a configuration. -/
structure Reconciled where
  schema : Property
  model : Instance
  report : ReconcileReport
deriving DecidableEq

/-- Brings the schema and the instance of an edit model in line with a configuration.  New event
times are set to `now`. -/
def reconcile (now : Instant) (configuration : Configuration) (schema : Property)
    (model : Instance) : Except VisibilityError Reconciled := do
  let (schema, schemaChanges) ← Schema.update now configuration schema
  let (model, storedChanges) := model.update schema
  return { schema, model, report := { schema := schemaChanges, stored := storedChanges } }

end AlarmView
