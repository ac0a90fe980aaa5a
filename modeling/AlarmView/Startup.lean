import AlarmView.EditModel.Store
import AlarmView.Error

/-!
# The query at startup

Before any panel is opened, the grid of alarms shows what the stored filters select.
-/

namespace AlarmView

/-- Brings the edit model in line with the configuration, compiles what it stores and hands the
query on.  The store changes even if the query cannot be compiled. -/
def startupQuery (now : Instant) (configuration : Configuration) (store : Store)
    (names : EditModelNames) (lexicon : Lexicon) (current : CurrentQuery) :
    Store × Except Error (Query × CurrentQuery) :=
  match store.create now names configuration with
  | (store, .error error) => (store, .error (.editModel error))
  | (store, .ok _) =>
      match store.requireInstance names.editModel with
      | .error error => (store, .error (.editModel error))
      | .ok model =>
          match (FilterSet.ofInstance lexicon now model).compile configuration with
          | .error error => (store, .error (.ofQuery error))
          | .ok query => (store, .ok (query, current.publish query))

def startupNotices (now : Instant) (configuration : Configuration) (store : Store)
    (names : EditModelNames) (lexicon : Lexicon) : List Notice :=
  let (store, result) := store.create now names configuration
  Store.createNotices names configuration result ++
    (match result, store.requireInstance names.editModel with
    | .ok _, .ok model =>
        let filters := FilterSet.ofInstance lexicon now model
        FilterSet.instanceNotices lexicon model ++ filters.compileNotices configuration ++
          (match filters.compile configuration with
          | .ok query => [.publishing query.text]
          | .error _ => [])
    | _, _ => [])

end AlarmView
