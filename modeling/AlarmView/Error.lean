import AlarmView.EditModel.Instance
import AlarmView.Query.Compile

/-!
# Errors

Everything that can go wrong between a configuration, an edit model and a query.
-/

namespace AlarmView

/-- Why an operation of the panel or of the widget fails. -/
inductive Error where
  | filter (error : FilterError)
  | visibility (error : VisibilityError)
  | editModel (error : EditModelError)
deriving DecidableEq

namespace Error

def ofQuery : QueryError → Error
  | .filter error => filter error
  | .visibility error => visibility error

def message : Error → String
  | filter error => error.message
  | visibility error => error.message
  | editModel error => error.message

end Error

end AlarmView
