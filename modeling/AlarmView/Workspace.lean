import AlarmView.EditModel.Store

/-!
# Workspaces

A workspace is what one alarm widget keeps between its runs: the visibility configuration and the
edit models.
-/

namespace AlarmView

/-- The configuration and the edit models of a widget. -/
structure Workspace where
  configuration : Configuration
  store : Store
deriving DecidableEq, Inhabited

def Workspace.builtin : Workspace where
  configuration := .builtin
  store := .empty

end AlarmView
