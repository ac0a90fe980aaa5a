import AlarmView.Panel.Edits
import AlarmView.Startup
import AlarmView.Workspace

/-!
# Actions

Everything that can be done with a workspace in memory.  Files are the matter of command lines.
-/

namespace AlarmView

inductive Format where
  | text
  | json
deriving DecidableEq, Repr

inductive Action where
  /-- Creates the workspace; `force` replaces one that exists. -/
  | init (force : Bool)
  | updateDefaults
  | generateDefaults
  | visibility (attr : String) (criterion : Option String) (enabled : Bool)
  | overview
  | query
  | panel (edits : PanelEdits) (use : PanelUse)

inductive Shown where
  | report (editModel : String) (report : ReconcileReport)
  | query (current : CurrentQuery)
  | overview (configuration : Configuration) (layout : Layout) (model : Option Instance)
  | workspace (workspace : Workspace)

/-- What an action leaves in memory, and what it shows of that. -/
structure Done where
  workspace : Workspace
  shown : Shown

/-- What actions depend on besides their workspace. -/
structure Context where
  now : Instant
  names : EditModelNames
  lexicon : Lexicon
  format : Format

namespace Context

/-- Creates the edit model of a workspace or brings it in line. -/
def create (context : Context) (workspace : Workspace) : Except Error Done :=
  match workspace.store.create context.now context.names workspace.configuration with
  | (_, .error error) => .error (.editModel error)
  | (store, .ok report) =>
      .ok
        { workspace := { workspace with store }
          shown := .report context.names.editModel report }

def createNotices (context : Context) (workspace : Workspace) : List Notice :=
  Store.createNotices context.names workspace.configuration
    (workspace.store.create context.now context.names workspace.configuration).2

/-- Shows a workspace: as a whole, or its configuration, the layout and the stored values. -/
def overview (context : Context) (workspace : Workspace) : Except Error Shown :=
  match context.format with
  | .json => .ok (.workspace workspace)
  | .text => do
      let layout ←
        (Layout.generate context.lexicon workspace.configuration).mapError .visibility
      let model := workspace.store.instances.get? context.names.editModel
      return .overview workspace.configuration layout model

def overviewNotices (context : Context) (workspace : Workspace) : List Notice :=
  match context.format with
  | .json => []
  | .text => Layout.notices context.lexicon workspace.configuration

def query (context : Context) (workspace : Workspace) : Except Error Shown := do
  let (_, current) ←
    (startupQuery context.now workspace.configuration workspace.store context.names
      context.lexicon .idle).2
  return .query current

def queryNotices (context : Context) (workspace : Workspace) : List Notice :=
  startupNotices context.now workspace.configuration workspace.store context.names
    context.lexicon

def openPanel (context : Context) (workspace : Workspace) : Except Error Panel :=
  (Panel.openOn context.now workspace.configuration workspace.store context.names
    context.lexicon .idle).2

/-- Opens a panel on a workspace, edits it and uses it. -/
def usePanel (context : Context) (workspace : Workspace) (edits : PanelEdits) (use : PanelUse) :
    Except Error Done := do
  let panel ← context.openPanel workspace
  let panel ← (panel.edit edits).mapError .filter
  match panel.use context.now use with
  | (_, .error error) => throw error
  | (panel, .ok ()) =>
      return {
        workspace := { workspace with store := panel.store }
        shown := .query panel.current }

def panelNotices (context : Context) (workspace : Workspace) (edits : PanelEdits)
    (use : PanelUse) : List Notice :=
  Panel.openNotices context.now workspace.configuration workspace.store context.names
      context.lexicon ++
    (match context.openPanel workspace with
    | .error _ => []
    | .ok panel =>
        panel.editNotices edits ++
          (match panel.edit edits with
          | .error _ => []
          | .ok panel => panel.useNotices context.now use))

def switched (workspace : Workspace) (attr : String) (criterion : Option String) (enabled : Bool) :
    Except Error Workspace := do
  let configuration ←
    (workspace.configuration.setEnabled attr criterion enabled).mapError .visibility
  return { workspace with configuration }

def withoutEditModel (context : Context) (workspace : Workspace) : Workspace :=
  { workspace with store := workspace.store.delete context.names }

def notices (context : Context) (workspace : Workspace) : Action → List Notice
  | .init _ => context.createNotices .builtin
  | .updateDefaults => context.createNotices workspace
  | .generateDefaults => context.createNotices (context.withoutEditModel workspace)
  | .visibility attr criterion enabled =>
      match switched workspace attr criterion enabled with
      | .ok workspace => context.createNotices workspace
      | .error _ => []
  | .overview => context.overviewNotices workspace
  | .query => context.queryNotices workspace
  | .panel edits use => context.panelNotices workspace edits use

end Context

end AlarmView
