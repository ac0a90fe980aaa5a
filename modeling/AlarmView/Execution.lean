import AlarmView.Action.Printer
import AlarmView.CommandLine
import AlarmView.Folder
import AlarmView.Settings

/-!
# Execution

What a command line does with files: the settings and the workspace that it reads, and the workspace
that it saves, which is the last of its steps that can fail.
-/

namespace AlarmView

inductive ExecutionError where
  | settings
  | existing (path : String)
  | unusable (path : String)
  | unwritable (path : String) (cause : FileError)
  | failed (error : Error)
deriving DecidableEq

def ExecutionError.message : ExecutionError → String
  | settings => "Failed to load config"
  | existing path => s!"Workspace '{path}' already exists, use --force to overwrite it"
  | unusable path => s!"No usable workspace at '{path}', run `init` first"
  | unwritable path cause => s!"Failed to write workspace '{path}': {cause.message}"
  | failed error => error.message

/-- What a command line finds in its files. -/
structure Found where
  /-- The text of the settings, if they are read from a file that can be read. -/
  settings : Option String
  occupied : Bool
  workspace : Option String

/-- Steps with files, which may fail.  What was written before a failure stays written. -/
abbrev Steps (m : Type → Type) :=
  ExceptT ExecutionError m

namespace CommandLine

def settingsIn (line : CommandLine) (found : Found) : Option Settings :=
  match line.settings with
  | none => some {}
  | some _ => found.settings.bind Settings.read?

def requireVacant (line : CommandLine) (found : Found) (force : Bool) :
    Except ExecutionError Unit :=
  if found.occupied && !force then .error (.existing line.workspace) else .ok ()

def load (line : CommandLine) (found : Found) : Except ExecutionError Workspace :=
  match found.workspace.bind Workspace.read? with
  | some workspace => .ok workspace
  | none => .error (.unusable line.workspace)

/-- The workspace that an action starts with. -/
def workspaceFor (line : CommandLine) (found : Found) : Except ExecutionError Workspace :=
  match line.action with
  | .init force => do
      line.requireVacant found force
      return .builtin
  | _ => line.load found

def context (line : CommandLine) (now : Instant) (settings : Settings) : Context where
  now
  names := settings.names
  lexicon := settings.lexicon
  format := line.format

section

variable {m : Type → Type} [Monad m] [Files m]

def find (line : CommandLine) : m Found := do
  let settings ←
    match line.settings with
    | some path => Except.toOption <$> Files.read path
    | none => pure none
  let occupied ← Files.contains line.workspace
  let workspace ← Files.read line.workspace
  return { settings, occupied, workspace := workspace.toOption }

def attempt (result : Except Error α) : Steps m α :=
  ExceptT.mk (pure (result.mapError .failed))

def save (line : CommandLine) (workspace : Workspace) : Steps m Unit :=
  ExceptT.mk do
    let written ← Files.write line.workspace workspace.print
    return written.mapError (.unwritable line.workspace)

/-- Carries out a command line with what was found in its files, up to what it shows. -/
def execute (line : CommandLine) (now : Instant) (found : Found) : Steps m Shown :=
  match line.settingsIn found with
  | none => throw .settings
  | some settings =>
      let context := line.context now settings
      match line.action with
      | .init force => do
          line.requireVacant found force
          let done ← attempt (context.create .builtin)
          line.save done.workspace
          return done.shown
      | .updateDefaults => do
          let workspace ← line.load found
          let done ← attempt (context.create workspace)
          line.save done.workspace
          return done.shown
      | .generateDefaults => do
          let workspace ← line.load found
          let done ← attempt (context.create (context.withoutEditModel workspace))
          line.save done.workspace
          return done.shown
      | .visibility attr criterion enabled => do
          let workspace ← line.load found
          let workspace ← attempt (Context.switched workspace attr criterion enabled)
          let done ← attempt (context.create workspace)
          line.save done.workspace
          return done.shown
      | .overview => do
          let workspace ← line.load found
          attempt (context.overview workspace)
      | .query => do
          let workspace ← line.load found
          attempt (context.query workspace)
      | .panel edits (.filter name) => do
          let workspace ← line.load found
          let done ← attempt (context.usePanel workspace edits (.filter name))
          return done.shown
      | .panel edits .refresh => do
          let workspace ← line.load found
          let done ← attempt (context.usePanel workspace edits .refresh)
          return done.shown
      | .panel edits .apply => do
          let workspace ← line.load found
          let done ← attempt (context.usePanel workspace edits .apply)
          line.save done.workspace
          return done.shown
      | .panel edits .clearAll => do
          let workspace ← line.load found
          let done ← attempt (context.usePanel workspace edits .clearAll)
          line.save done.workspace
          return done.shown

end

def executeNotices (line : CommandLine) (now : Instant) (found : Found) : List Notice :=
  match line.settingsIn found with
  | none => []
  | some settings =>
      let names := settings.names
      .working line.workspace names.editModel names.typeName ::
        (match line.workspaceFor found with
        | .error _ => []
        | .ok workspace => (line.context now settings).notices workspace line.action)

/-- Whether results are coloured when they go to a terminal, or when they do not. -/
def coloured (line : CommandLine) (terminal : Bool) : Bool :=
  match line.colours with
  | .auto => terminal
  | .always => true
  | .never => false

end CommandLine

/-- What steps come to in a folder, and the folder after them. -/
def Steps.runIn (steps : Steps (StateM Folder) α) (folder : Folder) :
    Except ExecutionError α × Folder :=
  steps.run.run folder

namespace Folder

def found (folder : Folder) (line : CommandLine) : Found :=
  (StateT.run (m := Id) line.find folder).1

/-- Carries out a command line in a folder: the folder afterwards, and what is printed. -/
def execute (folder : Folder) (line : CommandLine) (now : Instant) :
    Folder × Except ExecutionError String :=
  let (result, after) := (line.execute now (folder.found line)).runIn folder
  (after, result.map fun shown => shown.print line.format (line.coloured false))

end Folder

end AlarmView
