import AlarmView.Execution
import AlarmView.Proofs.Folder
import AlarmView.Proofs.Panel.Session
import AlarmView.Proofs.Workspace.Persistence

/-!
# Saving

Every action that writes ends with one workspace in memory.  A command line saves it with the last
of its steps that can fail, so it replaces the text of one file by that workspace or leaves its
folder alone.  All other command lines leave their folder alone in any case.
-/

namespace AlarmView

/-- Whether an action that succeeds saves its workspace. -/
def Action.writes : Action → Bool
  | .init _ | .updateDefaults | .generateDefaults | .visibility .. => true
  | .overview | .query => false
  | .panel _ use => use.saves

namespace Context

variable {context : Context} {workspace final : Workspace} {action : Action} {done : Done}

/-- What an action comes to in memory. -/
def perform (context : Context) (workspace : Workspace) : Action → Except Error Done
  | .init _ => context.create .builtin
  | .updateDefaults => context.create workspace
  | .generateDefaults => context.create (context.withoutEditModel workspace)
  | .visibility attr criterion enabled => do
      let workspace ← switched workspace attr criterion enabled
      context.create workspace
  | .overview => (context.overview workspace).map fun shown => { workspace, shown }
  | .query => (context.query workspace).map fun shown => { workspace, shown }
  | .panel edits use => context.usePanel workspace edits use

/-- The workspace that an action has in memory once all of its steps have succeeded. -/
inductive Ends (context : Context) : Workspace → Action → Workspace → Prop
  | init {workspace : Workspace} {force : Bool} {store : Store} {report : ReconcileReport}
      (created : Store.empty.create context.now context.names .builtin = (store, .ok report)) :
      Ends context workspace (.init force) { configuration := .builtin, store }
  | updated {configuration : Configuration} {store after : Store} {report : ReconcileReport}
      (created : store.create context.now context.names configuration = (after, .ok report)) :
      Ends context ⟨configuration, store⟩ .updateDefaults ⟨configuration, after⟩
  | regenerated {configuration : Configuration} {store after : Store} {report : ReconcileReport}
      (created :
        (store.delete context.names).create context.now context.names configuration =
          (after, .ok report)) :
      Ends context ⟨configuration, store⟩ .generateDefaults ⟨configuration, after⟩
  | switched {configuration changed : Configuration} {store after : Store}
      {report : ReconcileReport} {attr : String} {criterion : Option String} {enabled : Bool}
      (switched : configuration.setEnabled attr criterion enabled = .ok changed)
      (created : store.create context.now context.names changed = (after, .ok report)) :
      Ends context ⟨configuration, store⟩ (.visibility attr criterion enabled) ⟨changed, after⟩
  | used {configuration : Configuration} {store : Store} {panel changed after : Panel}
      {edits : PanelEdits} {use : PanelUse}
      (opened : context.openPanel ⟨configuration, store⟩ = .ok panel)
      (edited : panel.edit edits = .ok changed)
      (used : changed.use context.now use = (after, .ok ()))
      (saves : use.saves = true) :
      Ends context ⟨configuration, store⟩ (.panel edits use) ⟨configuration, after.store⟩

theorem create_eq_ok :
    context.create workspace = .ok done ↔
      ∃ store report,
        workspace.store.create context.now context.names workspace.configuration =
          (store, .ok report) ∧
        done =
          { workspace := { workspace with store }
            shown := .report context.names.editModel report } := by
  rw [create]
  rcases workspace.store.create context.now context.names workspace.configuration with
    ⟨store, error | report⟩
  · simp
  · simp [@eq_comm _ _ done]

private theorem usePanel_eq_ok {edits : PanelEdits} {use : PanelUse} :
    context.usePanel workspace edits use = .ok done ↔
      ∃ panel changed after, context.openPanel workspace = .ok panel ∧
        panel.edit edits = .ok changed ∧ changed.use context.now use = (after, .ok ()) ∧
        done =
          { workspace := { workspace with store := after.store }
            shown := .query after.current } := by
  simp only [usePanel, bind_eq_ok, mapError_eq_ok]
  constructor
  · rintro ⟨panel, opened, changed, edited, finished⟩
    rcases used : changed.use context.now use with ⟨after, error | _⟩
    · rw [used] at finished
      cases finished
    · rw [used] at finished
      cases finished
      exact ⟨panel, changed, after, opened, edited, used, rfl⟩
  · rintro ⟨panel, changed, after, opened, edited, used, rfl⟩
    refine ⟨panel, opened, changed, edited, ?_⟩
    rw [used]
    rfl

theorem ends_of_perform (writes : action.writes = true)
    (performed : context.perform workspace action = .ok done) :
    context.Ends workspace action done.workspace := by
  obtain ⟨configuration, store⟩ := workspace
  cases action with
  | init force =>
      rw [perform] at performed
      obtain ⟨after, report, created, rfl⟩ := create_eq_ok.mp performed
      exact .init created
  | updateDefaults =>
      rw [perform] at performed
      obtain ⟨after, report, created, rfl⟩ := create_eq_ok.mp performed
      exact .updated created
  | generateDefaults =>
      rw [perform] at performed
      obtain ⟨after, report, created, rfl⟩ := create_eq_ok.mp performed
      exact .regenerated created
  | visibility attr criterion enabled =>
      rw [perform] at performed
      obtain ⟨between, changed, performed⟩ := bind_eq_ok.mp performed
      obtain ⟨configuration', switched, built⟩ := bind_eq_ok.mp changed
      cases built
      obtain ⟨after, report, created, rfl⟩ := create_eq_ok.mp performed
      exact .switched (mapError_eq_ok.mp switched) created
  | overview => cases writes
  | query => cases writes
  | panel edits use =>
      rw [perform] at performed
      obtain ⟨panel, changed, after, opened, edited, used, rfl⟩ := usePanel_eq_ok.mp performed
      exact .used opened edited used writes

end Context

/-- What the action of a command line comes to, once its files were read. -/
def CommandLine.performed (line : CommandLine) (now : Instant) (found : Found) :
    Except ExecutionError Done :=
  match line.settingsIn found with
  | none => .error .settings
  | some settings => do
      let workspace ← line.workspaceFor found
      ((line.context now settings).perform workspace line.action).mapError .failed

theorem CommandLine.performed_eq_ok {line : CommandLine} {now : Instant} {found : Found}
    {done : Done} :
    line.performed now found = .ok done ↔
      ∃ settings start, line.settingsIn found = some settings ∧
        line.workspaceFor found = .ok start ∧
        (line.context now settings).perform start line.action = .ok done := by
  rw [performed]
  cases line.settingsIn found with
  | none => simp
  | some settings => simp [bind_eq_ok, mapError_eq_ok]

private theorem mapError_bind {ε δ α β : Type} (change : ε → δ) (result : Except ε α)
    (next : α → Except ε β) : (result >>= next).mapError change =
      result.mapError change >>= fun a => (next a).mapError change := by
  cases result <;> rfl

namespace Steps

variable {α β : Type} {steps : Steps (StateM Folder) α} {next : α → Steps (StateM Folder) β}
  {result : Except ExecutionError α} {folder after : Folder} {line : CommandLine} {done : Done}

theorem runIn_bind_of_ok {a : α} (first : steps.runIn folder = (.ok a, after)) :
    runIn (steps >>= next) folder = (next a).runIn after := by
  rw [runIn, ExceptT.run_bind, StateT.run_bind, show steps.run.run folder = _ from first]
  rfl

theorem runIn_bind_of_error {error : ExecutionError}
    (first : steps.runIn folder = (.error error, after)) :
    runIn (steps >>= next) folder = (.error error, after) := by
  rw [runIn, ExceptT.run_bind, StateT.run_bind, show steps.run.run folder = _ from first]
  rfl

/-- Whether steps come to a result in any folder and leave it alone. -/
def Reads (steps : Steps (StateM Folder) α) (result : Except ExecutionError α) : Prop :=
  ∀ folder, steps.runIn folder = (result, folder)

theorem Reads.lift (result : Except ExecutionError α) :
    Reads (liftM result : Steps (StateM Folder) α) result :=
  fun _ => rfl

theorem Reads.attempt (result : Except Error α) :
    Reads (CommandLine.attempt result) (result.mapError .failed) :=
  fun _ => rfl

private theorem Reads.bind {results : α → Except ExecutionError β} (first : steps.Reads result)
    (later : ∀ a, (next a).Reads (results a)) : Reads (steps >>= next) (result >>= results) := by
  intro folder
  cases result with
  | error error => rw [runIn_bind_of_error (first folder)]; rfl
  | ok a => rw [runIn_bind_of_ok (first folder), later a folder]; rfl

/-- Saves what was done and shows it. -/
def saving (line : CommandLine) (done : Done) : Steps (StateM Folder) Shown := do
  line.save done.workspace
  return done.shown

/-- Whether steps come to a result and do nothing with files but save it at their end. -/
def SavesLast (line : CommandLine) (steps : Steps (StateM Folder) Shown)
    (result : Except ExecutionError Done) : Prop :=
  (∀ error, result = .error error → steps.Reads (.error error)) ∧
    ∀ done, result = .ok done → ∀ folder, steps.runIn folder = (saving line done).runIn folder

theorem SavesLast.of_error {steps : Steps (StateM Folder) Shown} {error : ExecutionError}
    (fails : steps.Reads (.error error)) : SavesLast line steps (.error error) := by
  refine ⟨fun other same => ?_, fun done same => (by cases same)⟩
  cases same
  exact fails

private theorem SavesLast.bind {later : α → Steps (StateM Folder) Shown}
    {results : α → Except ExecutionError Done} (first : steps.Reads result)
    (saves : ∀ a, SavesLast line (later a) (results a)) :
    SavesLast line (steps >>= later) (result >>= results) := by
  cases result with
  | error error => exact .of_error fun folder => runIn_bind_of_error (first folder)
  | ok a =>
      constructor
      · intro error failed folder
        rw [runIn_bind_of_ok (first folder), (saves a).1 error failed folder]
      · intro done ended folder
        rw [runIn_bind_of_ok (first folder), (saves a).2 done ended folder]

theorem SavesLast.attempt (result : Except Error Done) :
    SavesLast line
      (do
        let done ← CommandLine.attempt result
        line.save done.workspace
        return done.shown)
      (result.mapError .failed) := by
  cases result with
  | error error => exact .of_error fun _ => rfl
  | ok done =>
      refine ⟨fun error same => (by cases same), fun other same folder => ?_⟩
      cases same
      rfl

theorem runIn_save (line : CommandLine) (workspace : Workspace) (folder : Folder) :
    runIn (line.save workspace) folder =
      let (written, after) :=
        (Files.write (m := StateM Folder) line.workspace workspace.print).run folder
      (written.mapError (.unwritable line.workspace), after) :=
  rfl

private theorem runIn_saving_of_ok
    (written : folder.write line.workspace (some done.workspace.print) = .ok after) :
    (saving line done).runIn folder = (.ok done.shown, after) := by
  apply runIn_bind_of_ok
  simp only [runIn_save, Files.write, StateT.run, written]
  rfl

private theorem runIn_saving_of_error {cause : FileError}
    (refused : folder.write line.workspace (some done.workspace.print) = .error cause) :
    (saving line done).runIn folder = (.error (.unwritable line.workspace cause), folder) := by
  apply runIn_bind_of_error
  simp only [runIn_save, Files.write, StateT.run, refused]
  rfl

end Steps

namespace CommandLine

open Steps

/-- In each command line that writes, saving is the last step. -/
theorem execute_savesLast {line : CommandLine} (writes : line.action.writes = true) (now : Instant)
    (found : Found) : SavesLast line (line.execute now found) (line.performed now found) := by
  obtain ⟨action, _, _, _, _, _⟩ := line
  rw [execute, performed]
  cases settingsIn _ found with
  | none => exact .of_error fun _ => rfl
  | some settings =>
      simp only
      cases action with
      | init force =>
          simp only [workspaceFor, bind_assoc, pure_bind]
          exact .bind (.lift _) fun _ => .attempt _
      | updateDefaults => exact .bind (.lift _) fun _ => .attempt _
      | generateDefaults => exact .bind (.lift _) fun _ => .attempt _
      | visibility attr criterion enabled =>
          simp only [Context.perform, mapError_bind]
          exact .bind (.lift _) fun _ => .bind (.attempt _) fun _ => .attempt _
      | overview => cases writes
      | query => cases writes
      | panel edits use =>
          cases use with
          | filter name => cases writes
          | refresh => cases writes
          | apply => exact .bind (.lift _) fun _ => .attempt _
          | clearAll => exact .bind (.lift _) fun _ => .attempt _

theorem execute_reads {line : CommandLine} (reads : line.action.writes = false) (now : Instant)
    (found : Found) :
    Reads (line.execute now found)
      (line.performed now found >>= fun done => pure done.shown) := by
  obtain ⟨action, _, _, _, _, _⟩ := line
  rw [execute, performed]
  cases settingsIn _ found with
  | none => exact fun _ => rfl
  | some settings =>
      simp only [bind_assoc]
      cases action with
      | init force => cases reads
      | updateDefaults => cases reads
      | generateDefaults => cases reads
      | visibility attr criterion enabled => cases reads
      | overview =>
          refine .bind (.lift _) fun workspace folder => ?_
          simp only [Context.perform]
          cases Context.overview _ workspace <;> rfl
      | query =>
          refine .bind (.lift _) fun workspace folder => ?_
          simp only [Context.perform]
          cases Context.query _ workspace <;> rfl
      | panel edits use =>
          cases use with
          | filter name => exact .bind (.lift _) fun _ => .bind (.attempt _) fun _ _ => rfl
          | refresh => exact .bind (.lift _) fun _ => .bind (.attempt _) fun _ _ => rfl
          | apply => cases reads
          | clearAll => cases reads

end CommandLine

namespace Folder

variable {folder after : Folder} {line : CommandLine} {now : Instant} {done : Done}

theorem found_eq (folder : Folder) (line : CommandLine) :
    folder.found line =
      { settings := line.settings.bind fun path => (folder.read path).toOption
        occupied := folder.contains line.workspace
        workspace := (folder.read line.workspace).toOption } := by
  obtain ⟨action, settings, _, _, _, _⟩ := line
  cases settings <;> rfl

theorem execute_of_error {error : ExecutionError}
    (failed : line.performed now (folder.found line) = .error error) :
    folder.execute line now = (folder, .error error) := by
  rw [execute]
  cases writes : line.action.writes with
  | false =>
      rw [CommandLine.execute_reads writes now _ folder, failed]
      rfl
  | true =>
      rw [(CommandLine.execute_savesLast writes now _).1 error failed folder]
      rfl

theorem execute_of_reads (reads : line.action.writes = false)
    (performed : line.performed now (folder.found line) = .ok done) :
    folder.execute line now =
      (folder, .ok (done.shown.print line.format (line.coloured false))) := by
  rw [execute, CommandLine.execute_reads reads now _ folder, performed]
  rfl

theorem execute_of_writes (writes : line.action.writes = true)
    (performed : line.performed now (folder.found line) = .ok done)
    (written : folder.write line.workspace (some done.workspace.print) = .ok after) :
    folder.execute line now =
      (after, .ok (done.shown.print line.format (line.coloured false))) := by
  rw [execute, (CommandLine.execute_savesLast writes now _).2 done performed folder,
    Steps.runIn_saving_of_ok written]
  rfl

private theorem execute_of_unwritable {cause : FileError} (writes : line.action.writes = true)
    (performed : line.performed now (folder.found line) = .ok done)
    (refused : folder.write line.workspace (some done.workspace.print) = .error cause) :
    folder.execute line now = (folder, .error (.unwritable line.workspace cause)) := by
  rw [execute, (CommandLine.execute_savesLast writes now _).2 done performed folder,
    Steps.runIn_saving_of_error refused]
  rfl

/-- A command line fails and leaves its folder alone, or it comes to what its action does, which is
saved if the action writes. -/
theorem execute_cases (folder : Folder) (line : CommandLine) (now : Instant) :
    (∃ error, folder.execute line now = (folder, .error error)) ∨
      ∃ done after, line.performed now (folder.found line) = .ok done ∧
        folder.execute line now =
          (after, .ok (done.shown.print line.format (line.coloured false))) ∧
        (line.action.writes = false → after = folder) ∧
        (line.action.writes = true →
          folder.write line.workspace (some done.workspace.print) = .ok after) := by
  cases performed : line.performed now (folder.found line) with
  | error error => exact .inl ⟨error, execute_of_error performed⟩
  | ok done =>
      cases writes : line.action.writes with
      | false =>
          exact .inr ⟨done, folder, rfl, execute_of_reads writes performed, fun _ => rfl,
            fun writes => (by cases writes)⟩
      | true =>
          cases written : folder.write line.workspace (some done.workspace.print) with
          | error cause => exact .inl ⟨_, execute_of_unwritable writes performed written⟩
          | ok after =>
              exact .inr ⟨done, after, rfl, execute_of_writes writes performed written,
                fun reads => (by cases reads), fun _ => written⟩

/-- A command line that fails or only reads leaves all files alone; one that writes replaces its
workspace file by the workspace that it had in memory at its end, and no other file.  That workspace
is what is read from the file later on. -/
theorem execute_atomic (folder : Folder) (line : CommandLine) (now : Instant) :
    (∀ error, (folder.execute line now).2 = .error error → (folder.execute line now).1 = folder) ∧
      (line.action.writes = false → (folder.execute line now).1 = folder) ∧
      ∀ shown, (folder.execute line now).2 = .ok shown → line.action.writes = true →
        ∃ settings start final place, line.settingsIn (folder.found line) = some settings ∧
          line.workspaceFor (folder.found line) = .ok start ∧
          (line.context now settings).Ends start line.action final ∧
          (folder.execute line now).1.read line.workspace = .ok final.print ∧
          (final.toJson.depth ≤ Json.maxDepth →
            Workspace.read? final.print = some final.readBack) ∧
          folder.locate line.workspace = .ok place ∧
          ∀ key, key ≠ keyOf place.names →
            (folder.execute line now).1.get? key = folder.get? key := by
  obtain ⟨error, failed⟩ | ⟨done, after, performed, succeeded, reads, written⟩ :=
    execute_cases folder line now
  · rw [failed]
    exact ⟨fun _ _ => rfl, fun _ => rfl, fun _ shown => by cases shown⟩
  · rw [succeeded]
    refine ⟨fun _ failed => (by cases failed), reads, ?_⟩
    intro _ _ writes
    obtain ⟨settings, start, readable, loaded, ended⟩ := line.performed_eq_ok.mp performed
    obtain ⟨place, located, _, _, same⟩ := write_eq_ok.mp (written writes)
    refine ⟨settings, start, done.workspace, place, readable, loaded,
      Context.ends_of_perform writes ended, read_write (written writes), Workspace.read?_print,
      located, ?_⟩
    intro key other
    rw [same, Table.get?_insert, if_neg other]

/-- Creates a workspace in the file `w`. -/
def initLine : CommandLine where
  action := .init false
  settings := none
  workspace := "w"
  format := .text
  colours := .auto
  noticeLevel := none

theorem locate_initLine (folder : Folder) :
    folder.locate initLine.workspace =
      .ok { names := ["w"], entry := folder.get? "w", slash := false } := by
  have names : "w".splitOn "/" = ["w"] := by
    rw [String.splitOn, if_neg (by decide), String.splitOnAux, if_neg (by decide),
      if_neg (by decide), String.splitOnAux, if_pos (by decide)]
    rfl
  refine locate_eq_ok.mpr ⟨by decide +kernel, ["w"], ?_, ?_⟩ <;> rw [initLine, names] <;> rfl

theorem execute_initLine :
    ∃ shown, (execute .empty initLine .unixEpoch).2 = .ok shown := by
  have nothing : found .empty initLine =
      { settings := none, occupied := false, workspace := none } := by
    rw [found_eq, contains, read, locate_initLine]
    rfl
  have runs : (initLine.performed .unixEpoch (found .empty initLine)).toOption.isSome := by
    rw [nothing]
    decide +kernel
  cases performed : initLine.performed .unixEpoch (found .empty initLine) with
  | error error =>
      rw [performed] at runs
      cases runs
  | ok done =>
      have written : ∃ after,
          write .empty initLine.workspace (some done.workspace.print) = .ok after :=
        ⟨_, write_eq_ok.mpr ⟨_, locate_initLine .empty, (by decide), rfl, rfl⟩⟩
      obtain ⟨after, written⟩ := written
      rw [execute_of_writes rfl performed written]
      exact ⟨_, rfl⟩

/-- A workspace that exists is not replaced by accident. -/
theorem execute_initLine_occupied (now : Instant) (text : Option String) :
    (execute (Table.empty.insert "w" (.file text)) initLine now).2 = .error (.existing "w") := by
  have isThere : (found (Table.empty.insert "w" (.file text)) initLine).occupied = true := by
    rw [found_eq, contains, locate_initLine]
    rfl
  have fails (found : Found) (occupied : found.occupied = true) :
      initLine.performed now found = .error (.existing "w") := by
    obtain ⟨settings, _, workspace⟩ := found
    cases occupied
    rfl
  rw [execute_of_error (fails _ isThere)]

theorem execute_atomic_initLine :
    (execute (Table.empty.insert "w" (.file none)) initLine .unixEpoch).2 =
        .error (.existing "w") ∧
      (execute (Table.empty.insert "w" (.file none)) initLine .unixEpoch).1 =
        Table.empty.insert "w" (.file none) ∧
      Action.query.writes = false ∧
      (execute .empty { initLine with action := .query } .unixEpoch).1 = .empty ∧
      ∃ shown settings start final, (execute .empty initLine .unixEpoch).2 = .ok shown ∧
        (initLine.context .unixEpoch settings).Ends start initLine.action final ∧
        (execute .empty initLine .unixEpoch).1.read initLine.workspace = .ok final.print ∧
        final.toJson.depth ≤ Json.maxDepth ∧
        Workspace.read? final.print = some final.readBack := by
  have fails := execute_initLine_occupied .unixEpoch none
  obtain ⟨shown, succeeds⟩ := execute_initLine
  obtain ⟨settings, start, final, place, readable, _, ends, reads, loads, _⟩ :=
    (execute_atomic .empty initLine .unixEpoch).2.2 shown succeeds rfl
  have shallow : final.toJson.depth ≤ Json.maxDepth := by
    cases readable
    cases ends with
    | init created =>
        obtain rfl := congrArg Prod.fst created
        decide +kernel
  exact ⟨fails, (execute_atomic _ initLine .unixEpoch).1 _ fails, rfl,
    (execute_atomic .empty { initLine with action := .query } .unixEpoch).2.1 rfl, shown, settings,
    start, final, succeeds, ends, reads, shallow, loads shallow⟩

end Folder

end AlarmView
