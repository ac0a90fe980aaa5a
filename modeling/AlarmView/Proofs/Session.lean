import AlarmView.Proofs.Workspace.Startup

/-!
# Command lines one after another

Once a command line has created a workspace, there is one in its file that can be loaded, whatever
command lines follow with the same settings.  Its query fails only for a checked criterion with the
name of a disabled range that stands below another attribute than that range.
-/

namespace AlarmView

variable {path : String} {settings : Settings} {folder after : Folder} {workspace final : Workspace}
  {line : CommandLine} {now : Instant} {done : Done}

/-- The workspace that is loaded after some actions, if all of them succeed. -/
def Context.run (context : Context) (workspace : Workspace) (actions : List Action) :
    Except Error Workspace :=
  actions.foldlM (fun workspace action => do
    let done ← context.perform workspace action
    return (action.kept workspace done).readBack) workspace

namespace Folder

/-- Whether a file holds a workspace on which actions can go on. -/
structure Holds (path : String) (settings : Settings) (folder : Folder) (workspace : Workspace) :
    Prop where
  saved : folder.read path = .ok workspace.print
  loads : Workspace.read? workspace.print = some workspace
  ready : workspace.Ready settings.names settings.lexicon

namespace Holds

theorem of_saved (saved : folder.read path = .ok workspace.print)
    (ready : workspace.Ready settings.names settings.lexicon) :
    Holds path settings folder workspace.readBack where
  saved := by rw [Workspace.print_readBack, saved]
  loads := ready.reloads
  ready := ready.readBack

theorem performed_eq (holds : Holds line.workspace settings folder workspace)
    (readable : line.settingsIn (folder.found line) = some settings)
    (continues : ∀ force, line.action ≠ .init force) (now : Instant) :
    line.performed now (folder.found line) =
      ((line.context now settings).perform workspace line.action).mapError .failed := by
  have loaded : line.workspaceFor (folder.found line) = .ok workspace := by
    rw [CommandLine.workspaceFor]
    split
    · next force isInit => exact absurd isInit (continues force)
    · rw [CommandLine.load, found_eq, holds.saved]
      simp only [Except.toOption, Option.bind_some, holds.loads]
  rw [CommandLine.performed, readable]
  simp only [loaded]
  rfl

/-- A command line on a workspace fails as its action does. -/
theorem execute_of_error {error : Error} (holds : Holds line.workspace settings folder workspace)
    (readable : line.settingsIn (folder.found line) = some settings)
    (continues : ∀ force, line.action ≠ .init force)
    (failed : (line.context now settings).perform workspace line.action = .error error) :
    folder.execute line now = (folder, .error (.failed error)) := by
  apply Folder.execute_of_error
  rw [holds.performed_eq readable continues, failed]
  rfl

/-- A command line on a workspace does what its action does. -/
theorem execute_of_ok (holds : Holds line.workspace settings folder workspace)
    (readable : line.settingsIn (folder.found line) = some settings)
    (continues : ∀ force, line.action ≠ .init force)
    (ended : (line.context now settings).perform workspace line.action = .ok done) :
    ∃ after,
      folder.execute line now =
        (after, .ok (done.shown.print line.format (line.coloured false))) ∧
      Holds line.workspace settings after (line.action.kept workspace done).readBack := by
  have performed : line.performed now (folder.found line) = .ok done := by
    rw [holds.performed_eq readable continues, ended]
    rfl
  have ready := holds.ready.perform ended
  cases writes : line.action.writes with
  | false =>
      rw [Action.kept, if_neg (by simp [writes])] at ready ⊢
      exact ⟨folder, execute_of_reads writes performed, of_saved holds.saved ready⟩
  | true =>
      rw [Action.kept, if_pos writes] at ready ⊢
      obtain ⟨after, written⟩ := write_of_read holds.saved (some done.workspace.print)
      exact ⟨after, execute_of_writes writes performed written,
        of_saved (read_write written) ready⟩

/-- A command line that creates a workspace saves the same one, whatever was there before. -/
theorem of_init {force : Bool} {shown : String} (creates : line.action = .init force)
    (readable : line.settingsIn (folder.found line) = some settings)
    (succeeded : (folder.execute line now).2 = .ok shown) :
    Holds line.workspace settings (folder.execute line now).1
      (Workspace.initial now settings.names).readBack := by
  obtain ⟨error, failed⟩ | ⟨done, after, performed, executed, _, written⟩ :=
    execute_cases folder line now
  · rw [failed] at succeeded
    cases succeeded
  · obtain ⟨known, start, read, _, performed⟩ := line.performed_eq_ok.mp performed
    obtain rfl : known = settings := Option.some.inj (read.symm.trans readable)
    rw [creates, Context.perform] at performed
    obtain ⟨store, report, creation, rfl⟩ := Context.create_eq_ok.mp performed
    have same : store = (Store.empty.create now known.names .builtin).1 := by
      rw [show Store.empty.create now known.names .builtin = (store, .ok report) from creation]
    subst same
    rw [executed]
    refine of_saved ?_ (.initial now known.names known.lexicon)
    exact read_write (written (by rw [creates]; rfl))

end Holds

/-- The workspace that is loaded after actions on a new one. -/
def afterInit (actions : List Action) : Except Error Workspace :=
  (initLine.context .unixEpoch {}).run (Workspace.initial .unixEpoch (Settings.names {})).readBack
    actions

/-- The folders to which command lines on one workspace lead, from the one that has created it on,
as long as their settings stay the same. -/
inductive Session (path : String) (settings : Settings) : Folder → Prop
  | created {folder : Folder} {line : CommandLine} {now : Instant} {force : Bool}
      {shown : String} :
      line.action = .init force → line.workspace = path →
      line.settingsIn (folder.found line) = some settings →
      (folder.execute line now).2 = .ok shown → Session path settings (folder.execute line now).1
  | continued {folder : Folder} {line : CommandLine} {now : Instant} :
      Session path settings folder → line.workspace = path →
      line.settingsIn (folder.found line) = some settings →
      Session path settings (folder.execute line now).1

namespace Session

/-- Throughout a session there is a workspace in the file. -/
theorem holds (session : Session path settings folder) :
    ∃ workspace, Holds path settings folder workspace := by
  induction session with
  | created creates place readable succeeded =>
      subst place
      exact ⟨_, .of_init creates readable succeeded⟩
  | @continued folder line now _ place readable ih =>
      subst place
      obtain ⟨workspace, holds⟩ := ih
      by_cases creates : ∃ force, line.action = .init force
      · obtain ⟨force, creates⟩ := creates
        cases result : (folder.execute line now).2 with
        | error error =>
            rw [(execute_atomic folder line now).1 error result]
            exact ⟨workspace, holds⟩
        | ok shown => exact ⟨_, .of_init creates readable result⟩
      · have continues := not_exists.mp creates
        cases ended : (line.context now settings).perform workspace line.action with
        | error error =>
            rw [holds.execute_of_error readable continues ended]
            exact ⟨workspace, holds⟩
        | ok done =>
            obtain ⟨after, executed, holdsAfter⟩ := holds.execute_of_ok readable continues ended
            rw [executed]
            exact ⟨_, holdsAfter⟩

/-- A session follows the actions of its command lines. -/
theorem run {actions : List Action} (session : Session line.workspace settings folder)
    (readable : ∀ folder action,
      ({ line with action }).settingsIn (found folder { line with action }) = some settings)
    (holds : Holds line.workspace settings folder workspace)
    (continues : ∀ action ∈ actions, ∀ force, action ≠ .init force)
    (ran : (line.context now settings).run workspace actions = .ok final) :
    ∃ after, Session line.workspace settings after ∧
      Holds line.workspace settings after final := by
  induction actions generalizing folder workspace with
  | nil =>
      obtain rfl := Except.ok.inj ran
      exact ⟨folder, session, holds⟩
  | cons action actions ih =>
      obtain ⟨first, others⟩ := List.forall_mem_cons.mp continues
      rw [Context.run, List.foldlM_cons] at ran
      obtain ⟨between, step, ran⟩ := bind_eq_ok.mp ran
      obtain ⟨done, performed, same⟩ := bind_eq_ok.mp step
      obtain rfl := Except.ok.inj same
      have stepHolds : Holds ({ line with action }).workspace settings folder workspace := holds
      obtain ⟨after, executed, holdsAfter⟩ :=
        stepHolds.execute_of_ok (readable folder action) first performed
      have next : Session line.workspace settings (folder.execute { line with action } now).1 :=
        session.continued rfl (readable folder action)
      rw [executed] at next
      exact ih next holdsAfter others ran

/-- A session that starts in an empty folder. -/
theorem of_actions {actions : List Action}
    (continues : ∀ action ∈ actions, ∀ force, action ≠ .init force)
    (ran : afterInit actions = .ok final) :
    ∃ folder, Session initLine.workspace {} folder ∧
      Holds initLine.workspace {} folder final := by
  obtain ⟨shown, succeeded⟩ := execute_initLine
  have session : Session initLine.workspace {} (execute .empty initLine .unixEpoch).1 :=
    .created rfl rfl rfl succeeded
  exact session.run (fun _ _ => rfl) (.of_init rfl rfl succeeded) continues ran

/-- At every point of a session the workspace can be loaded, and its query is shown exactly if the
ranges of all displaced criteria that are stored as checked are enabled.  It fails for nothing
else. -/
theorem query_iff (session : Session path settings folder) :
    ∃ (workspace : Workspace) (model : Instance) (gates : RangeGates),
      folder.read path = .ok workspace.print ∧
      Workspace.read? workspace.print = some workspace ∧
      workspace.store.requireInstance settings.names.editModel = .ok model ∧
      workspace.configuration.rangeGates = .ok gates ∧
      ∀ line now, line.action = .query → line.workspace = path →
        line.settingsIn (folder.found line) = some settings →
        ((∃ shown, (folder.execute line now).2 = .ok shown) ↔
          ∀ key ∈ FilterSet.checkedStates model.root, ∀ bound : RangeBound,
            bound.Displaced key → gates.opens bound) ∧
        ∀ error, (folder.execute line now).2 = .error error →
          ∃ key ∈ FilterSet.checkedStates model.root, ∃ bound : RangeBound,
            bound.Displaced key ∧ gates.opens bound = false ∧
              error = .failed (.filter (.rangeDisabled bound.browseName)) := by
  obtain ⟨workspace, holds⟩ := session.holds
  obtain ⟨model, gates, found, usable, starts⟩ := holds.ready.startup
  refine ⟨workspace, model, gates, holds.saved, holds.loads, found, usable, ?_⟩
  intro line now queries place readable
  subst place
  have continues : ∀ force, line.action ≠ .init force := fun force creates => by
    simp [queries] at creates
  obtain ⟨succeeds, fails⟩ := starts now .idle
  rw [← succeeds]
  cases started : (startupQuery now workspace.configuration workspace.store settings.names
      settings.lexicon .idle).2 with
  | ok result =>
      have ended : (line.context now settings).perform workspace line.action =
          .ok { workspace, shown := .query result.2 } := by
        rw [queries, Context.perform, Context.query, CommandLine.context, started]
        rfl
      obtain ⟨after, executed, _⟩ := holds.execute_of_ok readable continues ended
      rw [executed]
      exact ⟨by simp, by simp⟩
  | error error =>
      have ended : (line.context now settings).perform workspace line.action = .error error := by
        rw [queries, Context.perform, Context.query, CommandLine.context, started]
        rfl
      obtain ⟨key, checked, bound, displaced, closed, rfl⟩ := fails error started
      rw [holds.execute_of_error readable continues ended]
      refine ⟨by simp, ?_⟩
      rintro _ ⟨⟩
      exact ⟨key, checked, bound, displaced, closed, rfl⟩

end Session

/-- Shows a lower bound of the event time below the priority and checks it. -/
def displacing : List Action :=
  [.visibility Attribute.priority.browseName (some BrowseName.fromEventTime) true,
    .panel
      { checks := [⟨.priority, BrowseName.fromEventTime⟩], unchecks := [], fromTime := none
        toTime := none, fromSeverity := none, toSeverity := none }
      .apply]

def queryLine : CommandLine :=
  { initLine with action := .query }

/-- Whether the criterion is checked and all ranges are enabled. -/
def showsDisplaced (workspace : Workspace) : Bool :=
  (workspace.store.requireInstance (Settings.names {}).editModel).toOption.any fun model =>
    (FilterSet.checkedStates model.root).contains (.priority, BrowseName.fromEventTime) &&
      decide (workspace.configuration.rangeGates =
        .ok { eventTime := { lower := true, upper := true }, severity := true })

theorem query_iff_displacing :
    ∃ folder workspace model, Session initLine.workspace {} folder ∧
      folder.read initLine.workspace = .ok (Workspace.print workspace) ∧
      workspace.store.requireInstance (Settings.names {}).editModel = .ok model ∧
      (.priority, BrowseName.fromEventTime) ∈ FilterSet.checkedStates model.root ∧
      ∃ shown, (execute folder queryLine .unixEpoch).2 = .ok shown := by
  have shows : (afterInit displacing).toOption.any showsDisplaced = true := by decide +kernel
  generalize ran : afterInit displacing = result at shows
  cases result with
  | error error => exact absurd shows Bool.false_ne_true
  | ok final =>
      obtain ⟨folder, session, holds⟩ := Session.of_actions (by simp [displacing]) ran
      obtain ⟨workspace, model, gates, read, loads, found, usable, queries⟩ := session.query_iff
      rw [Except.ok.inj (read.symm.trans holds.saved), holds.loads] at loads
      obtain rfl := Option.some.inj loads
      simp only [Except.toOption, Option.any_some, showsDisplaced, found,
        Bool.and_eq_true, List.contains_iff_mem, decide_eq_true_eq] at shows
      obtain ⟨checked, opened⟩ := shows
      obtain rfl := Except.ok.inj (usable.symm.trans opened)
      refine ⟨folder, final, model, session, holds.saved, found, checked, ?_⟩
      refine (queries queryLine .unixEpoch rfl rfl rfl).1.mpr fun _ _ bound _ => ?_
      cases bound <;> rfl

/-- The same with the lower bound disabled below the event time. -/
def displacingDisabled : List Action :=
  displacing ++ [.visibility BrowseName.eventTime (some BrowseName.fromEventTime) false]

def queryError? (workspace : Workspace) : Option Error :=
  match (queryLine.context .unixEpoch {}).perform workspace queryLine.action with
  | .error error => some error
  | .ok _ => none

/-- Disabling the range does not hide the criterion below the priority. -/
theorem query_fails_displaced :
    ∃ folder, Session initLine.workspace {} folder ∧
      (execute folder queryLine .unixEpoch).2 =
        .error (.failed (.filter (.rangeDisabled BrowseName.fromEventTime))) := by
  have fails : (afterInit displacingDisabled).toOption.bind queryError? =
      some (.filter (.rangeDisabled BrowseName.fromEventTime)) := by decide +kernel
  generalize ran : afterInit displacingDisabled = result at fails
  cases result with
  | error error => cases fails
  | ok final =>
      obtain ⟨folder, session, holds⟩ :=
        Session.of_actions (by simp [displacingDisabled, displacing]) ran
      have readable : queryLine.settingsIn (found folder queryLine) = some {} := rfl
      rw [Except.toOption, Option.bind_some, queryError?] at fails
      split at fails
      · next error performed =>
          have onQuery : Holds queryLine.workspace {} folder final := holds
          refine ⟨folder, session, ?_⟩
          rw [onQuery.execute_of_error readable (by simp [queryLine]) performed,
            Option.some.inj fails]
      · cases fails

end Folder

end AlarmView
