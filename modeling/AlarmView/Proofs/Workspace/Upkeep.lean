import AlarmView.Proofs.Execution
import AlarmView.Proofs.Panel.Tracing
import AlarmView.Proofs.Query.Compilation
import AlarmView.Proofs.Workspace.Loading
import AlarmView.Proofs.Workspace.Nesting

/-!
# Workspaces through actions

After every action the edit model of a workspace is in line with its configuration, and no criterion
without a condition is stored or retained as checked.  An applied panel is saved only if its filters
can be compiled, so the conditions of the checked ones are not empty.
-/

namespace AlarmView

variable {configuration : Configuration} {store : Store} {names : EditModelNames}
  {lexicon : Lexicon} {panel changed : Panel}

namespace Panel

private theorem store_checkAll {checked : Bool} {references : List FilterReference}
    (edited : panel.checkAll checked references = .ok changed) : changed.store = panel.store := by
  induction references generalizing panel with
  | nil =>
      obtain rfl := Except.ok.inj edited
      rfl
  | cons reference references ih =>
      rw [checkAll, List.foldlM_cons] at edited
      obtain ⟨next, first, others⟩ := bind_eq_ok.mp edited
      obtain ⟨filters, _, first⟩ := bind_eq_ok.mp first
      obtain rfl := Except.ok.inj first
      have later := ih others
      exact later

private theorem store_edit {edits : PanelEdits} (edited : panel.edit edits = .ok changed) :
    changed.store = panel.store := by
  obtain ⟨checked, checks, edited⟩ := bind_eq_ok.mp edited
  obtain ⟨unchecked, unchecks, edited⟩ := bind_eq_ok.mp edited
  obtain rfl := Except.ok.inj edited
  exact (store_checkAll unchecks).trans (store_checkAll checks)

end Panel

/-- Whether a criterion has a condition, if only the limits of a range. -/
def Filter.HasCondition (lexicon : Lexicon) (attr : Attribute) (name : String) : Prop :=
  conditionOf lexicon attr name ≠ .fragment ""

private theorem Panel.Follows.hasCondition (follows : panel.Follows configuration names lexicon)
    {now : Instant} {applied : Panel} (accepted : panel.apply now = (applied, .ok ())) :
    ∀ filter ∈ panel.filters.filters, filter.checked →
      Filter.HasCondition lexicon filter.attr filter.name := by
  obtain ⟨_, _, query, _, _, compiled, _⟩ := apply_eq_ok accepted
  obtain ⟨gates, _, available, _⟩ := compile_eq_ok.mp compiled
  intro filter member checked empty
  have refused := available filter member checked
  simp [OpenRanges.refusal?, follows.made filter member, empty] at refused

/-- What holds of a workspace between actions. -/
structure Workspace.Ready (names : EditModelNames) (lexicon : Lexicon) (workspace : Workspace) :
    Prop where
  grown : workspace.configuration.Grown
  flat : workspace.configuration.Flat
  inLine : workspace.store.InLine workspace.configuration names
  traced : workspace.store.Traced (Filter.HasCondition lexicon)

namespace Workspace.Ready

theorem created {now : Instant} {after : Store} {report : ReconcileReport}
    (grown : configuration.Grown) (flat : configuration.Flat) (kept : store.Kept configuration)
    (traced : store.Traced (Filter.HasCondition lexicon))
    (creation : store.create now names configuration = (after, .ok report)) :
    Ready names lexicon ⟨configuration, after⟩ where
  grown := grown
  flat := flat
  inLine := .created kept grown.wellFormed creation
  traced := by
    have tracedAfter := Store.Traced.create traced grown.siblings now names
    rwa [creation] at tracedAfter

private theorem applied (grown : configuration.Grown) (flat : configuration.Flat)
    (fits : panel.Fits configuration names lexicon)
    (traced : panel.store.Traced (Filter.HasCondition lexicon)) {now : Instant} {applied : Panel}
    (accepted : panel.apply now = (applied, .ok ())) :
    Ready names lexicon ⟨configuration, applied.store⟩ := by
  have saved : applied.store = (panel.save now).1.store := by
    rw [← Panel.store_apply, accepted]
  rw [saved]
  exact {
    grown := grown
    flat := flat
    inLine := fits.save now
    traced := Store.Traced.save traced (fits.hasCondition accepted) now }

private theorem used {context : Context} {edits : PanelEdits} {use : PanelUse} {after : Panel}
    (ready : Ready context.names context.lexicon ⟨configuration, store⟩)
    (opened : context.openPanel ⟨configuration, store⟩ = .ok panel)
    (edited : panel.edit edits = .ok changed)
    (used : changed.use context.now use = (after, .ok ())) (saves : use.saves = true) :
    Ready context.names context.lexicon ⟨configuration, after.store⟩ := by
  have panelUsed := (Panel.Used.of_opened opened).edit edited
  have fits := panelUsed.fits ready.inLine.kept ready.grown
  obtain ⟨report, creation⟩ := Panel.store_of_opened (Prod.ext rfl opened)
  have traced : panel.store.Traced (Filter.HasCondition context.lexicon) :=
    (created ready.grown ready.flat ready.inLine.kept ready.traced creation).traced
  rw [← Panel.store_edit edited] at traced
  cases use with
  | filter | refresh => cases saves
  | apply => exact .applied ready.grown ready.flat fits traced used
  | clearAll =>
      have unchecked : changed.unchecked.Fits configuration context.names context.lexicon :=
        { toFollows := fits.unchecked, inLine := fits.inLine }
      exact .applied ready.grown ready.flat unchecked traced used

private theorem loads {workspace : Workspace} (ready : workspace.Ready names lexicon) :
    read? workspace.print = some workspace.readBack := by
  apply Workspace.read?_print
  apply Workspace.depth_le ready.flat
  constructor
  · exact fun key schema found => (ready.inLine.kept.schemas key schema found).shaped.regular
  · exact fun key model found => (ready.inLine.kept.models key model found).sound.shaped.regular

theorem readBack {workspace : Workspace} (ready : workspace.Ready names lexicon) :
    workspace.readBack.Ready names lexicon where
  grown := ready.grown
  flat := ready.flat
  inLine := ready.inLine.readBack
  traced := Store.Traced.readBack ready.traced

theorem reloads {workspace : Workspace} (ready : workspace.Ready names lexicon) :
    read? workspace.readBack.print = some workspace.readBack := by
  rw [print_readBack, ready.loads]

end Workspace.Ready

/-- Actions keep what holds of workspaces, and creating one needs nothing. -/
theorem Context.Ends.ready {context : Context} {workspace final : Workspace} {action : Action}
    (ends : context.Ends workspace action final)
    (ready : (∀ force, action ≠ .init force) → workspace.Ready context.names context.lexicon) :
    final.Ready context.names context.lexicon := by
  cases ends with
  | init creation =>
      exact .created Configuration.builtin_grown Configuration.builtin_flat (.empty .builtin) .empty
        creation
  | updated creation =>
      have before := ready fun _ => by simp
      exact .created before.grown before.flat before.inLine.kept before.traced creation
  | regenerated creation =>
      have before := ready fun _ => by simp
      exact .created before.grown before.flat (before.inLine.kept.delete context.names)
        (before.traced.delete context.names) creation
  | switched edited creation =>
      have before := ready fun _ => by simp
      have larger := Configuration.extends_setEnabled edited
      exact .created (before.grown.setEnabled edited) (before.flat.setEnabled edited)
        (before.inLine.kept.extend larger) before.traced creation
  | used opened edited used saves =>
      exact (ready fun _ => by simp).used opened edited used saves

/-- The workspace that is in the file after an action. -/
def Action.kept (action : Action) (workspace : Workspace) (done : Done) : Workspace :=
  if action.writes then done.workspace else workspace

theorem Workspace.Ready.perform {context : Context} {workspace : Workspace} {action : Action}
    {done : Done}
    (ready : workspace.Ready context.names context.lexicon)
    (performed : context.perform workspace action = .ok done) :
    (action.kept workspace done).Ready context.names context.lexicon := by
  rw [Action.kept]
  split
  · next writes => exact (Context.ends_of_perform writes performed).ready fun _ => ready
  · exact ready

/-- A new workspace. -/
def Workspace.initial (now : Instant) (names : EditModelNames) : Workspace where
  configuration := .builtin
  store := (Store.empty.create now names .builtin).1

theorem Workspace.Ready.initial (now : Instant) (names : EditModelNames) (lexicon : Lexicon) :
    (Workspace.initial now names).Ready names lexicon := by
  have kept := Store.Kept.empty .builtin
  obtain ⟨store, report, _, _, creation, _⟩ :=
    kept.create Configuration.builtin_wellFormed now names
  rw [Workspace.initial, creation]
  exact .created Configuration.builtin_grown Configuration.builtin_flat kept .empty creation

end AlarmView
