import AlarmView.Proofs.EditModel.Readers
import AlarmView.Proofs.Panel.Publication

/-!
# What a panel owns

A panel owns the leaves of its controls and of the enabled ranges in the instance of its edit model.
Only applying and clearing it change its store, and they change nothing but these leaves.  They are
saved in a fixed order, each if it is declared with the type of its value; the first one that is not
ends the saving and the use.  The limits that are compiled are the ones that have been saved.
-/

namespace AlarmView

open BrowseName Property

def Store.HasInstance (editModel : String) (store : Store) : Prop :=
  ∃ model, store.instances.get? editModel = some model

/-- Whether a store differs from an earlier one in one instance only. -/
structure Store.ChangedAt (before : Store) (editModel : String) (model changed : Instance)
    (after : Store) : Prop where
  types : after.types = before.types
  model : before.instances.get? editModel = some model
  changed : after.instances.get? editModel = some changed
  others : ∀ other, other ≠ editModel →
    after.instances.get? other = before.instances.get? other

theorem Store.changedAt_putInstance {store : Store} {editModel : String} {model : Instance}
    (found : store.instances.get? editModel = some model) (changed : Instance) :
    store.ChangedAt editModel model changed (store.putInstance editModel changed) where
  types := rfl
  model := found
  changed := requireInstance_eq_ok.mp (requireInstance_putInstance ..)
  others other different := by
    rw [putInstance, Table.get?_insert, if_neg different]

variable {configuration : Configuration} {store : Store} {names : EditModelNames}
  {lexicon : Lexicon} {panel : Panel} {now : Instant}

namespace Panel

/-- The values that a panel shows for the leaves that it owns. -/
inductive Owns (panel : Panel) : (place : String × String) → PropertyValue → Prop where
  | control {filter : Filter} :
      filter ∈ panel.filters.filters →
      panel.Owns (filter.attr.browseName, filter.name) (.boolean filter.checked)
  | lower {value : Instant} :
      panel.gates.eventTime.lower = true → panel.controls.instant? fromEventTime = some value →
      panel.Owns (eventTime, fromEventTimeValue) (.dateTime value)
  | upper {value : Instant} :
      panel.gates.eventTime.upper = true → panel.controls.instant? toEventTime = some value →
      panel.Owns (eventTime, toEventTimeValue) (.dateTime value)
  | severity {name : String} :
      panel.gates.severity = true → name ∈ [fromSeverity, toSeverity] →
      panel.Owns (BrowseName.severity, name) (.uint16 (panel.controls.severity name))

/-- A panel saves what it owns, and nothing else.  The pickers of the enabled bounds are there, so
it never saves the time instead. -/
theorem Timed.owns_iff (timed : panel.Timed) (now : Instant) {place : String × String}
    {value : PropertyValue} :
    panel.Owns place value ↔
      ∃ write ∈ panel.writes now, write.place = place ∧ write.value = value := by
  constructor
  · intro owned
    cases owned with
    | control listed => exact ⟨_, mem_writes_of_filter listed now, rfl, rfl⟩
    | lower enabled shown =>
        refine ⟨_, mem_writes.mpr (.inr (.inl ⟨enabled, rfl⟩)), rfl, ?_⟩
        rw [shown, Option.getD_some]
    | upper enabled shown =>
        refine ⟨_, mem_writes.mpr (.inr (.inr (.inl ⟨enabled, rfl⟩))), rfl, ?_⟩
        rw [shown, Option.getD_some]
    | severity enabled listed =>
        exact ⟨_, mem_writes.mpr (.inr (.inr (.inr ⟨enabled, _, listed, rfl⟩))), rfl, rfl⟩
  · intro given
    obtain ⟨write, member, rfl, rfl⟩ := given
    rcases mem_writes.mp member with checked | lower | upper | limit
    · obtain ⟨filter, listed, rfl⟩ := checked
      exact .control listed
    · obtain ⟨enabled, rfl⟩ := lower
      obtain ⟨value, shown⟩ := Option.isSome_iff_exists.mp (timed.lower enabled)
      rw [shown, Option.getD_some]
      exact .lower enabled shown
    · obtain ⟨enabled, rfl⟩ := upper
      obtain ⟨value, shown⟩ := Option.isSome_iff_exists.mp (timed.upper enabled)
      rw [shown, Option.getD_some]
      exact .upper enabled shown
    · obtain ⟨enabled, name, listed, rfl⟩ := limit
      exact .severity enabled listed

/-- The limits of an enabled range are the ones that were saved. -/
theorem agreeOn_limits {changed : Instance}
    (saved : ∀ write ∈ panel.writes now,
      changed.stored? write.attr write.name = some write.value)
    {bound : RangeBound} (opened : panel.gates.opens bound) (default : RangeInputs) :
    (panel.controls.rangeInputs now).AgreeOn (changed.limits default) bound := by
  cases bound with
  | fromEventTime =>
      have stored := saved _ (mem_writes.mpr (.inr (.inl ⟨opened, rfl⟩)))
      simp only [RangeInputs.AgreeOn, Instance.limits, Instance.instant_eq_ok.mpr stored]
      rfl
  | toEventTime =>
      have stored := saved _ (mem_writes.mpr (.inr (.inr (.inl ⟨opened, rfl⟩))))
      simp only [RangeInputs.AgreeOn, Instance.limits, Instance.instant_eq_ok.mpr stored]
      rfl
  | severity =>
      have stored (name : String) (listed : name ∈ [fromSeverity, toSeverity]) :=
        saved _ (mem_writes.mpr (.inr (.inr (.inr ⟨opened, name, listed, rfl⟩))))
      have least := Instance.number_eq_ok.mpr (stored fromSeverity (by simp))
      have greatest := Instance.number_eq_ok.mpr (stored toSeverity (by simp))
      simp only [RangeInputs.AgreeOn, Instance.limits, least, greatest]
      exact ⟨rfl, rfl⟩

private theorem use_of_saves {use : PanelUse} (saves : use.saves = true) (now : Instant)
    (panel : Panel) : panel.use now use = (panel.shownIn use).apply now := by
  cases use with
  | filter | refresh => cases saves
  | apply | clearAll => rfl

/-- What applying a panel does.  Some of the values that it owns come into the instance of its edit
model, in their order and up to the first that is not accepted, and applying fails because of the
edit model exactly if any is left.  The query that is published has the limits that the instance now
holds. -/
structure SavesOwned (configuration : Configuration) (names : EditModelNames) (now : Instant)
    (panel applied : Panel) (result : Except Error Unit) (model changed : Instance)
    (saved left : List Write) : Prop where
  store : panel.store.ChangedAt names.editModel model changed applied.store
  values : model.ChangedBy saved changed
  order : panel.writes now = saved ++ left
  owned : ∀ place value,
    panel.Owns place value ↔ ∃ write ∈ saved ++ left, write.place = place ∧ write.value = value
  accepted : ∀ write ∈ saved, model.Accepts write
  refused : ∀ write ∈ left.head?, ¬ model.Accepts write
  fails : left ≠ [] ↔ ∃ error, result = .error (.editModel error)
  published : result = .ok () →
    applied.current = panel.current.publish applied.query ∧
      ∀ default, compile panel.filters.filters (changed.limits default) configuration =
        .ok applied.query

variable {model : Instance}

theorem save_eq (found : panel.store.instances.get? panel.editModel = some model) (now : Instant) :
    panel.save now =
      ({ panel with
          store := panel.store.putInstance panel.editModel (model.writeAll (panel.writes now)).1 },
        (model.writeAll (panel.writes now)).2.mapError .editModel) := by
  rw [save, Store.requireInstance_eq_ok.mpr found]

private theorem apply_of_refused {error : Error} (refused : (panel.save now).2 = .error error) :
    (panel.apply now).2 = .error error := by
  rw [apply]
  split
  · next saved result => simp [result] at refused
  · next saved other result => rwa [result] at refused

/-- What a panel publishes when it is applied is compiled with the limits that it has saved. -/
theorem Follows.publishes_saved (follows : panel.Follows configuration names lexicon)
    (siblings : configuration.Distinct)
    (found : panel.store.instances.get? names.editModel = some model) {applied : Panel}
    (accepted : panel.apply now = (applied, .ok ())) :
    applied.current = panel.current.publish applied.query ∧
      ∀ default, compile panel.filters.filters
          ((model.writeAll (panel.writes now)).1.limits default) configuration =
        .ok applied.query := by
  obtain ⟨other, changed, query, otherFound, written, compiled, rfl⟩ := apply_eq_ok accepted
  rw [follows.sameModel] at otherFound
  obtain rfl : model = other :=
    Option.some.inj (found.symm.trans (Store.requireInstance_eq_ok.mp otherFound))
  rw [follows.sameConfiguration] at compiled
  rw [written]
  refine ⟨rfl, fun default => compile_of_agree compiled ?_⟩
  intro gates usable filter _ _ bound _
  obtain rfl : gates = panel.gates := Except.ok.inj (usable.symm.trans follows.usable)
  apply RangeInputs.through_agreeOn
  intro opened
  have stored (write : Write) (member : write ∈ panel.writes now) :
      changed.stored? write.attr write.name = some write.value :=
    Instance.stored?_writeAll (distinct_writes follows.keys siblings now) written member
  exact agreeOn_limits stored opened default

private theorem Follows.apply_savesOwned (follows : panel.Follows configuration names lexicon)
    (siblings : configuration.Distinct) (timed : panel.Timed)
    (found : panel.store.instances.get? names.editModel = some model) (now : Instant) :
    ∃ changed saved left,
      SavesOwned configuration names now panel (panel.apply now).1 (panel.apply now).2 model changed
        saved left ∧
      (left = [] ↔ (panel.save now).2 = .ok ()) := by
  obtain ⟨saved, left, order, accepted, refused, written, finished⟩ :=
    model.writeAll_split (panel.writes now)
  have distinct := distinct_writes follows.keys siblings now
  rw [order, List.map_append] at distinct
  have saving := save_eq (follows.sameModel ▸ found) now
  have done : left = [] ↔ (panel.save now).2 = .ok () := by
    rw [finished, saving]
    cases (model.writeAll (panel.writes now)).2 <;> simp [Except.mapError]
  refine ⟨(model.writeAll (panel.writes now)).1, saved, left, ?_, done⟩
  refine { store := ?_, values := ?_, order, owned := ?_, accepted, refused, fails := ?_,
           published := fun ok => follows.publishes_saved siblings found (Prod.ext rfl ok) }
  · rw [store_apply, saving, follows.sameModel]
    exact Store.changedAt_putInstance found _
  · exact Instance.changedBy_writeAll distinct.of_append_left written
  · intro place value
    rw [timed.owns_iff now, order]
  · constructor
    · intro unfinished
      cases ended : (model.writeAll (panel.writes now)).2 with
      | ok _ => exact absurd (finished.mpr ended) unfinished
      | error error => exact ⟨error, apply_of_refused (by rw [saving, ended]; rfl)⟩
    · intro failed nothing
      obtain ⟨error, failed⟩ := failed
      exact apply_ne_editModel (done.mp nothing) error failed

end Panel

def PanelOperation.saves : PanelOperation → Bool
  | use operation => operation.saves
  | check .. | pick .. | type .. => false

namespace Panel

private theorem store_perform {operation : PanelOperation} (reads : operation.saves = false)
    (now : Instant) (panel : Panel) : (panel.perform now operation).1.store = panel.store := by
  cases operation with
  | check attr name checked =>
      rw [perform]
      split
      · next changed accepted =>
          obtain ⟨filters, rfl⟩ := setChecked_frame accepted
          rfl
      · rfl
  | pick name value => rfl
  | type name text => rfl
  | use use =>
      cases use with
      | filter | refresh => exact store_refresh now panel
      | apply | clearAll => cases reads

private theorem Timed.perform (timed : panel.Timed) (now : Instant) (operation : PanelOperation) :
    (panel.perform now operation).1.Timed := by
  cases published : panel.published now operation with
  | none => exact (perform_of_none timed published).1
  | some shown => exact (perform_of_some timed published).1

private theorem Used.perform (used : panel.Used configuration store names lexicon) (now : Instant)
    (operation : PanelOperation) :
    (panel.perform now operation).1.Used configuration store names lexicon := by
  cases operation with
  | check attr name checked =>
      rw [Panel.perform]
      split
      · next changed accepted => exact used.checked accepted
      · exact used
  | pick name value => exact used.enterInstant name (some value)
  | type name text => exact used.enterText name (some text)
  | use use =>
      cases use with
      | filter | refresh => exact used.refreshed now
      | apply => exact used.applied now
      | clearAll => exact used.cleared now

/-- What every operation keeps holds after some operations. -/
theorem run_of_perform {holds : Panel → Prop} (start : holds panel)
    (step : ∀ panel : Panel, holds panel → ∀ now operation, holds (panel.perform now operation).1)
    (operations : List (Instant × PanelOperation)) : holds (panel.run operations) := by
  induction operations generalizing panel with
  | nil => exact start
  | cons entry rest ih => exact ih (step panel start entry.1 entry.2)

/-- An open panel has an instance for its edit model. -/
theorem Used.hasInstance (used : panel.Used configuration store names lexicon)
    (siblings : configuration.Distinct) : panel.store.HasInstance names.editModel := by
  apply used.of_store siblings
  · intro now after report creation
    rcases store.create_cases names now configuration with ⟨_, _, _, created⟩ | ⟨_, _, created⟩
    · obtain ⟨rfl, _⟩ := Prod.mk.inj (created.symm.trans creation)
      exact ⟨_, Store.instances_put ..⟩
    · exact absurd (Prod.mk.inj (created.symm.trans creation)).2 (by simp)
  · intro panel follows now given
    obtain ⟨model, found⟩ := given
    rw [save_eq (follows.sameModel ▸ found), follows.sameModel]
    exact ⟨_, (Store.changedAt_putInstance found _).changed⟩

/-- Whatever has been done with a panel, its store changes only when it is applied or cleared, and
then only the leaves that the panel owns come to hold what it shows.  In a store that operations have
made none of them is left out.  In any other store the first one whose declared type is not that of
its value ends the saving. -/
theorem changes_owned {current : CurrentQuery} (siblings : configuration.Distinct)
    (opened : (openOn now configuration store names lexicon current).2 = .ok panel)
    (operations : List (Instant × PanelOperation)) (later : Instant) :
    let before := panel.run operations
    before.Follows configuration names lexicon ∧ before.Timed ∧
      (∀ operation, operation.saves = false →
        (before.perform later operation).1.store = before.store) ∧
      ∀ use, use.saves = true →
        let shown := before.shownIn use
        let after := before.use later use
        ∃ model changed saved left,
          SavesOwned configuration names later shown after.1 after.2 model changed saved left ∧
            (store.Attained → left = []) := by
  intro before
  have used : before.Used configuration store names lexicon :=
    run_of_perform (.of_opened opened) (fun _ used now operation => used.perform now operation)
      operations
  have timed : before.Timed :=
    run_of_perform (Timed.opened opened) (fun _ timed now operation => timed.perform now operation)
      operations
  have follows := used.follows siblings
  refine ⟨follows, timed, fun operation reads => store_perform reads later before, ?_⟩
  intro use saves shown after
  obtain ⟨model, found⟩ := used.hasInstance siblings
  have shownStore : shown.store = before.store := by cases use <;> rfl
  have shownFollows : shown.Follows configuration names lexicon := by
    cases use with
    | filter | refresh | apply => exact follows
    | clearAll => exact follows.unchecked
  obtain ⟨changed, saved, left, owned, finished⟩ :=
    shownFollows.apply_savesOwned siblings (timed.shownIn use) (shownStore ▸ found) later
  rw [← use_of_saves saves] at owned
  refine ⟨model, changed, saved, left, owned, fun attained => finished.mpr ?_⟩
  have serves := used.serves attained.typed siblings
  exact (shownFollows.saved siblings (shownStore ▸ serves) later).1

/-- Operations that check the severity and enter its limits, the upper one out of range. -/
def severityEntered : List (Instant × PanelOperation) :=
  [(.unixEpoch, .check .severity BrowseName.severity true),
    (.unixEpoch, .type fromSeverity " 250 "), (.unixEpoch, .type toSeverity "70000")]

/-- Whether applying a panel then publishes and saves the default of the upper limit. -/
def savesDefaultSeverity (panel : Panel) : Bool :=
  let before := panel.run severityEntered
  (before.use .unixEpoch .apply).2.toOption.isSome && before.gates.severity &&
    before.controls.severity toSeverity == RangeInputs.defaultToSeverity

theorem changes_owned_severityEntered :
    let names : EditModelNames := { editModel := "Panel", widget := "Grid" }
    ∃ panel, (openOn .unixEpoch .builtin .empty names .empty .idle).2 = .ok panel ∧
      let before := panel.run severityEntered
      let after := before.use .unixEpoch .apply
      after.2 = .ok () ∧ ∃ model changed saved,
        SavesOwned .builtin names .unixEpoch before after.1 after.2 model changed saved [] ∧
          ∃ write ∈ saved, write.place = (BrowseName.severity, toSeverity) ∧
            write.value = .uint16 RangeInputs.defaultToSeverity := by
  intro names
  have applies : (openOn .unixEpoch .builtin .empty names .empty .idle).2.toOption.any
      savesDefaultSeverity = true := by decide +kernel
  generalize opened : (openOn .unixEpoch .builtin .empty names .empty .idle).2 = result at applies
  cases result with
  | error error => exact absurd applies Bool.false_ne_true
  | ok panel =>
      obtain ⟨both, limit⟩ := Bool.and_eq_true_iff.mp applies
      obtain ⟨publishes, enabled⟩ := Bool.and_eq_true_iff.mp both
      obtain ⟨_, _, _, uses⟩ := changes_owned Configuration.builtin_grown.siblings opened
        severityEntered .unixEpoch
      obtain ⟨model, changed, saved, left, owned, finished⟩ := uses .apply rfl
      obtain rfl := finished .empty
      obtain ⟨write, member, place, value⟩ :=
        (owned.owned (BrowseName.severity, toSeverity) _).mp (.severity enabled (by simp))
      have default : ((panel.run severityEntered).shownIn .apply).controls.severity toSeverity =
          RangeInputs.defaultToSeverity := beq_iff_eq.mp limit
      rw [default] at value
      rw [List.append_nil] at member
      refine ⟨panel, rfl, ?_, model, changed, saved, owned, write, member, place, value⟩
      cases ended : ((panel.run severityEntered).use .unixEpoch .apply).2 with
      | ok _ => rfl
      | error error => simp [ended, Except.toOption] at publishes

end Panel

def Configuration.withUrgentAndHigh : Configuration where
  attributes :=
    [.ofChildren "EventTime" true ["FromEventTime", "ToEventTime"],
      .ofChildren "Severity" true ["Severity"],
      .ofChildren "Priority" true ["Urgent", "High"]]

/-- A store whose schema declares a checked state as a number. -/
def Store.withNumericUrgent (names : EditModelNames) : Store where
  types :=
    let urgent : Property :=
      { name := "Urgent", type := .uint16, value := some (.boolean false), children := [] }
    let priority : Property := { Property.object "Priority" with children := [urgent] }
    .ofList [(names.typeName, { Property.object names.typeName with children := [priority] })]
  instances := .empty

namespace Panel

def highChecked : List (Instant × PanelOperation) :=
  [(.unixEpoch, .check .priority "High" true)]

/-- Whether an instance does not hold the checked state of some filter of a panel. -/
def differsFrom (panel : Panel) (model : Instance) : Bool :=
  panel.filters.filters.any fun filter =>
    model.stored? filter.attr.browseName filter.name != some (.boolean filter.checked)

/-- Whether applying a panel does not save the checked states of all its filters. -/
def leavesUnsaved (names : EditModelNames) (panel : Panel) : Bool :=
  let before := panel.run highChecked
  ((before.use .unixEpoch .apply).1.store.instances.get? names.editModel).any before.differsFrom

/-- The state of the first criterion is not saved because it is declared as a number, and then that
of the second one is not saved either. -/
theorem not_saved_numericUrgent :
    let names : EditModelNames := { editModel := "Panel", widget := "Grid" }
    let configuration : Configuration := .withUrgentAndHigh
    configuration.Distinct ∧ (∃ gates, configuration.rangeGates = .ok gates) ∧
      ∃ panel,
        (openOn .unixEpoch configuration (.withNumericUrgent names) names .empty .idle).2 =
            .ok panel ∧
          let before := panel.run highChecked
          ∃ filter ∈ before.filters.filters, ∃ model,
            (before.use .unixEpoch .apply).1.store.instances.get? names.editModel = some model ∧
              model.stored? filter.attr.browseName filter.name ≠ some (.boolean filter.checked) := by
  intro names configuration
  have siblings : configuration.Distinct := by decide +kernel
  have unsaved : (openOn .unixEpoch configuration (.withNumericUrgent names) names .empty
      .idle).2.toOption.any (leavesUnsaved names) = true := by decide +kernel
  refine ⟨siblings, ⟨_, rfl⟩, ?_⟩
  generalize opened : (openOn .unixEpoch configuration (.withNumericUrgent names) names .empty
    .idle).2 = result at unsaved
  cases result with
  | error error => exact absurd unsaved Bool.false_ne_true
  | ok panel =>
      have here : leavesUnsaved names panel = true := unsaved
      obtain ⟨model, found, differs⟩ := (Option.any_eq_true _ _).mp here
      obtain ⟨filter, listed, other⟩ := List.any_eq_true.mp differs
      exact ⟨panel, rfl, filter, listed, model, found, by simpa using other⟩

end Panel

end AlarmView
