import AlarmView.Panel.Edits
import AlarmView.Proofs.Panel.Reopening
import AlarmView.Proofs.Query.Dependence

/-!
# What a panel publishes

An open panel hands a query on only when one of its uses succeeds.  At any time the grid and the
panel therefore show the query of the last use that did, compiled from what the panel showed then,
and the grid has executed as many queries as there were such uses.  The query does not depend on the
clock, because a panel has the pickers of all bounds that a query can use.
-/

namespace AlarmView

open BrowseName

variable {configuration : Configuration} {store : Store} {names : EditModelNames}
  {lexicon : Lexicon} {panel : Panel} {gates : RangeGates} {layout : Layout} {now : Instant}

private theorem Configuration.exists_of_enables {attr name : String}
    (enables : configuration.Enables attr name) :
    ∃ flag criterion, configuration.attribute? attr = some flag ∧ flag.enabled ∧
      flag.child? name = some criterion ∧ criterion.enabled := by
  obtain ⟨attributeOn, criterionOn⟩ := enables
  cases found : configuration.attribute? attr with
  | none => simp [attributeEnabled, found] at attributeOn
  | some flag =>
      cases below : flag.child? name with
      | none => simp [criterionEnabled, criterion?, found, below] at criterionOn
      | some criterion =>
          exact ⟨flag, criterion, rfl, by simpa [attributeEnabled, found] using attributeOn, below,
            by simpa [criterionEnabled, criterion?, found, below] using criterionOn⟩

namespace Layout

private theorem exists_of_mem_attributes (generated : generate lexicon configuration = .ok layout)
    {flag : Flag} (member : flag ∈ configuration.attributes) :
    ∃ accordion, accordion? lexicon configuration flag = .ok accordion ∧
      ∀ shown ∈ accordion, shown ∈ layout.accordions := by
  obtain ⟨accordions, accordionsOk, generated⟩ := bind_eq_ok.mp generated
  obtain rfl := Except.ok.inj generated
  obtain ⟨accordion, made, here⟩ :=
    exists_mem_of_forall₂ (forall₂_of_mapM accordionsOk).flip member
  exact ⟨accordion, here, fun shown own => List.mem_filterMap.mpr ⟨_, made, own⟩⟩

/-- A bound of the event time that is enabled has a row, whatever else bears its name. -/
theorem mem_keys_of_enables (generated : generate lexicon configuration = .ok layout)
    {name : String} (enables : configuration.Enables eventTime name)
    (free : isRangeValue name = false) : (.eventTime, name) ∈ layout.keys := by
  obtain ⟨flag, criterion, found, enabled, below, _⟩ := Configuration.exists_of_enables enables
  have flagNamed : flag.name = eventTime := by simpa using List.find?_some found
  have named : criterion.name = name := by simpa using List.find?_some below
  have listed : name ∈ enabledCriteria configuration flag := by
    have candidate : criterion ∈ candidates flag :=
      List.mem_filter.mpr ⟨List.mem_of_find?_eq_some below, by simp [named, free]⟩
    refine List.mem_filter.mpr ⟨List.mem_map.mpr ⟨criterion, candidate, named⟩, ?_⟩
    rw [flagNamed]
    exact enables.2
  obtain ⟨accordion, made, within⟩ :=
    exists_of_mem_attributes generated (List.mem_of_find?_eq_some found)
  have own : Attribute.ofBrowseName? eventTime = some .eventTime := by decide
  rw [accordion?, flagNamed, if_pos enables.1, own, controlsOf, if_pos flagNamed] at made
  obtain rfl := Except.ok.inj made
  refine List.mem_map.mpr ⟨(.eventTime, .dateTimeRow name (lexicon.localize name)), ?_, rfl⟩
  refine List.mem_flatMap.mpr ⟨_, within _ rfl, ?_⟩
  exact List.mem_map.mpr ⟨_, List.mem_map_of_mem listed, rfl⟩

end Layout

/-- Setting a picker leaves every picker in place. -/
theorem Controls.instant?_setInstant?_isSome {controls : Controls} {name other : String}
    (registered : (controls.instant? other).isSome) (value : Instant) :
    (((controls.setInstant? name value).getD controls).instant? other).isSome := by
  rwa [instant?_setInstant?, Option.isSome_map]

namespace Panel

/-- Whether the queries of a panel do not depend on the clock: a bound of the event time that can
be used has its picker. -/
structure Timed (panel : Panel) : Prop where
  usable : panel.configuration.rangeGates = .ok panel.gates
  lower : panel.gates.eventTime.lower → (panel.controls.instant? fromEventTime).isSome
  upper : panel.gates.eventTime.upper → (panel.controls.instant? toEventTime).isSome

private theorem instant?_loadPicker_isSome {model : Instance} {filters : FilterSet}
    {controls result : Controls} {enabled : Bool} {name value other : String}
    (accepted : loadPicker now model filters enabled name value controls = .ok result)
    (registered : (controls.instant? other).isSome) : (result.instant? other).isSome := by
  rw [loadPicker] at accepted
  split at accepted
  · obtain ⟨checked, _, accepted⟩ := bind_eq_ok.mp accepted
    cases checked with
    | true =>
        obtain ⟨shown, _, accepted⟩ := bind_eq_ok.mp accepted
        obtain rfl := Except.ok.inj accepted
        exact Controls.instant?_setInstant?_isSome registered shown
    | false =>
        obtain rfl := Except.ok.inj accepted
        exact Controls.instant?_setInstant?_isSome registered now
  · obtain rfl := Except.ok.inj accepted
    exact registered

/-- A panel opens with the pickers of all bounds that can be used. -/
theorem Timed.opened {current : CurrentQuery}
    (opened : (openOn now configuration store names lexicon current).2 = .ok panel) :
    panel.Timed := by
  obtain ⟨layout, _, gates, generated, _, usable, loading⟩ := openOn_eq_ok.mp (Prod.ext rfl opened)
  obtain ⟨_, _, lower, upper, controls, _, _, lowerRead, upperRead, limitsRead, rfl⟩ :=
    load_eq_ok.mp loading
  have registered (bound : RangeBound) (ofTime : bound.attr = .eventTime)
      (free : isRangeValue bound.browseName = false) (opens : gates.opens bound) :
      (controls.instant? bound.browseName).isSome := by
    have enables := (Configuration.opens_iff usable bound).mp opens
    rw [ofTime] at enables
    have picker := Controls.instant?_ofLayout generated
      (Layout.mem_keys_of_enables generated enables free) now
    rw [Controls.instant?, loadTextBoxes_pickers limitsRead]
    exact instant?_loadPicker_isSome upperRead (instant?_loadPicker_isSome lowerRead picker)
  exact {
    usable
    lower := registered .fromEventTime rfl (by decide)
    upper := registered .toEventTime rfl (by decide) }

/-- Whether a query is what the filters, the controls and the configuration of a panel compile to,
at whatever time. -/
def Compiles (panel : Panel) (query : Query) : Prop :=
  ∀ clock, compile panel.filters.filters (panel.controls.rangeInputs clock) panel.configuration =
    .ok query

private theorem Timed.agreeOn (timed : panel.Timed) {bound : RangeBound}
    (opened : panel.gates.opens bound) (now clock : Instant) :
    (panel.controls.rangeInputs now).AgreeOn (panel.controls.rangeInputs clock) bound := by
  cases bound with
  | fromEventTime =>
      obtain ⟨shown, known⟩ := Option.isSome_iff_exists.mp (timed.lower opened)
      simp only [RangeInputs.AgreeOn, Controls.rangeInputs, known, Option.getD_some]
  | toEventTime =>
      obtain ⟨shown, known⟩ := Option.isSome_iff_exists.mp (timed.upper opened)
      simp only [RangeInputs.AgreeOn, Controls.rangeInputs, known, Option.getD_some]
  | severity => exact ⟨rfl, rfl⟩

private theorem Timed.compiles (timed : panel.Timed) {query : Query}
    (compiled : compile panel.filters.filters (panel.controls.rangeInputs now)
      panel.configuration = .ok query) : panel.Compiles query := by
  intro clock
  apply compile_of_agree compiled
  intro gates usable _ _ _ bound _
  obtain rfl : gates = panel.gates := Except.ok.inj (usable.symm.trans timed.usable)
  apply RangeInputs.through_agreeOn
  exact fun opened => timed.agreeOn opened now clock

/-- The panel whose filters a use compiles: clearing unchecks them first. -/
def shownIn (panel : Panel) : PanelUse → Panel
  | .filter _ | .refresh | .apply => panel
  | .clearAll => panel.unchecked

@[simp]
theorem shownIn_query (panel : Panel) (use : PanelUse) :
    (panel.shownIn use).query = panel.query := by
  cases use <;> rfl

@[simp]
theorem shownIn_current (panel : Panel) (use : PanelUse) :
    (panel.shownIn use).current = panel.current := by
  cases use <;> rfl

theorem Timed.shownIn (timed : panel.Timed) (use : PanelUse) : (panel.shownIn use).Timed := by
  cases use with
  | filter | refresh | apply => exact timed
  | clearAll => exact { timed with }

/-- Whether a use has led from one panel to another: either it has published the query of what was
shown, or it has failed and published nothing. -/
inductive Leads (now : Instant) (shown : Panel) : Panel → Except Error Unit → Prop where
  | published {store : Store} {ranges : RangeInputs} {query : Query} :
      compile shown.filters.filters (shown.controls.rangeInputs now) shown.configuration =
        .ok query →
      Leads now shown
        { shown with
          store
          filters := { shown.filters with ranges }
          query
          current := shown.current.publish query } (.ok ())
  | failed {store : Store} {ranges : RangeInputs} {error : Error} :
      Leads now shown { shown with store, filters := { shown.filters with ranges } } (.error error)

/-- What a use publishes does not depend on the store. -/
theorem Leads.of_store {after : Panel} {result : Except Error Unit}
    (leads : Leads now { panel with store } after result) : Leads now panel after result := by
  cases leads with
  | published compiled => exact .published compiled
  | failed => exact .failed

theorem refresh_leads (now : Instant) (panel : Panel) :
    Leads now panel (panel.refresh now).1 (panel.refresh now).2 := by
  rw [refresh]
  dsimp only
  split
  · next compiled => exact .published compiled
  · exact .failed

private theorem apply_leads (now : Instant) (panel : Panel) :
    Leads now panel (panel.apply now).1 (panel.apply now).2 := by
  obtain ⟨store, saved⟩ : ∃ store, (panel.save now).1 = { panel with store } := by
    rw [save]
    split
    · exact ⟨panel.store, rfl⟩
    · exact ⟨_, rfl⟩
  rw [apply]
  split
  · next changed result =>
      obtain rfl : changed = { panel with store } := by rw [← saved, result]
      exact (refresh_leads now { panel with store }).of_store
  · next changed error result =>
      obtain rfl : changed = { panel with store } := by rw [← saved, result]
      exact .failed

theorem use_leads (now : Instant) (panel : Panel) (use : PanelUse) :
    Leads now (panel.shownIn use) (panel.use now use).1 (panel.use now use).2 := by
  cases use with
  | filter name => exact refresh_leads now panel
  | refresh => exact refresh_leads now panel
  | apply => exact apply_leads now panel
  | clearAll => exact apply_leads now panel.unchecked

end Panel

/-- What can be done with an open panel. -/
inductive PanelOperation where
  | check (attr : Attribute) (name : String) (checked : Bool)
  | pick (name : String) (value : Instant)
  | type (name text : String)
  | use (use : PanelUse)

namespace Panel

/-- The panel after an operation, and whether the operation has failed.  A limit for which the
panel has no control is passed over. -/
def perform (now : Instant) (panel : Panel) : PanelOperation → Panel × Except Error Unit
  | .check attr name checked =>
      match panel.setChecked attr name checked with
      | .ok changed => (changed, .ok ())
      | .error error => (panel, .error (.filter error))
  | .pick name value =>
      ({ panel with controls := enterInstant name (some value) panel.controls }, .ok ())
  | .type name text =>
      ({ panel with controls := enterText name (some text) panel.controls }, .ok ())
  | .use use => panel.use now use

/-- The panel after some operations, each at its time. -/
def run (panel : Panel) (operations : List (Instant × PanelOperation)) : Panel :=
  operations.foldl (fun panel (now, operation) => (panel.perform now operation).1) panel

/-- The panel whose filters an operation has compiled, if it is a use that has succeeded. -/
def published (now : Instant) (panel : Panel) (operation : PanelOperation) : Option Panel :=
  match operation, (panel.perform now operation).2 with
  | .use use, .ok () => some (panel.shownIn use)
  | _, _ => none

/-- The panels whose filters the successful uses among some operations have compiled. -/
def publications (panel : Panel) : List (Instant × PanelOperation) → List Panel
  | [] => []
  | (now, operation) :: rest =>
      (panel.published now operation).toList ++
        (panel.perform now operation).1.publications rest

/-- Whether a panel and its grid show the query of what was published last, or nothing yet. -/
def ShowsLast (panel : Panel) : Option Panel → Prop
  | none => panel.current.text = "" ∧ panel.query = .selectAll
  | some shown => shown.Compiles panel.query ∧ panel.current.text = panel.query.text

/-- What holds of an open panel, given what it has published. -/
structure Publishes (panel : Panel) (published : List Panel) : Prop where
  timed : panel.Timed
  executions : panel.current.executions = published.length
  last : panel.ShowsLast published.getLast?

private theorem ShowsLast.of_same {after : Panel} {last : Option Panel}
    (shows : panel.ShowsLast last)
    (query : after.query = panel.query) (current : after.current = panel.current) :
    after.ShowsLast last := by
  cases last with
  | none => exact ⟨by rw [current, shows.1], by rw [query, shows.2]⟩
  | some shown => exact ⟨by rw [query]; exact shows.1, by rw [current, query, shows.2]⟩

theorem setChecked_frame {attr : Attribute} {name : String} {checked : Bool} {changed : Panel}
    (accepted : panel.setChecked attr name checked = .ok changed) :
    ∃ filters, changed = { panel with filters } := by
  obtain ⟨filters, _, accepted⟩ := bind_eq_ok.mp accepted
  exact ⟨filters, (Except.ok.inj accepted).symm⟩

private theorem Timed.enter (timed : panel.Timed) {controls : Controls}
    (kept : ∀ name, (panel.controls.instant? name).isSome → (controls.instant? name).isSome) :
    { panel with controls }.Timed where
  usable := timed.usable
  lower on := kept _ (timed.lower on)
  upper on := kept _ (timed.upper on)

/-- An operation that does not publish leaves the query and the grid alone. -/
theorem perform_of_none {operation : PanelOperation} (timed : panel.Timed)
    (nothing : panel.published now operation = none) :
    (panel.perform now operation).1.Timed ∧
      (panel.perform now operation).1.query = panel.query ∧
      (panel.perform now operation).1.current = panel.current := by
  cases operation with
  | check attr name checked =>
      rw [perform]
      split
      · next changed accepted =>
          obtain ⟨filters, rfl⟩ := setChecked_frame accepted
          exact ⟨{ timed with }, rfl, rfl⟩
      · exact ⟨timed, rfl, rfl⟩
  | pick name value =>
      exact ⟨timed.enter fun _ known => Controls.instant?_setInstant?_isSome known value, rfl, rfl⟩
  | type name text =>
      refine ⟨timed.enter fun other known => ?_, rfl, rfl⟩
      rwa [Controls.instant?, enterText, Controls.setText?_pickers]
  | use use =>
      have leads := panel.use_leads now use
      simp only [published, perform] at nothing ⊢
      generalize (panel.use now use).1 = after, (panel.use now use).2 = result at leads nothing ⊢
      cases leads with
      | published compiled => cases nothing
      | failed =>
          have shownTimed := timed.shownIn use
          exact ⟨{ shownTimed with }, panel.shownIn_query use, panel.shownIn_current use⟩

/-- An operation that publishes hands on the query of the panel that it shows. -/
theorem perform_of_some {operation : PanelOperation} {shown : Panel} (timed : panel.Timed)
    (publishes : panel.published now operation = some shown) :
    (panel.perform now operation).1.Timed ∧
      shown.Compiles (panel.perform now operation).1.query ∧
      (panel.perform now operation).1.current =
        panel.current.publish (panel.perform now operation).1.query := by
  cases operation with
  | check | pick | type => cases publishes
  | use use =>
      have leads := panel.use_leads now use
      have shownTimed := timed.shownIn use
      simp only [published, perform] at publishes ⊢
      generalize (panel.use now use).1 = after, (panel.use now use).2 = result
        at leads publishes ⊢
      cases leads with
      | published compiled =>
          obtain rfl := Option.some.inj publishes
          refine ⟨{ shownTimed with }, shownTimed.compiles compiled, ?_⟩
          rw [shownIn_current]
      | failed => cases publishes

private theorem published_of_error {operation : PanelOperation} {error : Error}
    (failed : (panel.perform now operation).2 = .error error) :
    panel.published now operation = none := by
  simp only [published, failed]

private theorem Publishes.perform {before : List Panel} (publishes : panel.Publishes before)
    (now : Instant) (operation : PanelOperation) : (panel.perform now operation).1.Publishes
      (before ++ (panel.published now operation).toList) := by
  cases published : panel.published now operation with
  | none =>
      obtain ⟨timed, query, current⟩ := perform_of_none publishes.timed published
      rw [Option.toList_none, List.append_nil]
      exact ⟨timed, by rw [current, publishes.executions], publishes.last.of_same query current⟩
  | some shown =>
      obtain ⟨timed, compiles, current⟩ := perform_of_some publishes.timed published
      refine ⟨timed, ?_, ?_⟩
      · rw [current, CurrentQuery.publish, publishes.executions]
        simp
      · rw [Option.toList_some, List.getLast?_append_cons]
        exact ⟨compiles, by rw [current, CurrentQuery.publish]⟩

private theorem Publishes.run {before : List Panel} (publishes : panel.Publishes before)
    (operations : List (Instant × PanelOperation)) :
    (panel.run operations).Publishes (before ++ panel.publications operations) := by
  induction operations generalizing panel before with
  | nil =>
      rw [publications, List.append_nil]
      exact publishes
  | cons entry rest ih =>
      obtain ⟨now, operation⟩ := entry
      have after := ih (publishes.perform now operation)
      rwa [List.append_assoc] at after

theorem Publishes.opened
    (opened : (openOn now configuration store names lexicon .idle).2 = .ok panel) :
    panel.Publishes [] := by
  have timed := Timed.opened opened
  obtain ⟨_, _, _, _, _, _, loading⟩ := openOn_eq_ok.mp (Prod.ext rfl opened)
  obtain ⟨_, _, _, _, _, _, _, _, _, _, rfl⟩ := load_eq_ok.mp loading
  exact ⟨timed, rfl, rfl, rfl⟩

/-- After any operations on a panel its grid has executed one query for each use that has
succeeded.  Panel and grid show the query of the last of them, compiled from the filters, the
controls and the configuration that it found, or the query without conditions and an empty text
when there is none.  Operations that fail change neither. -/
theorem publishes_last
    (opened : (openOn now configuration store names lexicon .idle).2 = .ok panel)
    (operations : List (Instant × PanelOperation)) :
    let final := panel.run operations
    let published := panel.publications operations
    final.current.executions = published.length ∧
      (match published.getLast? with
      | none => final.current.text = "" ∧ final.query.text = Query.baseText
      | some shown =>
          shown.Compiles final.query ∧ final.current.text = final.query.text) ∧
      ∀ later operation error, (final.perform later operation).2 = .error error →
        (final.perform later operation).1.current = final.current ∧
          (final.perform later operation).1.query = final.query := by
  intro final published
  have publishes : final.Publishes published := (Publishes.opened opened).run operations
  refine ⟨publishes.executions, ?_, ?_⟩
  · have last := publishes.last
    generalize published.getLast? = shown at last ⊢
    cases shown with
    | none => exact ⟨last.1, by rw [last.2]; rfl⟩
    | some shown => exact last
  · intro later operation error failed
    obtain ⟨_, query, current⟩ := perform_of_none publishes.timed (published_of_error failed)
    exact ⟨current, query⟩

end Panel

/-- A configuration that hides the event time but shows a criterion with the name of its lower
bound. -/
def Configuration.withStrayBound : Configuration where
  attributes :=
    [.ofChildren "EventTime" false ["FromEventTime", "ToEventTime"],
      .ofChildren "Severity" true ["Severity"],
      .ofChildren "Priority" true ["Urgent", "FromEventTime"]]

namespace Panel

/-- Operations that publish once and then check a filter that cannot be compiled. -/
def strayBoundChecked : List (Instant × PanelOperation) :=
  [(.unixEpoch, .check .priority "Urgent" true), (.unixEpoch, .use .refresh),
    (.unixEpoch, .check .priority "FromEventTime" true)]

/-- Whether these operations publish once, so that applying the panel then fails. -/
def refusesStrayBound (panel : Panel) : Bool :=
  (panel.publications strayBoundChecked).length == 1 &&
    ((panel.run strayBoundChecked).perform .unixEpoch (.use .apply)).2.toOption.isNone

theorem publishes_last_strayBound :
    ∃ panel shown,
      (openOn .unixEpoch .withStrayBound .empty { editModel := "Panel", widget := "Grid" } .empty
          .idle).2 = .ok panel ∧
        panel.publications strayBoundChecked = [shown] ∧
        let final := panel.run strayBoundChecked
        shown.Compiles final.query ∧
          final.current = { text := final.query.text, executions := 1 } ∧
          ∃ error, (final.perform .unixEpoch (.use .apply)).2 = .error error ∧
            (final.perform .unixEpoch (.use .apply)).1.current = final.current := by
  have refused : (openOn .unixEpoch .withStrayBound .empty
      { editModel := "Panel", widget := "Grid" } .empty .idle).2.toOption.any
        refusesStrayBound = true := by decide +kernel
  generalize opened : (openOn .unixEpoch .withStrayBound .empty
    { editModel := "Panel", widget := "Grid" } .empty .idle).2 = result at refused
  cases result with
  | error error => exact absurd refused Bool.false_ne_true
  | ok panel =>
      obtain ⟨once, fails⟩ := Bool.and_eq_true_iff.mp refused
      obtain ⟨shown, alone⟩ := List.length_eq_one_iff.mp (beq_iff_eq.mp once)
      obtain ⟨executions, last, failing⟩ := publishes_last opened strayBoundChecked
      rw [alone] at executions last
      obtain ⟨compiles, text⟩ := last
      refine ⟨panel, shown, rfl, alone, compiles, ?_, ?_⟩
      · rw [← text, ← List.length_singleton (a := shown), ← executions]
      · cases failed : ((panel.run strayBoundChecked).perform .unixEpoch (.use .apply)).2 with
        | ok _ => simp [failed, Except.toOption] at fails
        | error error => exact ⟨error, rfl, (failing _ _ error failed).1⟩

end Panel

end AlarmView
