import AlarmView.Panel.Edits
import AlarmView.Proofs.Panel.Saving

/-!
# Sessions

A session edits a configuration, creates edit models and opens panels, which are edited and used in
any order.  Through all of it the store stays as its configurations have shaped it, and an open
panel keeps one filter for each control of its configuration.
-/

namespace AlarmView

open BrowseName Property

/-- What holds of an open panel, whatever its store is like. -/
structure Panel.Follows (configuration : Configuration) (names : EditModelNames)
    (lexicon : Lexicon) (panel : Panel) : Prop where
  sameConfiguration : panel.configuration = configuration
  usable : configuration.rangeGates = .ok panel.gates
  sameModel : panel.editModel = names.editModel
  keys : panel.keys = configuration.controlKeys
  made : ∀ filter ∈ panel.filters.filters,
    filter.condition = Filter.conditionOf lexicon filter.attr filter.name

variable {configuration : Configuration} {names : EditModelNames} {lexicon : Lexicon}
  {panel : Panel}

namespace Panel

theorem keys_filtersOf (lexicon : Lexicon) (layout : Layout) :
    (filtersOf lexicon layout).map (fun filter => (filter.attr, filter.name)) = layout.keys := by
  rw [filtersOf, Layout.keys, List.map_map]
  rfl

theorem filters_loadFilters {model : Instance} {filters loaded : List Filter}
    (accepted : loadFilters model filters = .ok loaded) :
    List.Forall₂ (fun filter result => ∃ checked, result = { filter with checked }) filters
      loaded := by
  apply (forall₂_of_mapM accepted).imp
  intro filter result read
  obtain ⟨checked, _, read⟩ := bind_eq_ok.mp read
  exact ⟨checked, (Except.ok.inj read).symm⟩

theorem keys_of_checked {filters others : List Filter}
    (same : List.Forall₂ (fun filter other => ∃ checked, other = { filter with checked }) filters
      others) :
    others.map (fun filter => (filter.attr, filter.name)) =
      filters.map fun filter => (filter.attr, filter.name) := by
  induction same with
  | nil => rfl
  | cons head _ ih =>
      obtain ⟨checked, rfl⟩ := head
      rw [List.map_cons, List.map_cons, ih]

theorem made_of_checked {filters others : List Filter}
    (same : List.Forall₂ (fun filter other => ∃ checked, other = { filter with checked }) filters
      others)
    (made : ∀ filter ∈ filters,
      filter.condition = Filter.conditionOf lexicon filter.attr filter.name) :
    ∀ filter ∈ others, filter.condition = Filter.conditionOf lexicon filter.attr filter.name := by
  induction same with
  | nil => exact made
  | cons head _ ih =>
      obtain ⟨checked, rfl⟩ := head
      obtain ⟨first, rest⟩ := List.forall_mem_cons.mp made
      exact List.forall_mem_cons.mpr ⟨first, ih rest⟩

theorem load_eq_ok {now : Instant} {gates : RangeGates} {store : Store} {editModel : String}
    {layout : Layout} {current : CurrentQuery} :
    load now configuration gates store editModel lexicon layout current = .ok panel ↔
      ∃ model loaded lower upper controls,
        store.requireInstance editModel = .ok model ∧
        loadFilters model (filtersOf lexicon layout) = .ok loaded ∧
        let filters : FilterSet := { filters := loaded, ranges := .initialAt now }
        loadPicker now model filters gates.eventTime.lower fromEventTime fromEventTimeValue
          (.ofLayout now layout) = .ok lower ∧
        loadPicker now model filters gates.eventTime.upper toEventTime toEventTimeValue lower =
          .ok upper ∧
        loadTextBoxes model filters gates.severity upper = .ok controls ∧
        panel =
          { configuration, gates, store, editModel, filters, controls, current,
            layout := layout.expand filters.activeAttributes, query := .selectAll } := by
  simp only [load, bind_eq_ok, mapError_eq_ok, pure, Except.pure, Except.ok.injEq]
  constructor
  · intro given
    obtain ⟨model, found, loaded, read, lower, lowerRead, upper, upperRead, controls, shown, rfl⟩ :=
      given
    exact ⟨model, loaded, lower, upper, controls, found, read, lowerRead, upperRead, shown, rfl⟩
  · intro given
    obtain ⟨model, loaded, lower, upper, controls, found, read, lowerRead, upperRead, shown, rfl⟩ :=
      given
    exact ⟨model, found, loaded, read, lower, lowerRead, upper, upperRead, controls, shown, rfl⟩

/-- A panel opens if the layout can be made, the edit model can be created and its values can be
loaded. -/
theorem openOn_eq_ok {now : Instant} {store after : Store} {current : CurrentQuery} :
    openOn now configuration store names lexicon current = (after, .ok panel) ↔
      ∃ layout report gates, Layout.generate lexicon configuration = .ok layout ∧
        store.create now names configuration = (after, .ok report) ∧
        configuration.rangeGates = .ok gates ∧
        load now configuration gates after names.editModel lexicon layout current = .ok panel := by
  rw [openOn]
  cases Layout.generate lexicon configuration with
  | error error => simp
  | ok layout =>
      cases creation : store.create now names configuration with
      | mk created result =>
          cases result with
          | error error => simp
          | ok report =>
              cases configuration.rangeGates with
              | error error => simp
              | ok gates =>
                  simp only [Prod.mk.injEq, Except.ok.injEq]
                  constructor
                  · rintro ⟨rfl, loading⟩
                    exact ⟨layout, report, gates, rfl, ⟨rfl, rfl⟩, rfl, loading⟩
                  · rintro ⟨_, _, _, rfl, ⟨rfl, rfl⟩, rfl, loading⟩
                    exact ⟨rfl, loading⟩

theorem store_of_opened {now : Instant} {store after : Store} {current : CurrentQuery}
    (accepted : openOn now configuration store names lexicon current = (after, .ok panel)) :
    ∃ report, store.create now names configuration = (panel.store, .ok report) := by
  obtain ⟨_, report, _, _, creation, _, loading⟩ := openOn_eq_ok.mp accepted
  obtain ⟨_, _, _, _, _, _, _, _, _, _, rfl⟩ := load_eq_ok.mp loading
  exact ⟨report, creation⟩

theorem Follows.opened {now : Instant} {store after : Store} {current : CurrentQuery}
    (siblings : configuration.Distinct)
    (accepted : openOn now configuration store names lexicon current = (after, .ok panel)) :
    panel.Follows configuration names lexicon := by
  obtain ⟨layout, report, gates, generated, _, usable, loading⟩ := openOn_eq_ok.mp accepted
  obtain ⟨model, loaded, _, _, _, _, loadedOk, _, _, _, rfl⟩ := load_eq_ok.mp loading
  have checked := filters_loadFilters loadedOk
  have keys := (keys_of_checked checked).trans (keys_filtersOf lexicon layout)
  have made : ∀ filter ∈ filtersOf lexicon layout,
      filter.condition = Filter.conditionOf lexicon filter.attr filter.name := by
    intro filter member
    obtain ⟨_, _, rfl⟩ := List.mem_map.mp member
    rfl
  exact {
    sameConfiguration := rfl
    usable := usable
    sameModel := rfl
    keys := keys.trans (Layout.keys_generate siblings generated)
    made := made_of_checked checked made }

private theorem checked_checkNamed (attr : Attribute) (name : String) (checked : Bool)
    (filters : List Filter) :
    List.Forall₂ (fun filter other => ∃ checked, other = { filter with checked }) filters
      (FilterSet.checkNamed attr name checked filters) := by
  have same (filters : List Filter) :
      List.Forall₂ (fun filter other : Filter => ∃ checked, other = { filter with checked })
        filters filters := List.forall₂_same.mpr fun filter _ => ⟨filter.checked, rfl⟩
  induction filters with
  | nil => exact .nil
  | cons head rest ih =>
      rw [FilterSet.checkNamed]
      split
      · exact .cons ⟨checked, rfl⟩ (same rest)
      · exact .cons ⟨head.checked, rfl⟩ ih

namespace Follows

theorem check (follows : panel.Follows configuration names lexicon) {filters : FilterSet}
    (same : List.Forall₂ (fun filter other => ∃ checked, other = { filter with checked })
      panel.filters.filters filters.filters) :
    { panel with filters }.Follows configuration names lexicon where
  sameConfiguration := follows.sameConfiguration
  usable := follows.usable
  sameModel := follows.sameModel
  keys := (keys_of_checked same).trans follows.keys
  made := made_of_checked same follows.made

private theorem setChecked (follows : panel.Follows configuration names lexicon) {attr : Attribute}
    {name : String} {checked : Bool} {changed : Panel}
    (edited : panel.setChecked attr name checked = .ok changed) :
    changed.Follows configuration names lexicon := by
  obtain ⟨filters, accepted, edited⟩ := bind_eq_ok.mp edited
  obtain rfl := Except.ok.inj edited
  rw [FilterSet.setChecked] at accepted
  split at accepted
  · obtain rfl := Except.ok.inj accepted
    exact follows.check (checked_checkNamed attr name checked panel.filters.filters)
  · exact absurd accepted (by simp)

theorem unchecked (follows : panel.Follows configuration names lexicon) :
    panel.unchecked.Follows configuration names lexicon := by
  apply follows.check
  rw [FilterSet.setAll, List.forall₂_map_right_iff]
  exact List.forall₂_same.mpr fun filter _ => ⟨false, rfl⟩

private theorem control (follows : panel.Follows configuration names lexicon)
    (controls : Controls) : { panel with controls }.Follows configuration names lexicon :=
  { follows with }

theorem refresh (follows : panel.Follows configuration names lexicon) (now : Instant) :
    (panel.refresh now).1.Follows configuration names lexicon := by
  rw [Panel.refresh]
  dsimp only
  split
  · exact { follows with }
  · exact { follows with }

theorem save (follows : panel.Follows configuration names lexicon) (now : Instant) :
    (panel.save now).1.Follows configuration names lexicon := by
  rw [Panel.save]
  split
  · exact follows
  · exact { follows with }

private theorem apply (follows : panel.Follows configuration names lexicon) (now : Instant) :
    (panel.apply now).1.Follows configuration names lexicon := by
  have after := follows.save now
  rw [Panel.apply]
  split
  · next saved result =>
      rw [result] at after
      exact after.refresh now
  · next saved error result =>
      rw [result] at after
      exact after

end Follows

theorem store_refresh (now : Instant) (panel : Panel) :
    (panel.refresh now).1.store = panel.store := by
  rw [refresh]
  dsimp only
  split <;> rfl

theorem store_apply (now : Instant) (panel : Panel) :
    (panel.apply now).1.store = (panel.save now).1.store := by
  rw [apply]
  split
  · next saved result =>
      rw [store_refresh, result]
  · next saved error result => rw [result]

theorem refresh_eq_ok {now : Instant} {refreshed : Panel} :
    panel.refresh now = (refreshed, .ok ()) ↔
      ∃ query, compile panel.filters.filters (panel.controls.rangeInputs now)
          panel.configuration = .ok query ∧
        refreshed =
          { panel with
            filters := { panel.filters with ranges := panel.controls.rangeInputs now }
            query
            current := panel.current.publish query } := by
  simp only [refresh, FilterSet.compile]
  cases compile panel.filters.filters (panel.controls.rangeInputs now) panel.configuration with
  | error error => simp
  | ok query => simp [eq_comm]

theorem save_eq_ok {now : Instant} {saved : Panel} :
    panel.save now = (saved, .ok ()) ↔
      ∃ model changed, panel.store.requireInstance panel.editModel = .ok model ∧
        model.writeAll (panel.writes now) = (changed, .ok ()) ∧
        saved = { panel with store := panel.store.putInstance panel.editModel changed } := by
  rw [save]
  cases panel.store.requireInstance panel.editModel with
  | error error => simp
  | ok model =>
      cases written : model.writeAll (panel.writes now) with
      | mk changed result => cases result <;> simp [written, Except.mapError, eq_comm, and_comm]

/-- Applying a panel saves it and publishes the query of its filters and controls. -/
theorem apply_eq_ok {now : Instant} {applied : Panel}
    (accepted : panel.apply now = (applied, .ok ())) :
    ∃ model changed query, panel.store.requireInstance panel.editModel = .ok model ∧
      model.writeAll (panel.writes now) = (changed, .ok ()) ∧
      compile panel.filters.filters (panel.controls.rangeInputs now) panel.configuration =
        .ok query ∧
      applied =
        { panel with
          store := panel.store.putInstance panel.editModel changed
          filters := { panel.filters with ranges := panel.controls.rangeInputs now }
          query
          current := panel.current.publish query } := by
  rw [apply] at accepted
  split at accepted
  · next saved result =>
      obtain ⟨model, changed, found, written, rfl⟩ := save_eq_ok.mp result
      obtain ⟨query, compiled, rfl⟩ := refresh_eq_ok.mp accepted
      exact ⟨model, changed, query, found, written, compiled, rfl⟩
  · exact absurd (Prod.mk.inj accepted).2 (by simp)

end Panel

/-- The panels that opening one on a store leads to, through edits and uses. -/
inductive Panel.Used (configuration : Configuration) (store : Store) (names : EditModelNames)
    (lexicon : Lexicon) : Panel → Prop where
  | opened {now : Instant} {current : CurrentQuery} {after : Store} {panel : Panel} :
      openOn now configuration store names lexicon current = (after, .ok panel) →
      Used configuration store names lexicon panel
  | checked {panel changed : Panel} {attr : Attribute} {name : String} {checked : Bool} :
      Used configuration store names lexicon panel →
      panel.setChecked attr name checked = .ok changed →
      Used configuration store names lexicon changed
  | picked {panel : Panel} {controls : Controls} {name : String} {value : Instant} :
      Used configuration store names lexicon panel →
      panel.controls.setInstant? name value = some controls →
      Used configuration store names lexicon { panel with controls }
  | typed {panel : Panel} {controls : Controls} {name text : String} :
      Used configuration store names lexicon panel →
      panel.controls.setText? name text = some controls →
      Used configuration store names lexicon { panel with controls }
  | refreshed {panel : Panel} (now : Instant) :
      Used configuration store names lexicon panel →
      Used configuration store names lexicon (panel.refresh now).1
  | applied {panel : Panel} (now : Instant) :
      Used configuration store names lexicon panel →
      Used configuration store names lexicon (panel.apply now).1
  | cleared {panel : Panel} (now : Instant) :
      Used configuration store names lexicon panel →
      Used configuration store names lexicon (panel.clearAll now).1

/-- The configurations and stores that edits, creations of edit models and panels lead to. -/
inductive Reached : Configuration → Store → Prop where
  | start : Reached .builtin .empty
  | edited {configuration changed : Configuration} {store : Store} {attr : String}
      {criterion : Option String} {enabled : Bool} :
      Reached configuration store →
      configuration.setEnabled attr criterion enabled = .ok changed →
      Reached changed store
  | created {configuration : Configuration} {store : Store} (now : Instant)
      (names : EditModelNames) :
      Reached configuration store → Reached configuration (store.create now names configuration).1
  | closed {configuration : Configuration} {store : Store} {names : EditModelNames}
      {lexicon : Lexicon} {panel : Panel} :
      Reached configuration store →
      panel.Used configuration store names lexicon →
      Reached configuration panel.store

namespace Panel.Used

variable {store : Store} {changed : Panel}

theorem of_opened {now : Instant} {current : CurrentQuery}
    (accepted : (openOn now configuration store names lexicon current).2 = .ok panel) :
    panel.Used configuration store names lexicon :=
  .opened (Prod.ext rfl accepted)

theorem follows (used : panel.Used configuration store names lexicon)
    (siblings : configuration.Distinct) : panel.Follows configuration names lexicon := by
  induction used with
  | opened accepted => exact .opened siblings accepted
  | checked _ edited ih => exact ih.setChecked edited
  | picked _ _ ih => exact ih.control _
  | typed _ _ ih => exact ih.control _
  | refreshed now _ ih => exact ih.refresh now
  | applied now _ ih => exact ih.apply now
  | cleared now _ ih => exact ih.unchecked.apply now

private theorem checkAll (used : panel.Used configuration store names lexicon) {checked : Bool}
    {references : List FilterReference}
    (edited : panel.checkAll checked references = .ok changed) :
    changed.Used configuration store names lexicon := by
  induction references generalizing panel with
  | nil =>
      obtain rfl := Except.ok.inj edited
      exact used
  | cons reference references ih =>
      rw [Panel.checkAll, List.foldlM_cons] at edited
      obtain ⟨next, first, others⟩ := bind_eq_ok.mp edited
      exact ih (used.checked first) others

theorem enterInstant (used : panel.Used configuration store names lexicon) (name : String)
    (value : Option Instant) :
    { panel with controls := Panel.enterInstant name value panel.controls }.Used configuration store
      names lexicon := by
  cases value with
  | none => exact used
  | some value =>
      rw [Panel.enterInstant]
      cases entered : panel.controls.setInstant? name value with
      | none => exact used
      | some controls => exact used.picked entered

theorem enterText (used : panel.Used configuration store names lexicon) (name : String)
    (text : Option String) :
    { panel with controls := Panel.enterText name text panel.controls }.Used configuration store
      names lexicon := by
  cases text with
  | none => exact used
  | some text =>
      rw [Panel.enterText]
      cases entered : panel.controls.setText? name text with
      | none => exact used
      | some controls => exact used.typed entered

theorem edit (used : panel.Used configuration store names lexicon) {edits : PanelEdits}
    (edited : panel.edit edits = .ok changed) :
    changed.Used configuration store names lexicon := by
  obtain ⟨checked, checks, edited⟩ := bind_eq_ok.mp edited
  obtain ⟨unchecked, unchecks, edited⟩ := bind_eq_ok.mp edited
  obtain rfl := Except.ok.inj edited
  have times := (((used.checkAll checks).checkAll unchecks).enterInstant
    BrowseName.fromEventTime edits.fromTime).enterInstant BrowseName.toEventTime edits.toTime
  exact (times.enterText BrowseName.fromSeverity edits.fromSeverity).enterText
    BrowseName.toSeverity edits.toSeverity

/-- What holds of the store after its edit model was created, and stays when a panel is saved, holds
of the store of every used panel. -/
theorem of_store {holds : Store → Prop} (used : panel.Used configuration store names lexicon)
    (siblings : configuration.Distinct)
    (created : ∀ now after report, store.create now names configuration = (after, .ok report) →
      holds after)
    (saved : ∀ panel : Panel, panel.Follows configuration names lexicon → ∀ now,
      holds panel.store → holds (panel.save now).1.store) : holds panel.store := by
  induction used with
  | opened accepted =>
      obtain ⟨report, creation⟩ := store_of_opened accepted
      exact created _ _ report creation
  | checked _ edited ih =>
      obtain ⟨_, _, edited⟩ := bind_eq_ok.mp edited
      obtain rfl := Except.ok.inj edited
      exact ih
  | picked _ _ ih => exact ih
  | typed _ _ ih => exact ih
  | refreshed now _ ih => rwa [store_refresh]
  | applied now earlier ih =>
      rw [store_apply]
      exact saved _ (earlier.follows siblings) now ih
  | cleared now earlier ih =>
      rw [clearAll, store_apply]
      exact saved _ (earlier.follows siblings).unchecked now ih

end Panel.Used

/-- Whether a store is as its configurations have shaped it, with an edit model in line with the
present one. -/
structure Store.InLine (configuration : Configuration) (names : EditModelNames) (store : Store) :
    Prop where
  kept : store.Kept configuration
  matched : ∃ schema model, store.types.get? names.typeName = some schema ∧
    store.instances.get? names.editModel = some model ∧ configuration.Matches schema model

theorem Store.InLine.created {store after : Store} {now : Instant} {report : ReconcileReport}
    (kept : store.Kept configuration) (wellFormed : configuration.WellFormed)
    (creation : store.create now names configuration = (after, .ok report)) :
    after.InLine configuration names := by
  obtain ⟨_, _, schema, model, created, createdKept, schemaFound, modelFound, matched⟩ :=
    kept.create wellFormed now names
  obtain ⟨rfl, _⟩ := Prod.mk.inj (created.symm.trans creation)
  exact ⟨createdKept, schema, model, schemaFound, modelFound, matched⟩

/-- What holds of an open panel on such a store. -/
structure Panel.Fits (configuration : Configuration) (names : EditModelNames) (lexicon : Lexicon)
    (panel : Panel) : Prop extends panel.Follows configuration names lexicon where
  inLine : panel.store.InLine configuration names

private theorem Panel.Follows.shown_writes (follows : panel.Follows configuration names lexicon)
    {now : Instant} {write : Write} (member : write ∈ panel.writes now)
    (below : write.attr = BrowseName.severity) :
    isRangeValue write.name = true ∨ write.name = BrowseName.severity := by
  rw [writes, List.append_assoc] at member
  rcases List.mem_append.mp member with checked | range
  · right
    obtain ⟨filter, listed, rfl⟩ := List.mem_map.mp checked
    have shown : (filter.attr, filter.name) ∈ configuration.controlKeys := by
      rw [← follows.keys]
      exact List.mem_map_of_mem listed
    obtain ⟨flag, _, named, _, controlled⟩ := Configuration.mem_controlKeys.mp shown
    obtain ⟨_, _, _, _, _, own⟩ := Flag.mem_controlNames.mp controlled
    exact own (named.trans below)
  · exact .inl (isRangeValue_of_mem range)

theorem Panel.Fits.saved (fits : panel.Fits configuration names lexicon) (now : Instant) :
    ∃ schema model, panel.store.types.get? names.typeName = some schema ∧
      panel.store.requireInstance panel.editModel = .ok model ∧
      configuration.Matches schema model ∧
      configuration.Matches schema (model.writeAll (panel.writes now)).1 := by
  obtain ⟨schema, model, schemaFound, modelFound, inLine⟩ := fits.inLine.matched
  refine ⟨schema, model, schemaFound, ?_, inLine, ?_⟩
  · rw [fits.sameModel, Store.requireInstance, modelFound]
  · exact {
      schemaKept := inLine.schemaKept
      settled := inLine.settled
      offers := inLine.offers
      modelKept := inLine.modelKept.writeAll fun write member => fits.shown_writes member
      nodes := by
        rw [Instance.nodes_writeAll]
        exact inLine.nodes }

theorem Panel.Fits.save (fits : panel.Fits configuration names lexicon) (now : Instant) :
    (panel.save now).1.store.InLine configuration names := by
  obtain ⟨schema, model, schemaFound, modelFound, _, inLine⟩ := fits.saved now
  rw [Panel.save, modelFound]
  refine ⟨fits.inLine.kept.putInstance inLine.modelKept panel.editModel, schema, _, schemaFound, ?_,
    inLine⟩
  rw [fits.sameModel]
  exact (Table.get?_insert ..).trans (if_pos rfl)

theorem Panel.Used.fits {store : Store}
    (used : panel.Used configuration store names lexicon) (kept : store.Kept configuration)
    (grown : configuration.Grown) : panel.Fits configuration names lexicon where
  toFollows := used.follows grown.siblings
  inLine := by
    apply used.of_store grown.siblings
    · exact fun now after report creation => .created kept grown.wellFormed creation
    · intro panel follows now inLine
      exact Panel.Fits.save { toFollows := follows, inLine } now

theorem Reached.invariant {store : Store} (reached : Reached configuration store) :
    configuration.Grown ∧ store.Kept configuration := by
  induction reached with
  | start => exact ⟨Configuration.builtin_grown, .empty .builtin⟩
  | edited _ edited ih =>
      exact ⟨ih.1.setEnabled edited, ih.2.extend (Configuration.extends_setEnabled edited)⟩
  | created now names _ ih =>
      obtain ⟨after, report, schema, model, creation, kept, _⟩ :=
        ih.2.create ih.1.wellFormed now names
      rw [creation]
      exact ⟨ih.1, kept⟩
  | closed _ used ih => exact ⟨ih.1, (used.fits ih.2 ih.1).inLine.kept⟩

end AlarmView
