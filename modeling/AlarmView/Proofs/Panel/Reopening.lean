import AlarmView.Proofs.Panel.Opening
import AlarmView.Proofs.Panel.Severity
import AlarmView.Proofs.Query.Compilation
import AlarmView.Proofs.Workspace.Persistence

/-!
# Opening a panel again

A panel that is opened on the store of an applied one shows the same checked filters, and its
controls show the same limits of every checked range.  Limits of other ranges are not loaded, but no
query uses them.
-/

namespace AlarmView

open BrowseName Property

variable {configuration : Configuration} {store : Store} {names : EditModelNames}
  {lexicon : Lexicon} {panel applied : Panel} {gates : RangeGates} {layout : Layout}

namespace Controls

variable {name : String}

theorem exists_control {attr : Attribute} (shown : (attr, name) ∈ layout.keys) :
    ∃ control, (attr, control) ∈ layout.controls ∧ control.name = name := by
  obtain ⟨⟨_, control⟩, member, same⟩ := List.mem_map.mp shown
  obtain ⟨rfl, named⟩ := Prod.mk.inj same
  exact ⟨control, member, named⟩

/-- A control of the event time has its picker. -/
theorem instant?_ofLayout (generated : Layout.generate lexicon configuration = .ok layout)
    (shown : (.eventTime, name) ∈ layout.keys) (now : Instant) :
    ((ofLayout now layout).instant? name).isSome := by
  obtain ⟨control, member, named⟩ := exists_control shown
  obtain ⟨flag, controls, attrName, controlsOk, listed⟩ :=
    Layout.exists_of_mem_controls generated member
  obtain ⟨row, label, rfl⟩ := (Layout.row_of_controlsOf attrName controlsOk listed).1 rfl
  obtain rfl : row = name := named
  exact instant?_ofLayout_iff.mpr ⟨label, _, member⟩

/-- The control of the severity has its text boxes. -/
theorem text?_ofLayout (generated : Layout.generate lexicon configuration = .ok layout)
    (shown : (.severity, name) ∈ layout.keys) (now : Instant) :
    ((ofLayout now layout).text? fromSeverity).isSome ∧
      ((ofLayout now layout).text? toSeverity).isSome := by
  obtain ⟨control, member, named⟩ := exists_control shown
  obtain ⟨flag, controls, attrName, controlsOk, listed⟩ :=
    Layout.exists_of_mem_controls generated member
  obtain ⟨_, _, _, rfl⟩ := (Layout.row_of_controlsOf attrName controlsOk listed).2 rfl
  exact text?_ofLayout_iff.mpr ⟨_, _, _, _, member⟩

end Controls

namespace Panel

variable {model : Instance} {filters : FilterSet} {controls result : Controls}
  {now later moment : Instant}

/-- Loading a picker leaves the others alone. -/
theorem loadPicker_frame {enabled : Bool} {name value : String}
    (accepted : loadPicker later model filters enabled name value controls = .ok result) :
    result.textBoxes = controls.textBoxes ∧
      ∀ other, other ≠ name → result.instant? other = controls.instant? other := by
  have frame (value : Instant) :
      ((controls.setInstant? name value).getD controls).textBoxes = controls.textBoxes ∧
        ∀ other, other ≠ name →
          ((controls.setInstant? name value).getD controls).instant? other =
            controls.instant? other := by
    refine ⟨controls.setInstant?_textBoxes name value, fun other different => ?_⟩
    simp [Controls.instant?_setInstant?, different]
  rw [loadPicker] at accepted
  split at accepted
  · obtain ⟨checked, _, accepted⟩ := bind_eq_ok.mp accepted
    cases checked with
    | true =>
        obtain ⟨shown, _, accepted⟩ := bind_eq_ok.mp accepted
        obtain rfl := Except.ok.inj accepted
        exact frame shown
    | false =>
        obtain rfl := Except.ok.inj accepted
        exact frame later
  · obtain rfl := Except.ok.inj accepted
    exact ⟨rfl, fun _ _ => rfl⟩

/-- The picker of a checked bound shows its stored value. -/
theorem instant?_loadPicker {enabled : Bool} {name value : String}
    (accepted : loadPicker later model filters enabled name value controls = .ok result)
    (on : enabled) (checked : rangeChecked filters .eventTime name = .ok true) {shown : Instant}
    (stored : model.stored? eventTime value = some (.dateTime shown))
    (registered : (controls.instant? name).isSome) : result.instant? name = some shown := by
  rw [loadPicker, if_pos on, checked, Instance.instant_eq_ok.mpr stored] at accepted
  obtain rfl := Except.ok.inj accepted
  obtain ⟨kept, known⟩ := Option.isSome_iff_exists.mp registered
  rw [Controls.instant?_setInstant?, known, Option.map_some, if_pos rfl]

theorem loadTextBoxes_pickers {enabled : Bool}
    (accepted : loadTextBoxes model filters enabled controls = .ok result) :
    result.pickers = controls.pickers := by
  rw [loadTextBoxes] at accepted
  split at accepted
  · obtain ⟨checked, _, accepted⟩ := bind_eq_ok.mp accepted
    cases checked with
    | true =>
        obtain ⟨lower, _, accepted⟩ := bind_eq_ok.mp accepted
        obtain ⟨upper, _, accepted⟩ := bind_eq_ok.mp accepted
        obtain rfl := Except.ok.inj accepted
        rw [Controls.setText?_pickers, Controls.setText?_pickers]
    | false =>
        obtain rfl := Except.ok.inj accepted
        rw [Controls.setText?_pickers, Controls.setText?_pickers]
  · rw [Except.ok.inj accepted]

/-- The text boxes of a checked severity show its stored limits. -/
theorem severity_loadTextBoxes {enabled : Bool}
    (accepted : loadTextBoxes model filters enabled controls = .ok result) (on : enabled)
    (checked : rangeChecked filters .severity severity = .ok true) {lower upper : UInt16}
    (lowerStored : model.stored? severity fromSeverity = some (.uint16 lower))
    (upperStored : model.stored? severity toSeverity = some (.uint16 upper))
    (lowerRegistered : (controls.text? fromSeverity).isSome)
    (upperRegistered : (controls.text? toSeverity).isSome) :
    result.severity fromSeverity = lower ∧ result.severity toSeverity = upper := by
  have apart : fromSeverity ≠ toSeverity := by decide
  simp only [loadTextBoxes, on, checked, Instance.number_eq_ok.mpr lowerStored,
    Instance.number_eq_ok.mpr upperStored] at accepted
  obtain rfl := Except.ok.inj accepted
  obtain ⟨_, lowerKnown⟩ := Option.isSome_iff_exists.mp lowerRegistered
  obtain ⟨_, upperKnown⟩ := Option.isSome_iff_exists.mp upperRegistered
  constructor
  · apply Controls.severity_of_text?
    simp [Controls.text?_setText?, lowerKnown, apart]
  · apply Controls.severity_of_text?
    simp [Controls.text?_setText?, upperKnown]

private theorem stored_loadFilters {candidates loaded : List Filter}
    (accepted : loadFilters model candidates = .ok loaded) {filter : Filter}
    (member : filter ∈ loaded) :
    model.stored? filter.attr.browseName filter.name = some (.boolean filter.checked) := by
  obtain ⟨candidate, _, read⟩ := exists_mem_of_forall₂ (forall₂_of_mapM accepted) member
  obtain ⟨checked, stored, same⟩ := bind_eq_ok.mp read
  obtain rfl := Except.ok.inj same
  exact Instance.checkedState_eq_ok.mp stored

/-- A filter is known by its attribute and its name, if its state is the stored one. -/
theorem filters_eq_of_stored {first second : List Filter}
    (keys : first.map (fun filter => (filter.attr, filter.name)) =
      second.map fun filter => (filter.attr, filter.name))
    (made : ∀ filter ∈ first ++ second,
      filter.condition = Filter.conditionOf lexicon filter.attr filter.name)
    (stored : ∀ filter ∈ first ++ second,
      model.stored? filter.attr.browseName filter.name = some (.boolean filter.checked)) :
    first = second := by
  have known (filters : List Filter) (within : filters ⊆ first ++ second) :
      filters = (filters.map fun filter => (filter.attr, filter.name)).map fun key =>
        .make lexicon key.1 key.2
          (model.stored? key.1.browseName key.2 == some (.boolean true)) := by
    rw [List.map_map]
    refine (List.map_id' _).symm.trans (List.map_congr_left fun filter member => ?_)
    have condition := made filter (within member)
    have state := stored filter (within member)
    obtain ⟨attr, name, _, checked⟩ := filter
    cases checked <;> simp_all [Filter.make]
  rw [known first (List.subset_append_left ..), keys,
    ← known second (List.subset_append_right ..)]

/-- The controls of a checked range show the limits that were saved. -/
theorem agreeOn_of_load {editModel : String} {current : CurrentQuery} {reopened : Panel}
    (generated : Layout.generate lexicon configuration = .ok layout)
    (found : store.requireInstance editModel = .ok model)
    (loading :
      load later configuration panel.gates store editModel lexicon layout current = .ok reopened)
    (saved : ∀ write ∈ panel.writes now, model.stored? write.attr write.name = some write.value)
    {bound : RangeBound} (opened : panel.gates.opens bound)
    (shown : (bound.attr, bound.browseName) ∈ layout.keys)
    (checked : rangeChecked reopened.filters bound.attr bound.browseName = .ok true)
    (moment : Instant) :
    ((panel.controls.rangeInputs now).through panel.gates).AgreeOn
      ((reopened.controls.rangeInputs moment).through panel.gates) bound := by
  obtain ⟨other, loaded, lower, upper, controls, otherFound, _, lowerRead, upperRead, limitsRead,
    rfl⟩ := load_eq_ok.mp loading
  obtain rfl : model = other := Except.ok.inj (found.symm.trans otherFound)
  have pickers : controls.pickers = upper.pickers := loadTextBoxes_pickers limitsRead
  have upperFrame := loadPicker_frame upperRead
  have lowerFrame := loadPicker_frame lowerRead
  cases bound with
  | fromEventTime =>
      have on : panel.gates.eventTime.lower = true := opened
      have stored := saved _ (mem_writes.mpr (.inr (.inl ⟨on, rfl⟩)))
      have picker : lower.instant? fromEventTime = _ := instant?_loadPicker lowerRead on checked
        stored (Controls.instant?_ofLayout generated shown later)
      have final : controls.instant? fromEventTime = lower.instant? fromEventTime := by
        rw [Controls.instant?, pickers]
        exact upperFrame.2 fromEventTime (by decide)
      simp [OpenRanges.AgreeOn, RangeInputs.through, Controls.rangeInputs, final, picker]
  | toEventTime =>
      have on : panel.gates.eventTime.upper = true := opened
      have stored := saved _ (mem_writes.mpr (.inr (.inr (.inl ⟨on, rfl⟩))))
      have registered : (lower.instant? toEventTime).isSome := by
        rw [lowerFrame.2 toEventTime (by decide)]
        exact Controls.instant?_ofLayout generated shown later
      have picker : upper.instant? toEventTime = _ :=
        instant?_loadPicker upperRead on checked stored registered
      have final : controls.instant? toEventTime = upper.instant? toEventTime := by
        rw [Controls.instant?, pickers]
        rfl
      simp [OpenRanges.AgreeOn, RangeInputs.through, Controls.rangeInputs, final, picker]
  | severity =>
      have on : panel.gates.severity = true := opened
      have stored (name : String) (limit : name ∈ [fromSeverity, toSeverity]) :=
        saved _ (mem_writes.mpr (.inr (.inr (.inr ⟨on, name, limit, rfl⟩))))
      have registered := Controls.text?_ofLayout generated shown later
      have boxes : upper.textBoxes = (Controls.ofLayout later layout).textBoxes :=
        upperFrame.1.trans lowerFrame.1
      obtain ⟨least, greatest⟩ := severity_loadTextBoxes limitsRead on checked
        (stored fromSeverity (by simp)) (stored toSeverity (by simp))
        (by rw [Controls.text?, boxes]; exact registered.1)
        (by rw [Controls.text?, boxes]; exact registered.2)
      simp [OpenRanges.AgreeOn, RangeInputs.through, Controls.rangeInputs, least, greatest]

end Panel

/-- Whether the name of the severity is used for a criterion only below the severity. -/
def Configuration.SeverityInPlace (configuration : Configuration) : Prop :=
  ∀ flag ∈ configuration.attributes, ∀ criterion ∈ flag.children,
    criterion.name = BrowseName.severity → flag.name = BrowseName.severity

private theorem Configuration.attr_of_bound (inPlace : configuration.RangesInPlace)
    (severityInPlace : configuration.SeverityInPlace) {attr : Attribute} {bound : RangeBound}
    (shown : (attr, bound.browseName) ∈ configuration.controlKeys) : attr = bound.attr := by
  cases bound with
  | fromEventTime => exact eventTime_of_bound inPlace shown (by decide)
  | toEventTime => exact eventTime_of_bound inPlace shown (by decide)
  | severity =>
      obtain ⟨flag, member, named, _, controlled⟩ := mem_controlKeys.mp shown
      obtain ⟨criterion, listed, called, _⟩ := Flag.mem_controlNames.mp controlled
      have own : flag.name = BrowseName.severity :=
        severityInPlace flag member criterion listed called
      exact Attribute.browseName_injective (named.symm.trans own)

/-- Whether a panel that is opened on a store shows the filters of an applied one and leads to the
query that it published. -/
def Panel.ReopensOn (configuration : Configuration) (store : Store) (names : EditModelNames)
    (lexicon : Lexicon) (applied : Panel) : Prop :=
  ∀ later current, ∃ after reopened,
    openOn later configuration store names lexicon current = (after, .ok reopened) ∧
      reopened.filters.filters = applied.filters.filters ∧
      ∀ moment, ∃ refreshed, reopened.refresh moment = (refreshed, .ok ()) ∧
        refreshed.current.text = applied.current.text

namespace Panel

/-- What applying a panel leaves in a store when it succeeds. -/
structure SavedIn (configuration : Configuration) (names : EditModelNames) (now : Instant)
    (panel : Panel) (store : Store) (schema : Property) (model : Instance) : Prop where
  typed : store.Typed
  schemaFound : store.types.get? names.typeName = some schema
  modelFound : store.instances.get? names.editModel = some model
  served : configuration.ServedBy schema model
  stored : ∀ write ∈ panel.writes now, model.stored? write.attr write.name = some write.value

variable {schema : Property} {model : Instance} {now later : Instant} {reopened : Panel}
  {current : CurrentQuery}

private theorem Follows.savedIn (follows : panel.Follows configuration names lexicon)
    (siblings : configuration.Distinct) (serves : panel.store.Serves configuration names)
    (accepted : panel.apply now = (applied, .ok ())) :
    ∃ schema model, panel.SavedIn configuration names now applied.store schema model := by
  obtain ⟨_, changed, query, found, written, _, rfl⟩ := apply_eq_ok accepted
  have after := (follows.saved siblings serves now).2
  rw [save_eq_ok.mpr ⟨_, changed, found, written, rfl⟩] at after
  obtain ⟨schema, model, schemaFound, modelFound, served⟩ := after.served
  obtain rfl : model = changed := by
    rw [follows.sameModel] at modelFound
    exact Except.ok.inj (modelFound.symm.trans (Store.requireInstance_putInstance ..))
  exact ⟨schema, model, {
    typed := after.typed
    schemaFound := schemaFound
    modelFound := Store.requireInstance_eq_ok.mp modelFound
    served := served
    stored := fun write member =>
      Instance.stored?_writeAll (distinct_writes follows.keys siblings now) written member }⟩

/-- Opening a panel on such a store loads what was saved. -/
theorem SavedIn.opened (saved : panel.SavedIn configuration names now store schema model)
    (follows : panel.Follows configuration names lexicon) (siblings : configuration.Distinct)
    (later : Instant) (current : CurrentQuery) :
    ∃ after reopened layout,
      openOn later configuration store names lexicon current = (after, .ok reopened) ∧
        Layout.generate lexicon configuration = .ok layout ∧
        after.requireInstance names.editModel = .ok model ∧
        load later configuration panel.gates after names.editModel lexicon layout current =
          .ok reopened := by
  obtain ⟨after, reopened, opened⟩ :=
    openOn_ok saved.typed siblings follows.usable names lexicon later current
  obtain ⟨layout, _, gates, generated, creation, usable, loading⟩ := openOn_eq_ok.mp opened
  obtain rfl : gates = panel.gates := Except.ok.inj (usable.symm.trans follows.usable)
  obtain ⟨_, created⟩ := Store.create_of_settled usable saved.schemaFound saved.modelFound
    saved.served.regular.unique saved.served.settled saved.served.mirrors later
  obtain ⟨rfl, _⟩ := Prod.mk.inj (created.symm.trans creation)
  exact ⟨_, reopened, layout, opened, generated, Store.requireInstance_put .., loading⟩

private theorem SavedIn.filters (saved : panel.SavedIn configuration names now store schema model)
    (follows : panel.Follows configuration names lexicon)
    (again : reopened.Follows configuration names lexicon) {after : Store}
    (found : after.requireInstance names.editModel = .ok model)
    (loading : load later configuration panel.gates after names.editModel lexicon layout current =
      .ok reopened) : reopened.filters.filters = panel.filters.filters := by
  obtain ⟨other, _, _, _, _, otherFound, read, _, _, _, rfl⟩ := load_eq_ok.mp loading
  obtain rfl : model = other := Except.ok.inj (found.symm.trans otherFound)
  apply filters_eq_of_stored (again.keys.trans follows.keys.symm)
  · exact List.forall_mem_append.mpr ⟨again.made, follows.made⟩
  · refine List.forall_mem_append.mpr ⟨fun filter member => stored_loadFilters read member, ?_⟩
    exact fun filter member => saved.stored _ (mem_writes_of_filter member now)

/-- A filter of a range has the control of that range, and the range can be used. -/
theorem Follows.range (follows : panel.Follows configuration names lexicon)
    (siblings : configuration.Distinct) (inPlace : configuration.RangesInPlace)
    (severityInPlace : configuration.SeverityInPlace) {filter : Filter}
    (member : filter ∈ panel.filters.filters) {bound : RangeBound}
    (range : filter.condition = .range bound) :
    filter.attr = bound.attr ∧ filter.name = bound.browseName ∧ panel.gates.opens bound := by
  have shown : (filter.attr, filter.name) ∈ configuration.controlKeys := by
    rw [← follows.keys]
    exact List.mem_map_of_mem member
  have name := Filter.conditionOf_eq_range.mp ((follows.made filter member).symm.trans range)
  rw [name] at shown
  have attr := Configuration.attr_of_bound inPlace severityInPlace shown
  rw [attr] at shown
  have enabled := ((Configuration.mem_controlKeys_iff siblings).mp shown).1
  exact ⟨attr, name, (Configuration.opens_iff follows.usable bound).mpr enabled⟩

private theorem Used.reopens (used : panel.Used configuration store names lexicon)
    (typed : store.Typed) (siblings : configuration.Distinct)
    (inPlace : configuration.RangesInPlace) (severityInPlace : configuration.SeverityInPlace)
    (accepted : panel.apply now = (applied, .ok ())) :
    applied.ReopensOn configuration applied.store names lexicon := by
  have follows := used.follows siblings
  obtain ⟨schema, model, saved⟩ := follows.savedIn siblings (used.serves typed siblings) accepted
  obtain ⟨_, _, query, _, _, compiled, rfl⟩ := apply_eq_ok accepted
  intro later current
  obtain ⟨after, reopened, layout, opened, generated, found, loading⟩ :=
    saved.opened follows siblings later current
  have again := Follows.opened siblings opened
  have filters := saved.filters follows again found loading
  have distinct := Configuration.nodup_controlKeys siblings
  rw [← again.keys] at distinct
  refine ⟨after, reopened, opened, filters, fun moment => ?_⟩
  refine ⟨_, refresh_eq_ok.mpr ⟨query, ?_, rfl⟩, rfl⟩
  rw [filters, again.sameConfiguration]
  rw [follows.sameConfiguration] at compiled
  -- Only the limits of checked ranges are loaded, and only these are used.
  apply compile_of_agree compiled
  intro gates usable filter member checked bound range
  obtain rfl : gates = panel.gates := Except.ok.inj (usable.symm.trans follows.usable)
  obtain ⟨attr, name, openBound⟩ :=
    follows.range siblings inPlace severityInPlace member range
  have state := rangeChecked_of_mem distinct (filters ▸ member)
  rw [attr, name, checked] at state
  have shown := Configuration.mem_controlKeys_of_opens siblings usable bound openBound
  rw [← Layout.keys_generate siblings generated] at shown
  exact agreeOn_of_load generated found loading saved.stored openBound shown state moment

end Panel

/-- A panel that is opened after another one was applied shows the same filters and leads to the
same query, also if the workspace was saved and loaded in between. -/
theorem applied_reopens (attained : store.Attained) (siblings : configuration.Distinct)
    (inPlace : configuration.RangesInPlace) (severityInPlace : configuration.SeverityInPlace)
    (used : panel.Used configuration store names lexicon) {now : Instant}
    (accepted : panel.apply now = (applied, .ok ())) :
    let saved : Workspace := { configuration, store := applied.store }
    applied.ReopensOn configuration applied.store names lexicon ∧
      (saved.toJson.depth ≤ Json.maxDepth → saved.readBack = saved →
        ∃ loaded, Workspace.read? saved.print = some loaded ∧
          applied.ReopensOn loaded.configuration loaded.store names lexicon) := by
  intro saved
  have reopens := used.reopens attained.typed siblings inPlace severityInPlace accepted
  refine ⟨reopens, fun shallow timely => ⟨saved, ?_, reopens⟩⟩
  exact Workspace.read?_print_iff.mpr ⟨shallow, timely⟩

/-- A panel of an empty store with a checked criterion named after the severity and a limit of
seven. -/
def Panel.withSeverity (configuration : Configuration) (names : EditModelNames)
    (attr : Attribute) : Except Error Panel := do
  let panel ← (openOn .unixEpoch configuration .empty names .empty .idle).2
  let panel ← (panel.setChecked attr severity true).mapError .filter
  match panel.controls.setText? fromSeverity "7" with
  | some controls => return { panel with controls }
  | none => return panel

theorem Panel.Used.withSeverity {attr : Attribute}
    (opened : Panel.withSeverity configuration names attr = .ok panel) :
    panel.Used configuration .empty names .empty := by
  obtain ⟨first, opening, opened⟩ := bind_eq_ok.mp opened
  obtain ⟨second, checking, opened⟩ := bind_eq_ok.mp opened
  have used := (of_opened opening).checked (mapError_eq_ok.mp checking)
  split at opened
  · next controls typed =>
      obtain rfl := Except.ok.inj opened
      exact used.typed typed
  · obtain rfl := Except.ok.inj opened
    exact used

def Configuration.severityOnly : Configuration where
  attributes :=
    [.single BrowseName.eventTime false, .ofChildren BrowseName.severity true [severity]]

/-- Whether the workspace that a panel saves when it is applied is read as it was. -/
def Panel.savesReadably (configuration : Configuration) (panel : Panel) : Bool :=
  match panel.apply .unixEpoch with
  | (applied, .ok ()) =>
      let saved : Workspace := { configuration, store := applied.store }
      saved.toJson.depth ≤ Json.maxDepth ∧ saved.readBack = saved
  | (_, .error _) => false

theorem applied_reopens_severityOnly :
    let names : EditModelNames := { editModel := "P", widget := "W" }
    ∃ panel applied, Panel.withSeverity .severityOnly names .severity = .ok panel ∧
      panel.apply .unixEpoch = (applied, .ok ()) ∧
      let saved : Workspace := { configuration := .severityOnly, store := applied.store }
      saved.toJson.depth ≤ Json.maxDepth ∧ saved.readBack = saved ∧
        applied.ReopensOn .severityOnly applied.store names .empty ∧
        ∃ loaded, Workspace.read? saved.print = some loaded ∧
          applied.ReopensOn loaded.configuration loaded.store names .empty := by
  intro names
  have siblings : Configuration.severityOnly.Distinct := by decide +kernel
  have inPlace : Configuration.severityOnly.RangesInPlace := by
    unfold Configuration.RangesInPlace
    decide +kernel
  have severityInPlace : Configuration.severityOnly.SeverityInPlace := by
    unfold Configuration.SeverityInPlace
    decide +kernel
  have faithful : (Panel.withSeverity .severityOnly names .severity).toOption.any
      (Panel.savesReadably .severityOnly) = true := by decide +kernel
  generalize opened : Panel.withSeverity .severityOnly names .severity = result at faithful
  cases result with
  | error error => exact absurd faithful Bool.false_ne_true
  | ok panel =>
      rw [Except.toOption, Option.any_some, Panel.savesReadably] at faithful
      split at faithful
      · next applied accepted =>
          obtain ⟨shallow, timely⟩ := of_decide_eq_true faithful
          obtain ⟨reopens, reloads⟩ := applied_reopens .empty siblings inPlace severityInPlace
            (.withSeverity opened) accepted
          exact ⟨panel, applied, rfl, accepted, shallow, timely, reopens, reloads shallow timely⟩
      · exact absurd faithful Bool.false_ne_true

/-- A configuration with a second criterion that is named after the severity. -/
def Configuration.withSeverityBelowEventTime : Configuration :=
  Configuration.builtin.updateAttribute BrowseName.eventTime (Flag.setChild severity true)

/-- The query that a panel publishes as soon as it is opened on a store. -/
def Panel.firstText (configuration : Configuration) (store : Store) (names : EditModelNames) :
    Except Error String := do
  let panel ← (openOn .unixEpoch configuration store names .empty .idle).2
  let refreshed := panel.refresh .unixEpoch
  refreshed.2
  return refreshed.1.current.text

private theorem Panel.ReopensOn.firstText
    (reopens : applied.ReopensOn configuration store names .empty) :
    Panel.firstText configuration store names = .ok applied.current.text := by
  obtain ⟨after, reopened, opened, _, refreshes⟩ := reopens .unixEpoch .idle
  obtain ⟨refreshed, accepted, text⟩ := refreshes .unixEpoch
  rw [Panel.firstText, opened, ← text]
  simp only [bind, Except.bind, accepted]
  rfl

/-- Whether a panel publishes another query when it is opened again than when it was applied. -/
def Panel.changesText (configuration : Configuration) (names : EditModelNames) (panel : Panel) :
    Bool :=
  match panel.apply .unixEpoch with
  | (applied, .ok ()) =>
      (firstText configuration applied.store names).toOption ≠ some applied.current.text
  | (_, .error _) => false

private theorem Panel.not_reopens {attr : Attribute}
    (changes : (Panel.withSeverity configuration names attr).toOption.any
      (Panel.changesText configuration names) = true) :
    ∃ panel applied : Panel, Panel.withSeverity configuration names attr = .ok panel ∧
      panel.Used configuration .empty names .empty ∧
      panel.apply .unixEpoch = (applied, .ok ()) ∧
      ¬ applied.ReopensOn configuration applied.store names .empty := by
  cases opened : Panel.withSeverity configuration names attr with
  | error error => simp [opened, Except.toOption] at changes
  | ok panel =>
      simp only [opened, Except.toOption, Option.any_some, changesText] at changes
      split at changes
      · next applied accepted =>
          refine ⟨panel, applied, rfl, .withSeverity opened, accepted, fun reopens => ?_⟩
          simp [reopens.firstText] at changes
      · exact absurd changes Bool.false_ne_true

/-- The limits of a severity below the event time are not loaded, because the criterion of the
severity itself is not checked. -/
theorem not_reopens_severityBelowEventTime :
    let configuration : Configuration := .withSeverityBelowEventTime
    let names : EditModelNames := { editModel := "Panel", widget := "Grid" }
    configuration.Distinct ∧ (∃ gates, configuration.rangeGates = .ok gates) ∧
      configuration.RangesInPlace ∧ Store.empty.Attained ∧
      ∃ panel applied : Panel, Panel.withSeverity configuration names .eventTime = .ok panel ∧
        panel.Used configuration .empty names .empty ∧
        panel.apply .unixEpoch = (applied, .ok ()) ∧
        ¬ applied.ReopensOn configuration applied.store names .empty := by
  intro configuration names
  have siblings : configuration.Distinct := by decide +kernel
  have inPlace : configuration.RangesInPlace := by
    unfold Configuration.RangesInPlace
    decide +kernel
  have changes : (Panel.withSeverity configuration names .eventTime).toOption.any
      (Panel.changesText configuration names) = true := by decide +kernel
  exact ⟨siblings, ⟨_, rfl⟩, inPlace, .empty, Panel.not_reopens changes⟩

end AlarmView
