import AlarmView.Proofs.Panel.Session

/-!
# Opening and saving

Whatever was created, deleted and stored before, an edit model that was brought in line with a
configuration has a value of the right type at each place from which a panel loads and at which it
saves.  So a panel opens if its configuration can be used, and it can always be saved.
-/

namespace AlarmView

open BrowseName Property

variable {configuration : Configuration} {schema : Property} {model : Instance} {store : Store}
  {names : EditModelNames} {lexicon : Lexicon} {panel : Panel} {gates : RangeGates}

namespace Configuration

theorem offers_control (siblings : configuration.Distinct) {attr : Attribute} {name : String}
    (shown : (attr, name) ∈ configuration.controlKeys) :
    configuration.Offers attr.browseName name ∧ leafType name = .boolean := by
  obtain ⟨enabled, free, _⟩ := (mem_controlKeys_iff siblings).mp shown
  have own : name ∈ Leaf.namesOf attr.browseName name := Leaf.mem_namesOf.mpr ⟨free, .inl rfl⟩
  exact ⟨(offers_iff siblings).mpr ⟨name, enabled, own⟩, leafType_of_free free⟩

theorem offers_of_opens (siblings : configuration.Distinct)
    (usable : configuration.rangeGates = .ok gates) (bound : RangeBound)
    (opened : gates.opens bound) {name : String} (limit : name ∈ bound.valueNames) :
    configuration.Offers bound.attr.browseName name := by
  have called : Leaf.namesOf bound.attr.browseName bound.browseName =
      bound.browseName :: bound.valueNames := by
    cases bound <;> decide
  exact (offers_iff siblings).mpr ⟨bound.browseName, (opens_iff usable bound).mp opened,
    called ▸ List.mem_cons_of_mem _ limit⟩

namespace ServedBy

/-- A value can be read if it is offered and of the type that is expected. -/
theorem read {α : Type} {reader : PropertyValue → Option α} {expected : PropertyType}
    {attr name : String} (served : configuration.ServedBy schema model)
    (offered : configuration.Offers attr name)
    (reads : ∀ value : PropertyValue, value.type = leafType name →
      ∃ result, reader value = some result) :
    ∃ result, Instance.read reader expected model attr name = .ok result := by
  obtain ⟨_, _, _, value, stored, type⟩ := served.leaf offered
  obtain ⟨result, same⟩ := reads value type
  exact ⟨result, Instance.read_eq_ok.mpr (by rw [stored]; exact same)⟩

private theorem checkedState (served : configuration.ServedBy schema model)
    (siblings : configuration.Distinct) {attr : Attribute} {name : String}
    (shown : (attr, name) ∈ configuration.controlKeys) :
    ∃ checked, model.checkedState attr.browseName name = .ok checked := by
  obtain ⟨offered, boolean⟩ := offers_control siblings shown
  apply served.read offered
  intro value type
  rw [boolean] at type
  cases value with
  | boolean checked => exact ⟨checked, rfl⟩
  | dateTime | uint16 => cases type

private theorem instant (served : configuration.ServedBy schema model) {attr name : String}
    (offered : configuration.Offers attr name) (dateTime : leafType name = .dateTime) :
    ∃ instant, model.instant attr name = .ok instant := by
  apply served.read offered
  intro value type
  rw [dateTime] at type
  cases value with
  | dateTime instant => exact ⟨instant, rfl⟩
  | boolean | uint16 => cases type

private theorem number (served : configuration.ServedBy schema model) {attr name : String}
    (offered : configuration.Offers attr name) (uint16 : leafType name = .uint16) :
    ∃ number, model.number attr name = .ok number := by
  apply served.read offered
  intro value type
  rw [uint16] at type
  cases value with
  | uint16 number => exact ⟨number, rfl⟩
  | boolean | dateTime => cases type

/-- Values of the types that the offered leaves call for can all be saved. -/
theorem writeAll (served : configuration.ServedBy schema model) {writes : List Write}
    (offered : ∀ write ∈ writes,
      configuration.Offers write.attr write.name ∧ write.value.type = leafType write.name) :
    ∃ changed, model.writeAll writes = (changed, .ok ()) ∧
      configuration.ServedBy schema changed := by
  have accepted : ∀ write ∈ writes, model.Accepts write := by
    intro write member
    obtain ⟨here, type⟩ := offered write member
    obtain ⟨leaf, found, leafType, _⟩ := served.leaf here
    exact ⟨leaf, found, leafType.trans type.symm⟩
  obtain ⟨changed, saved⟩ := Instance.writeAll_of_accepts accepted
  have after : configuration.ServedBy schema (model.writeAll writes).1 := by
    apply Instance.holds_writeAll (configuration.ServedBy schema) served
    intro _ _ _ _ before stored
    exact before.setValue stored
  rw [saved] at after
  exact ⟨changed, saved, after⟩

end ServedBy

end Configuration

namespace Panel

variable {filters : FilterSet} {controls : Controls} {now : Instant}

theorem rangeChecked_of_mem
    (distinct : (filters.filters.map fun filter => (filter.attr, filter.name)).Nodup)
    {filter : Filter} (member : filter ∈ filters.filters) :
    rangeChecked filters filter.attr filter.name = .ok filter.checked := by
  have found : filters.find? filter.attr filter.name = some filter :=
    find?_of_mem (fun filter : Filter => (filter.attr, filter.name)) distinct member
  rw [rangeChecked, found]

private theorem rangeChecked_ok (siblings : configuration.Distinct)
    (keys : (filters.filters.map fun filter => (filter.attr, filter.name)) =
      configuration.controlKeys)
    {attr : Attribute} {name : String} (shown : (attr, name) ∈ configuration.controlKeys) :
    ∃ checked, rangeChecked filters attr name = .ok checked := by
  have distinct := Configuration.nodup_controlKeys siblings
  rw [← keys] at distinct shown
  obtain ⟨filter, member, same⟩ := List.mem_map.mp shown
  obtain ⟨rfl, rfl⟩ := Prod.mk.inj same
  exact ⟨filter.checked, rangeChecked_of_mem distinct member⟩

private theorem loadFilters_ok (served : configuration.ServedBy schema model)
    (siblings : configuration.Distinct) {layout : Layout}
    (keys : layout.keys = configuration.controlKeys) (lexicon : Lexicon) :
    ∃ loaded, loadFilters model (filtersOf lexicon layout) = .ok loaded := by
  apply mapM_ok
  intro filter member
  have shown : (filter.attr, filter.name) ∈ layout.keys := by
    rw [← keys_filtersOf lexicon]
    exact List.mem_map_of_mem member
  obtain ⟨checked, stored⟩ := served.checkedState siblings (keys ▸ shown)
  exact ⟨{ filter with checked }, by rw [stored]; rfl⟩

private theorem loadPicker_ok {enabled : Bool} {name value : String}
    (shown : enabled → ∃ checked, rangeChecked filters .eventTime name = .ok checked)
    (stored : enabled → ∃ instant, model.instant eventTime value = .ok instant) :
    ∃ result, loadPicker now model filters enabled name value controls = .ok result := by
  rw [loadPicker]
  split
  · next on =>
      obtain ⟨checked, checkedOk⟩ := shown on
      obtain ⟨instant, instantOk⟩ := stored on
      cases checked <;> exact ⟨_, by rw [checkedOk, instantOk]; rfl⟩
  · exact ⟨controls, rfl⟩

private theorem loadTextBoxes_ok {enabled : Bool}
    (shown : enabled → ∃ checked, rangeChecked filters .severity severity = .ok checked)
    (lower : enabled → ∃ number, model.number severity fromSeverity = .ok number)
    (upper : enabled → ∃ number, model.number severity toSeverity = .ok number) :
    ∃ result, loadTextBoxes model filters enabled controls = .ok result := by
  rw [loadTextBoxes]
  split
  · next on =>
      obtain ⟨checked, checkedOk⟩ := shown on
      obtain ⟨least, leastOk⟩ := lower on
      obtain ⟨greatest, greatestOk⟩ := upper on
      cases checked <;> exact ⟨_, by simp only [checkedOk, leastOk, greatestOk]; rfl⟩
  · exact ⟨controls, rfl⟩

/-- A panel can be loaded from an edit model that serves its configuration. -/
theorem load_ok (served : configuration.ServedBy schema model) (siblings : configuration.Distinct)
    (usable : configuration.rangeGates = .ok gates) {layout : Layout}
    (generated : Layout.generate lexicon configuration = .ok layout) {editModel : String}
    (found : store.requireInstance editModel = .ok model) (now : Instant)
    (current : CurrentQuery) :
    ∃ panel, load now configuration gates store editModel lexicon layout current = .ok panel := by
  have layoutKeys := Layout.keys_generate siblings generated
  obtain ⟨loaded, read⟩ := loadFilters_ok served siblings layoutKeys lexicon
  let filters : FilterSet := { filters := loaded, ranges := .initialAt now }
  have keys : (filters.filters.map fun filter => (filter.attr, filter.name)) =
      configuration.controlKeys :=
    (keys_of_checked (filters_loadFilters read)).trans
      ((keys_filtersOf lexicon layout).trans layoutKeys)
  have shown (bound : RangeBound) (opened : gates.opens bound) :
      ∃ checked, rangeChecked filters bound.attr bound.browseName = .ok checked :=
    rangeChecked_ok siblings keys
      (Configuration.mem_controlKeys_of_opens siblings usable bound opened)
  have offered (bound : RangeBound) (opened : gates.opens bound) (name : String)
      (limit : name ∈ bound.valueNames) : configuration.Offers bound.attr.browseName name :=
    Configuration.offers_of_opens siblings usable bound opened limit
  obtain ⟨lower, lowerRead⟩ : ∃ lower, loadPicker now model filters gates.eventTime.lower
      fromEventTime fromEventTimeValue (.ofLayout now layout) = .ok lower := by
    apply loadPicker_ok
    · exact shown .fromEventTime
    · intro opened
      exact served.instant (offered .fromEventTime opened fromEventTimeValue (by decide))
        (by decide)
  obtain ⟨upper, upperRead⟩ : ∃ upper, loadPicker now model filters gates.eventTime.upper
      toEventTime toEventTimeValue lower = .ok upper := by
    apply loadPicker_ok
    · exact shown .toEventTime
    · intro opened
      exact served.instant (offered .toEventTime opened toEventTimeValue (by decide)) (by decide)
  obtain ⟨controls, limitsRead⟩ : ∃ controls,
      loadTextBoxes model filters gates.severity upper = .ok controls := by
    apply loadTextBoxes_ok
    · exact shown .severity
    · intro opened
      exact served.number (offered .severity opened fromSeverity (by decide)) (by decide)
    · intro opened
      exact served.number (offered .severity opened toSeverity (by decide)) (by decide)
  exact ⟨_, load_eq_ok.mpr
    ⟨model, loaded, lower, upper, controls, found, read, lowerRead, upperRead, limitsRead, rfl⟩⟩

end Panel

/-- A panel saves values of the right types at places that its configuration offers. -/
theorem Panel.Follows.offered (follows : panel.Follows configuration names lexicon)
    (siblings : configuration.Distinct) {now : Instant} {write : Write}
    (member : write ∈ panel.writes now) :
    configuration.Offers write.attr write.name ∧ write.value.type = leafType write.name := by
  have offered (bound : RangeBound) (opened : panel.gates.opens bound) (name : String)
      (limit : name ∈ bound.valueNames) : configuration.Offers bound.attr.browseName name :=
    Configuration.offers_of_opens siblings follows.usable bound opened limit
  rcases mem_writes.mp member with checked | lower | upper | limit
  · obtain ⟨filter, listed, rfl⟩ := checked
    have shown : (filter.attr, filter.name) ∈ configuration.controlKeys := by
      rw [← follows.keys]
      exact List.mem_map_of_mem listed
    obtain ⟨offered, type⟩ := Configuration.offers_control siblings shown
    exact ⟨offered, type.symm⟩
  · obtain ⟨opened, rfl⟩ := lower
    exact ⟨offered .fromEventTime opened fromEventTimeValue (by decide), rfl⟩
  · obtain ⟨opened, rfl⟩ := upper
    exact ⟨offered .toEventTime opened toEventTimeValue (by decide), rfl⟩
  · obtain ⟨opened, name, listed, rfl⟩ := limit
    have types : ∀ name ∈ [fromSeverity, toSeverity], PropertyType.uint16 = leafType name := by
      decide
    exact ⟨offered .severity opened name listed, types name listed⟩

/-- Whether an edit model of a store serves a configuration. -/
structure Store.Serves (configuration : Configuration) (names : EditModelNames) (store : Store) :
    Prop where
  typed : store.Typed
  served : ∃ schema model, store.types.get? names.typeName = some schema ∧
    store.requireInstance names.editModel = .ok model ∧ configuration.ServedBy schema model

theorem Store.Serves.create {after : Store} {now : Instant} {report : ReconcileReport}
    (typed : store.Typed) (siblings : configuration.Distinct)
    (creation : store.create now names configuration = (after, .ok report)) :
    after.Serves configuration names := by
  have served := Configuration.ServedBy.sync (typed.schemaOf names) siblings
    (typed.modelOf names) now
  rcases store.create_cases names now configuration with ⟨_, _, _, created⟩ | ⟨_, _, created⟩
  · obtain ⟨rfl, _⟩ := Prod.mk.inj (created.symm.trans creation)
    exact {
      typed := typed.put names served.regular served.typed
      served := ⟨_, _, Store.types_put .., Store.requireInstance_put .., served⟩ }
  · exact absurd (Prod.mk.inj (created.symm.trans creation)).2 (by simp)

namespace Panel

theorem Follows.saved (follows : panel.Follows configuration names lexicon)
    (siblings : configuration.Distinct) (serves : panel.store.Serves configuration names)
    (now : Instant) :
    (panel.save now).2 = .ok () ∧ (panel.save now).1.store.Serves configuration names := by
  obtain ⟨schema, model, schemaFound, found, served⟩ := serves.served
  obtain ⟨changed, saved, after⟩ :=
    served.writeAll fun write (member : write ∈ panel.writes now) =>
      follows.offered siblings member
  rw [← follows.sameModel] at found
  rw [Panel.save, found]
  simp only [saved, follows.sameModel]
  exact ⟨rfl, {
    typed := serves.typed.putInstance names.editModel after.typed
    served := ⟨schema, changed, schemaFound, Store.requireInstance_putInstance .., after⟩ }⟩

theorem Used.serves (used : panel.Used configuration store names lexicon) (typed : store.Typed)
    (siblings : configuration.Distinct) : panel.store.Serves configuration names := by
  apply used.of_store siblings
  · exact fun now after report creation => .create typed siblings creation
  · exact fun panel follows now serves => (follows.saved siblings serves now).2

theorem openOn_ok (typed : store.Typed) (siblings : configuration.Distinct)
    (usable : configuration.rangeGates = .ok gates) (names : EditModelNames) (lexicon : Lexicon)
    (now : Instant) (current : CurrentQuery) :
    ∃ after panel, openOn now configuration store names lexicon current = (after, .ok panel) := by
  obtain ⟨layout, generated⟩ :=
    Layout.generate_ok siblings (Configuration.rangeGates_eq_ok.mp usable).2 lexicon
  obtain ⟨after, report, creation⟩ :
      ∃ after report, store.create now names configuration = (after, .ok report) := by
    rcases store.create_cases names now configuration with ⟨_, _, _, created⟩ | ⟨_, refused, _⟩
    · exact ⟨_, _, created⟩
    · exact absurd (usable.symm.trans refused) (by simp)
  obtain ⟨_, _, _, found, served⟩ := (Store.Serves.create typed siblings creation).served
  obtain ⟨panel, loading⟩ := load_ok served siblings usable generated found now current
  exact ⟨after, panel,
    openOn_eq_ok.mpr ⟨layout, report, gates, generated, creation, usable, loading⟩⟩

/-- A panel that does not open reports what its configuration lacks. -/
theorem openOn_error (typed : store.Typed) (siblings : configuration.Distinct) {now : Instant}
    {current : CurrentQuery} {error : Error}
    (refused : (openOn now configuration store names lexicon current).2 = .error error) :
    ∃ cause, error = .visibility cause ∨ error = .editModel (.visibility cause) := by
  cases usable : configuration.rangeGates with
  | ok gates =>
      obtain ⟨_, _, opened⟩ := openOn_ok typed siblings usable names lexicon now current
      simp [opened] at refused
  | error cause =>
      have creation : (store.create now names configuration).2 = .error (.visibility cause) := by
        rcases store.create_cases names now configuration with
          ⟨_, _, known, _⟩ | ⟨_, known, created⟩
        · exact absurd (usable.symm.trans known) (by simp)
        · obtain rfl := Except.error.inj (usable.symm.trans known)
          rw [created]
      rw [openOn] at refused
      cases generated : Layout.generate lexicon configuration with
      | error missing =>
          rw [generated] at refused
          exact ⟨missing, .inl (Except.error.inj refused).symm⟩
      | ok layout =>
          rw [generated] at refused
          generalize store.create now names configuration = outcome at creation refused
          obtain ⟨after, result⟩ := outcome
          obtain rfl : result = .error (.visibility cause) := creation
          exact ⟨cause, .inr (Except.error.inj refused).symm⟩

theorem apply_ne_editModel {now : Instant} (saved : (panel.save now).2 = .ok ())
    (error : EditModelError) : (panel.apply now).2 ≠ .error (.editModel error) := by
  rw [apply]
  split
  · next after _ =>
      rw [refresh]
      dsimp only
      split
      · rintro ⟨⟩
      · next cause _ => cases cause <;> rintro ⟨⟩
  · next result => simp [result] at saved

end Panel

/-- The stores that creating and deleting edit models, storing values in them and using panels lead
to, under any names and with any configurations without equal names among siblings. -/
inductive Store.Attained : Store → Prop where
  | empty : Attained .empty
  | created {store : Store} {configuration : Configuration} (now : Instant)
      (names : EditModelNames) :
      Attained store → configuration.Distinct → Attained (store.create now names configuration).1
  | deleted {store : Store} (names : EditModelNames) :
      Attained store → Attained (store.delete names)
  | stored {store : Store} {editModel attr name : String} {value : PropertyValue}
      {model changed : Instance} :
      Attained store → store.requireInstance editModel = .ok model →
      model.setValue attr name value = .ok changed →
      Attained (store.putInstance editModel changed)
  | closed {store : Store} {configuration : Configuration} {names : EditModelNames}
      {lexicon : Lexicon} {panel : Panel} :
      Attained store → configuration.Distinct →
      panel.Used configuration store names lexicon → Attained panel.store

theorem Store.Attained.typed (attained : store.Attained) : store.Typed := by
  induction attained with
  | empty => exact .empty
  | created now names _ siblings ih => exact ih.create siblings now names
  | deleted names _ ih => exact ih.delete names
  | stored _ found accepted ih =>
      rw [Store.requireInstance] at found
      split at found
      · next model known =>
          obtain rfl := Except.ok.inj found
          exact ih.putInstance _ (Instance.setValue_typed (ih.models _ model known) accepted)
      · exact absurd found (by simp)
  | closed _ siblings used ih => exact (used.serves ih siblings).typed

/-- On every store a panel opens exactly if its configuration can be used, and from then on its edit
model can always be saved. -/
theorem opens_and_saves (attained : store.Attained) (siblings : configuration.Distinct)
    (names : EditModelNames) (lexicon : Lexicon) :
    (∀ now current,
      ((∃ panel, (Panel.openOn now configuration store names lexicon current).2 = .ok panel) ↔
        (∃ flags, configuration.eventTime = .ok flags) ∧
          ∃ shows, configuration.showsSeverity = .ok shows) ∧
      ∀ error, (Panel.openOn now configuration store names lexicon current).2 = .error error →
        ∃ cause, error = .visibility cause ∨ error = .editModel (.visibility cause)) ∧
    ∀ panel : Panel, panel.Used configuration store names lexicon → ∀ now,
      (panel.save now).2 = .ok () ∧ (panel.unchecked.save now).2 = .ok () ∧
        ∀ error, (panel.apply now).2 ≠ .error (.editModel error) ∧
          (panel.clearAll now).2 ≠ .error (.editModel error) := by
  have typed := attained.typed
  refine ⟨fun now current => ⟨⟨?_, ?_⟩, ?_⟩, ?_⟩
  · intro given
    obtain ⟨panel, accepted⟩ := given
    obtain ⟨_, _, gates, _, _, usable, _⟩ := Panel.openOn_eq_ok.mp (Prod.ext rfl accepted)
    obtain ⟨times, levels⟩ := Configuration.rangeGates_eq_ok.mp usable
    exact ⟨⟨_, times⟩, _, levels⟩
  · intro given
    obtain ⟨⟨flags, times⟩, shows, levels⟩ := given
    have usable : configuration.rangeGates = .ok { eventTime := flags, severity := shows } :=
      Configuration.rangeGates_eq_ok.mpr ⟨times, levels⟩
    obtain ⟨_, panel, opened⟩ := Panel.openOn_ok typed siblings usable names lexicon now current
    exact ⟨panel, by rw [opened]⟩
  · exact fun error refused => Panel.openOn_error typed siblings refused
  · intro panel used now
    have follows := used.follows siblings
    have serves := used.serves typed siblings
    have saved := (follows.saved siblings serves now).1
    have cleared := (follows.unchecked.saved siblings serves now).1
    exact ⟨saved, cleared, fun error =>
      ⟨Panel.apply_ne_editModel saved error, Panel.apply_ne_editModel cleared error⟩⟩

/-- Two widgets had one edit model, and it was deleted with one of them. -/
def Store.halfDeleted (gone kept : EditModelNames) : Store :=
  ((Store.empty.create .unixEpoch gone .builtin).1.create .unixEpoch kept .builtin).1.delete gone

theorem opens_and_saves_halfDeleted :
    let kept : EditModelNames := { editModel := "Panel", widget := "Grid" }
    let gone : EditModelNames := { editModel := "Panel", widget := "Banner" }
    (Store.halfDeleted gone kept).Attained ∧ Configuration.builtin.Distinct ∧
      (Store.halfDeleted gone kept).instances.get? kept.editModel = none ∧
      ∃ panel, (Panel.openOn .unixEpoch .builtin (.halfDeleted gone kept) kept .empty .idle).2 =
          .ok panel ∧ (panel.save .unixEpoch).2 = .ok () := by
  intro kept gone
  have siblings : Configuration.builtin.Distinct := Configuration.builtin_grown.siblings
  have attained : (Store.halfDeleted gone kept).Attained :=
    .deleted gone (.created .unixEpoch kept (.created .unixEpoch gone .empty siblings) siblings)
  obtain ⟨opens, saves⟩ := opens_and_saves attained siblings kept .empty
  obtain ⟨panel, opened⟩ := (opens .unixEpoch .idle).1.mpr ⟨⟨_, rfl⟩, _, rfl⟩
  have erased : (Store.halfDeleted gone kept).instances.get? kept.editModel = none := by
    rw [Store.halfDeleted, Store.delete, Table.get?_erase]
    exact if_pos rfl
  exact ⟨attained, siblings, erased, panel, opened, (saves panel (.of_opened opened) .unixEpoch).1⟩

end AlarmView
