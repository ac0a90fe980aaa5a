import AlarmView.Proofs.Panel.Agreement
import AlarmView.Proofs.Panel.Opening
import AlarmView.Proofs.Panel.Tracing

/-!
# Clearing

Clearing a panel unchecks the filters that it shows, and it always succeeds.  The store selects all
alarms afterwards unless a criterion is stored as checked that the configuration does not list any
more: it is in the edit model, but the panel has no control for it.
-/

namespace AlarmView

open BrowseName Property FilterSet

variable {configuration : Configuration} {schema : Property} {model changed : Instance}
  {store : Store} {names : EditModelNames} {lexicon : Lexicon} {panel : Panel} {now : Instant}

private theorem Query.text_eq_baseText {query : Query} :
    query.text = baseText ↔ query.groups = [] := by
  rw [Query.text]
  split
  · next none => simp [none]
  · next some =>
      refine iff_of_false (fun same => ?_) some
      have lengths := congrArg String.length same
      simp only [String.length_append] at lengths
      have condition : " WHERE ".length = 7 := by decide +kernel
      omega

private theorem OpenRanges.queryOf_groups_eq_nil {ranges : OpenRanges} {filters : List Filter} :
    (ranges.queryOf filters).groups = [] ↔ filters.filter (·.checked) = [] := by
  rw [queryOf, List.map_eq_nil_iff, attributesOf_eq_nil]

theorem compile_of_unchecked {filters : List Filter} {gates : RangeGates}
    (unchecked : ∀ filter ∈ filters, filter.checked = false)
    (usable : configuration.rangeGates = .ok gates) (inputs : RangeInputs) :
    compile filters inputs configuration = .ok .selectAll := by
  have none : filters.filter (·.checked) = [] :=
    List.filter_eq_nil_iff.mpr fun filter member => by simp [unchecked filter member]
  refine compile_eq_ok.mpr ⟨gates, usable, ?_, ?_⟩
  · intro filter member checked
    simp [unchecked filter member] at checked
  · rw [OpenRanges.queryOf, none]
    rfl

/-- The query of a store selects all alarms exactly if no criterion is stored as checked. -/
theorem selectsAll_iff (served : configuration.ServedBy schema model) {gates : RangeGates}
    (usable : configuration.rangeGates = .ok gates)
    (schemaFound : store.types.get? names.typeName = some schema)
    (modelFound : store.requireInstance names.editModel = .ok model) (current : CurrentQuery) :
    (∃ query, (startupQuery now configuration store names lexicon current).2 =
        .ok (query, current.publish query) ∧ query.text = Query.baseText) ↔
      checkedStates model.root = [] := by
  have checked : checkedStates model.root = [] ↔
      (ofInstance lexicon now model).filters.filter (·.checked) = [] := by
    rw [checked_ofInstance, List.map_eq_nil_iff]
  rw [startupQuery_of_settled usable served.regular.unique served.settled served.mirrors schemaFound
    (Store.requireInstance_eq_ok.mp modelFound), checked]
  constructor
  · rintro ⟨query, started, all⟩
    split at started
    · cases started
    · next compiled =>
        cases started
        obtain ⟨_, _, _, rfl⟩ := compile_eq_ok.mp compiled
        exact OpenRanges.queryOf_groups_eq_nil.mp (Query.text_eq_baseText.mp all)
  · intro none
    have unchecked : ∀ filter ∈ (ofInstance lexicon now model).filters, filter.checked = false :=
      fun filter member => by simpa using List.filter_eq_nil_iff.mp none filter member
    rw [FilterSet.compile, compile_of_unchecked unchecked usable]
    exact ⟨.selectAll, rfl, rfl⟩

namespace Panel

private theorem place_notMem_writes {attr : Attribute} {name : String}
    (hidden : (attr, name) ∉ panel.keys)
    (free : isRangeValue name = false) (now : Instant) :
    (attr.browseName, name) ∉ (panel.writes now).map Write.place := by
  rw [writes, List.append_assoc, List.map_append, List.mem_append, places_checkedWrites]
  rintro (shown | range)
  · obtain ⟨key, keyShown, same⟩ := List.mem_map.mp shown
    obtain rfl : key = (attr, name) := placeOf_injective same
    exact hidden keyShown
  · obtain ⟨write, member, same⟩ := List.mem_map.mp range
    obtain ⟨_, rfl⟩ := Prod.mk.inj same
    exact Bool.false_ne_true (free.symm.trans (isRangeValue_of_mem member))

theorem checked_unchecked (panel : Panel) :
    ∀ filter ∈ panel.unchecked.filters.filters, filter.checked = false := by
  intro filter member
  obtain ⟨before, _, rfl⟩ := List.mem_map.mp member
  rfl

/-- Saving a panel without checked filters unchecks what it shows and nothing else. -/
theorem Follows.stored?_of_unchecked (follows : panel.Follows configuration names lexicon)
    (siblings : configuration.Distinct)
    (unchecked : ∀ filter ∈ panel.filters.filters, filter.checked = false)
    (written : model.writeAll (panel.writes now) = (changed, .ok ())) (attr : Attribute)
    {name : String} (free : isRangeValue name = false) :
    changed.stored? attr.browseName name =
      if (attr, name) ∈ configuration.controlKeys then some (.boolean false)
      else model.stored? attr.browseName name := by
  rw [← follows.keys]
  split
  · next shown =>
      obtain ⟨filter, listed, same⟩ := List.mem_map.mp shown
      obtain ⟨rfl, rfl⟩ := Prod.mk.inj same
      rw [Instance.stored?_writeAll (distinct_writes follows.keys siblings now) written
        (mem_writes_of_filter listed now), unchecked filter listed]
  · next hidden =>
      have kept : (model.writeAll (panel.writes now)).1.stored? attr.browseName name =
          model.stored? attr.browseName name :=
        Instance.stored?_writeAll_of_notMem (place_notMem_writes hidden free now)
      rwa [written] at kept

/-- A panel that can be saved without its checked filters can be cleared. -/
theorem Follows.clearAll_eq (follows : panel.Follows configuration names lexicon)
    (found : panel.store.requireInstance panel.editModel = .ok model)
    (written : model.writeAll (panel.unchecked.writes now) = (changed, .ok ())) :
    panel.clearAll now =
      ({ panel.unchecked with
          store := panel.store.putInstance panel.editModel changed
          filters := { panel.unchecked.filters with ranges := panel.controls.rangeInputs now }
          query := .selectAll
          current := panel.current.publish .selectAll }, .ok ()) := by
  have saved : panel.unchecked.save now = _ := save_eq_ok.mpr ⟨model, changed, found, written, rfl⟩
  have usable : panel.configuration.rangeGates = .ok panel.gates :=
    follows.sameConfiguration ▸ follows.usable
  rw [clearAll, Panel.apply, saved]
  exact refresh_eq_ok.mpr
    ⟨.selectAll, compile_of_unchecked panel.checked_unchecked usable _, rfl⟩

/-- What clearing leaves of an edit model that is stored as it was when the panel was opened. -/
theorem Follows.clearing (follows : panel.Follows configuration names lexicon)
    (siblings : configuration.Distinct) (served : configuration.ServedBy schema model)
    (schemaFound : panel.store.types.get? names.typeName = some schema)
    (modelFound : panel.store.requireInstance names.editModel = .ok model) (now : Instant) :
    ∃ cleared changed, panel.clearAll now = (cleared, .ok ()) ∧
      cleared.store.types.get? names.typeName = some schema ∧
      cleared.store.requireInstance names.editModel = .ok changed ∧
      configuration.ServedBy schema changed ∧
      changed.root.skeleton = model.root.skeleton ∧
      ∀ attr : Attribute, ∀ name, isRangeValue name = false →
        changed.stored? attr.browseName name =
          if (attr, name) ∈ configuration.controlKeys then some (.boolean false)
          else model.stored? attr.browseName name := by
  have later := follows.unchecked
  obtain ⟨changed, written, after⟩ :=
    served.writeAll fun write (member : write ∈ panel.unchecked.writes now) =>
      later.offered siblings member
  have found : panel.store.requireInstance panel.editModel = .ok model := by
    rwa [follows.sameModel]
  refine ⟨_, changed, follows.clearAll_eq found written, schemaFound, ?_, after, ?_, ?_⟩
  · rw [← follows.sameModel]
    exact Store.requireInstance_putInstance ..
  · have same := Instance.skeleton_writeAll model (panel.unchecked.writes now)
    rwa [written] at same
  · intro attr name free
    exact later.stored?_of_unchecked siblings panel.checked_unchecked written attr free

/-- After clearing a panel its store selects all alarms exactly if the panel has shown everything
that was stored as checked. -/
theorem Follows.clears_iff (follows : panel.Follows configuration names lexicon)
    (siblings : configuration.Distinct) (served : configuration.ServedBy schema model)
    (unique : model.root.Unique)
    (schemaFound : panel.store.types.get? names.typeName = some schema)
    (modelFound : panel.store.requireInstance names.editModel = .ok model) (now : Instant) :
    ∃ cleared, panel.clearAll now = (cleared, .ok ()) ∧
      ∀ later current,
        ((∃ query, (startupQuery later configuration cleared.store names lexicon current).2 =
            .ok (query, current.publish query) ∧ query.text = Query.baseText) ↔
          ∀ key ∈ checkedStates model.root, key ∈ configuration.controlKeys) := by
  obtain ⟨cleared, changed, accepted, changedSchema, changedModel, after, skeleton, stored⟩ :=
    follows.clearing siblings served schemaFound modelFound now
  have changedUnique : changed.root.Unique := (unique_congr skeleton).mpr unique
  refine ⟨cleared, accepted, fun later current => ?_⟩
  rw [selectsAll_iff after follows.usable changedSchema changedModel]
  constructor
  · rintro none ⟨attr, name⟩ checked
    obtain ⟨free, before⟩ := (Property.mem_checkedStates unique).mp checked
    by_contra hidden
    have still := stored attr name free
    rw [if_neg hidden] at still
    have remains : (attr, name) ∈ checkedStates changed.root :=
      (Property.mem_checkedStates changedUnique).mpr ⟨free, still.trans before⟩
    rw [none] at remains
    exact absurd remains List.not_mem_nil
  · intro shown
    refine List.eq_nil_iff_forall_not_mem.mpr ?_
    rintro ⟨attr, name⟩ checked
    obtain ⟨free, remains⟩ := (Property.mem_checkedStates changedUnique).mp checked
    have now := stored attr name free
    rw [Instance.stored?, remains] at now
    split at now
    · exact absurd now (by simp)
    · next hidden =>
        exact hidden (shown _ ((Property.mem_checkedStates unique).mpr ⟨free, now.symm⟩))

end Panel

/-- Whether a criterion is no other one below the severity than its own. -/
def ShownSeverity (attr : Attribute) (name : String) : Prop :=
  attr = .severity → name = BrowseName.severity

private theorem Panel.Follows.shownSeverity (follows : panel.Follows configuration names lexicon)
    (siblings : configuration.Distinct) {filter : Filter}
    (member : filter ∈ panel.filters.filters) : ShownSeverity filter.attr filter.name := by
  have shown : (filter.attr, filter.name) ∈ configuration.controlKeys := by
    rw [← follows.keys]
    exact List.mem_map_of_mem member
  exact ((Configuration.mem_controlKeys_iff siblings).mp shown).2.2

namespace Store

theorem Traced.used (traced : store.Traced ShownSeverity) (siblings : configuration.Distinct)
    (used : panel.Used configuration store names lexicon) :
    panel.store.Traced ShownSeverity := by
  apply used.of_store siblings
  · intro now after report creation
    have created := traced.create siblings now names
    rwa [creation] at created
  · intro panel follows now traced
    exact traced.save (fun filter member _ => follows.shownSeverity siblings member) now

/-- The stores that creating and deleting edit models and using panels lead to, under any names and
with any configurations without equal names among siblings. -/
inductive Worked : Store → Prop where
  | empty : Worked .empty
  | created {store : Store} {configuration : Configuration} (now : Instant)
      (names : EditModelNames) :
      Worked store → configuration.Distinct → Worked (store.create now names configuration).1
  | deleted {store : Store} (names : EditModelNames) : Worked store → Worked (store.delete names)
  | closed {store : Store} {configuration : Configuration} {names : EditModelNames}
      {lexicon : Lexicon} {panel : Panel} :
      Worked store → configuration.Distinct → panel.Used configuration store names lexicon →
      Worked panel.store

namespace Worked

theorem attained (worked : store.Worked) : store.Attained := by
  induction worked with
  | empty => exact .empty
  | created now names _ siblings ih => exact .created now names ih siblings
  | deleted names _ ih => exact .deleted names ih
  | closed _ siblings used ih => exact .closed ih siblings used

private theorem traced (worked : store.Worked) : store.Traced ShownSeverity := by
  induction worked with
  | empty => exact .empty
  | created now names _ siblings ih => exact ih.create siblings now names
  | deleted names _ ih => exact ih.delete names
  | closed _ siblings used ih => exact ih.used siblings used

end Worked

end Store

/-- A criterion that is stored is enabled if the configuration lists it at all. -/
theorem Configuration.ServedBy.enables_iff_lists (served : configuration.ServedBy schema model)
    (siblings : configuration.Distinct) {attr name : String} (free : isRangeValue name = false)
    {leaf : Property} (found : model.root.leafAt? attr name = some leaf) :
    configuration.Enables attr name ↔ configuration.Lists attr name := by
  constructor
  · intro enabled
    have own : name ∈ Leaf.namesOf attr name := Leaf.mem_namesOf.mpr ⟨free, .inl rfl⟩
    exact ((offers_iff siblings).mpr ⟨name, enabled, own⟩).lists
  · intro listed
    obtain ⟨wanted, wantedFound⟩ := served.mirrors.leafAt?_schema served.regular.unique found
    have offered := Schema.offers_of_leafAt? served.settled wantedFound listed
    obtain ⟨criterion, enabled, called⟩ := (offers_iff siblings).mp offered
    rwa [Leaf.eq_of_mem_namesOf called free]

/-- Clearing a panel always succeeds, and the query of its store is then the one for all alarms
exactly if the configuration still lists every criterion that was stored as checked. -/
theorem clearAll_clears_iff (worked : store.Worked) (siblings : configuration.Distinct)
    (used : panel.Used configuration store names lexicon) (now : Instant) :
    ∃ cleared model, panel.clearAll now = (cleared, .ok ()) ∧
      panel.store.requireInstance names.editModel = .ok model ∧
      ∀ later current,
        ((∃ query, (startupQuery later configuration cleared.store names lexicon current).2 =
            .ok (query, current.publish query) ∧ query.text = "SELECT * FROM Model") ↔
          ∀ key ∈ checkedStates model.root, configuration.Lists key.1.browseName key.2) := by
  obtain ⟨schema, model, schemaFound, modelFound, served⟩ :=
    (used.serves worked.attained.typed siblings).served
  have traced := (worked.traced.used siblings used).models _ model
    (Store.requireInstance_eq_ok.mp modelFound)
  obtain ⟨cleared, accepted, clears⟩ :=
    (used.follows siblings).clears_iff siblings served traced.unique schemaFound modelFound now
  refine ⟨cleared, model, accepted, modelFound, fun later current => ?_⟩
  refine (clears later current).trans ?_
  refine forall₂_congr fun key checked => ?_
  obtain ⟨attr, name⟩ := key
  obtain ⟨free, stored⟩ := (Property.mem_checkedStates traced.unique).mp checked
  obtain ⟨leaf, found, _⟩ := Option.bind_eq_some_iff.mp stored
  rw [Configuration.mem_controlKeys_iff siblings, served.enables_iff_lists siblings free found]
  constructor
  · rintro ⟨listed, _, _⟩
    exact listed
  · intro listed
    exact ⟨listed, free, traced.of_checked stored⟩

/-- A configuration with one criterion besides the ranges. -/
def Configuration.withUrgent : Configuration where
  attributes :=
    [.ofChildren "EventTime" true ["FromEventTime", "ToEventTime"],
      .ofChildren "Severity" true ["Severity"], .ofChildren "Priority" true ["Urgent"]]

/-- The configuration without this criterion and its attribute. -/
def Configuration.rangesOnly : Configuration where
  attributes :=
    [.ofChildren "EventTime" true ["FromEventTime", "ToEventTime"],
      .ofChildren "Severity" true ["Severity"]]

/-- A panel in which the criterion was checked and applied. -/
def Panel.urgentApplied (names : EditModelNames) (lexicon : Lexicon) : Except Error Panel := do
  let panel ← (openOn .unixEpoch .withUrgent .empty names lexicon .idle).2
  let panel ← (panel.setChecked .priority "Urgent" true).mapError .filter
  return (panel.apply .unixEpoch).1

/-- A panel opened without the criterion after it was applied. -/
def Panel.urgentDropped (names : EditModelNames) (lexicon : Lexicon) : Except Error Panel := do
  let panel ← urgentApplied names lexicon
  (openOn .unixEpoch .rangesOnly panel.store names lexicon .idle).2

private theorem Panel.Used.urgentApplied (applied : Panel.urgentApplied names lexicon = .ok panel) :
    panel.Used .withUrgent .empty names lexicon := by
  obtain ⟨first, opened, applied⟩ := bind_eq_ok.mp applied
  obtain ⟨second, checked, applied⟩ := bind_eq_ok.mp applied
  obtain rfl := Except.ok.inj applied
  exact ((of_opened opened).checked (mapError_eq_ok.mp checked)).applied .unixEpoch

def Panel.keepsUrgent (names : EditModelNames) (panel : Panel) : Bool :=
  (panel.store.requireInstance names.editModel).toOption.any fun model =>
    decide ((.priority, "Urgent") ∈ checkedStates model.root)

theorem clearAll_clears_iff_urgentDropped :
    ∃ (store : Store) (panel : Panel), store.Worked ∧ Configuration.rangesOnly.Distinct ∧
      panel.Used .rangesOnly store .panelAndGrid .empty ∧
      ∃ cleared, panel.clearAll .unixEpoch = (cleared, .ok ()) ∧ ∀ later current,
        ¬ ∃ query, (startupQuery later .rangesOnly cleared.store .panelAndGrid .empty current).2 =
          .ok (query, current.publish query) ∧ query.text = "SELECT * FROM Model" := by
  have kept : (Panel.urgentDropped .panelAndGrid .empty).toOption.any
      (Panel.keepsUrgent .panelAndGrid) = true := by decide +kernel
  generalize dropped : Panel.urgentDropped .panelAndGrid .empty = result at kept
  cases result with
  | error error => exact absurd kept Bool.false_ne_true
  | ok panel =>
      obtain ⟨before, applied, opened⟩ := bind_eq_ok.mp dropped
      have worked : before.store.Worked :=
        .closed .empty (by decide +kernel) (.urgentApplied applied)
      have siblings : Configuration.rangesOnly.Distinct := by decide +kernel
      have used := Panel.Used.of_opened opened
      obtain ⟨cleared, model, accepted, found, clears⟩ :=
        clearAll_clears_iff worked siblings used .unixEpoch
      refine ⟨before.store, panel, worked, siblings, used, cleared, accepted, ?_⟩
      intro later current all
      have stored : (.priority, "Urgent") ∈ checkedStates model.root := by
        simp only [Except.toOption, Option.any_some, Panel.keepsUrgent, found] at kept
        exact of_decide_eq_true kept
      obtain ⟨flag, member, named, _⟩ := (clears later current).mp all _ stored
      have unlisted : ∀ flag ∈ Configuration.rangesOnly.attributes,
          flag.name ≠ Attribute.priority.browseName := by decide +kernel
      exact unlisted flag member named

private theorem Reached.worked (reached : Reached configuration store) : store.Worked := by
  induction reached with
  | start => exact .empty
  | edited _ _ ih => exact ih
  | created now names earlier ih => exact .created now names ih earlier.invariant.1.siblings
  | closed earlier used ih => exact .closed ih earlier.invariant.1.siblings used

/-- Where parts of the configuration are only switched on and off, nothing stays checked. -/
theorem Reached.clears (reached : Reached configuration store)
    (used : panel.Used configuration store names lexicon) (now : Instant) :
    ∃ cleared, panel.clearAll now = (cleared, .ok ()) ∧
      ∀ later current, ∃ query,
        (startupQuery later configuration cleared.store names lexicon current).2 =
            .ok (query, current.publish query) ∧ query.text = Query.baseText := by
  obtain ⟨grown, kept⟩ := reached.invariant
  have siblings := grown.siblings
  obtain ⟨schema, model, schemaFound, modelFound, served⟩ :=
    (used.serves reached.worked.attained.typed siblings).served
  obtain ⟨_, other, _, otherFound, inLine⟩ := (used.fits kept grown).inLine.matched
  obtain rfl : model = other :=
    Option.some.inj ((Store.requireInstance_eq_ok.mp modelFound).symm.trans otherFound)
  have unique := inLine.modelKept.sound.shaped.unique
  obtain ⟨cleared, accepted, clears⟩ :=
    (used.follows siblings).clears_iff siblings served unique schemaFound modelFound now
  refine ⟨cleared, accepted, fun later current => (clears later current).mpr ?_⟩
  rintro ⟨attr, name⟩ checked
  obtain ⟨free, stored⟩ := (Property.mem_checkedStates unique).mp checked
  exact Panel.mem_controlKeys_of_checked inLine free stored

end AlarmView
