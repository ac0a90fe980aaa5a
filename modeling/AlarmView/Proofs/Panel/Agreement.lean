import AlarmView.Proofs.Panel.Session
import AlarmView.Proofs.Query.Selection
import AlarmView.Startup

/-!
# What a panel publishes and what its store gives

A panel compiles its filters in the order of the configuration and from its controls; the store
gives the same filters and limits in the order of its tree.  The selections differ only where the
checked upper bound of the event time has got in front of the checked lower bound in the tree.
-/

namespace AlarmView

open BrowseName Property FilterSet

variable {configuration : Configuration} {names : EditModelNames} {lexicon : Lexicon}
  {panel applied : Panel} {now : Instant}

namespace Panel

def checkedKeys (panel : Panel) : List (Attribute × String) :=
  (panel.filters.filters.filter (·.checked)).map fun filter => (filter.attr, filter.name)

/-- What applying a panel leaves in its store when it succeeds. -/
structure Saves (configuration : Configuration) (names : EditModelNames) (now : Instant)
    (panel applied : Panel) (schema : Property) (changed : Instance) : Prop where
  schemaFound : applied.store.types.get? names.typeName = some schema
  modelFound : applied.store.instances.get? names.editModel = some changed
  inLine : configuration.Matches schema changed
  stored : ∀ write ∈ panel.writes now,
    changed.stored? write.attr write.name = some write.value

private theorem Fits.saves (fits : panel.Fits configuration names lexicon)
    (wellFormed : configuration.WellFormed) (accepted : panel.apply now = (applied, .ok ())) :
    ∃ schema changed, Saves configuration names now panel applied schema changed := by
  obtain ⟨schema, model, schemaFound, modelFound, _, after⟩ := fits.saved now
  obtain ⟨other, changed, _, otherFound, written, _, rfl⟩ := apply_eq_ok accepted
  obtain rfl : model = other := Except.ok.inj (modelFound.symm.trans otherFound)
  rw [written] at after
  refine ⟨schema, changed, schemaFound, ?_, after, ?_⟩
  · rw [fits.sameModel]
    exact (Table.get?_insert ..).trans (if_pos rfl)
  · exact fun write member =>
      Instance.stored?_writeAll (distinct_writes fits.keys wellFormed.siblings now) written member

private theorem mem_checkedKeys {attr : Attribute} {name : String} :
    (attr, name) ∈ panel.checkedKeys ↔
      ∃ filter ∈ panel.filters.filters, filter.checked ∧ filter.attr = attr ∧
        filter.name = name := by
  simp [checkedKeys, and_assoc]

theorem checked_filters (fits : panel.Fits configuration names lexicon) :
    panel.filters.filters.filter (·.checked) =
      panel.checkedKeys.map fun key => .make lexicon key.1 key.2 true := by
  rw [checkedKeys, List.map_map]
  refine (List.map_id' _).symm.trans (List.map_congr_left fun filter member => ?_)
  obtain ⟨listed, checked⟩ := List.mem_filter.mp member
  have condition := fits.made filter listed
  obtain ⟨attr, name, _, _⟩ := filter
  simp_all [Filter.make]

private theorem stored?_filter {schema : Property} {changed : Instance}
    (saves : Saves configuration names now panel applied schema changed) {filter : Filter}
    (listed : filter ∈ panel.filters.filters) :
    changed.stored? filter.attr.browseName filter.name = some (.boolean filter.checked) :=
  saves.stored _ (mem_writes_of_filter listed now)

theorem mem_controlKeys_of_checked {schema : Property} {model : Instance}
    (inLine : configuration.Matches schema model) {attr : Attribute} {name : String}
    (free : isRangeValue name = false)
    (stored : model.stored? attr.browseName name = some (.boolean true)) :
    (attr, name) ∈ configuration.controlKeys := by
  have present : model.root.leafAt? attr.browseName name ≠ none := by
    intro absent
    simp [Instance.stored?, absent] at stored
  obtain ⟨flag, member, named, enabled, criterion, listed, shown, called⟩ :=
    (inLine.leafAt? attr.browseName_named name).mp present
  have own : name = criterion.name := Leaf.eq_of_mem_namesOf called free
  refine Configuration.mem_controlKeys.mpr ⟨flag, member, named, enabled, ?_⟩
  refine Flag.mem_controlNames.mpr ⟨criterion, listed, own.symm, shown, free, ?_⟩
  intro below
  by_contra other
  have logical : model.logical? (join BrowseName.severity name) = some (.boolean true) := by
    rw [named] at below
    rw [Instance.logical?, ← below,
      inLine.modelKept.sound.live?_join attr.browseName_named, stored]
    rfl
  exact absurd (inLine.modelKept.hidden name _ free other logical) (by simp)

/-- Exactly the checked filters of the panel are stored as checked. -/
theorem mem_checkedStates {schema : Property} {changed : Instance}
    (fits : panel.Fits configuration names lexicon)
    (saves : Saves configuration names now panel applied schema changed)
    {key : Attribute × String} : key ∈ checkedStates changed.root ↔ key ∈ panel.checkedKeys := by
  obtain ⟨attr, name⟩ := key
  have sound := saves.inLine.modelKept.sound
  rw [Property.mem_checkedStates sound.shaped.unique, ← Instance.stored?, mem_checkedKeys]
  constructor
  · intro given
    obtain ⟨free, stored⟩ := given
    have shown := mem_controlKeys_of_checked saves.inLine free stored
    rw [← fits.keys] at shown
    obtain ⟨filter, listed, same⟩ := List.mem_map.mp shown
    obtain ⟨rfl, rfl⟩ := Prod.mk.inj same
    rw [stored?_filter saves listed] at stored
    exact ⟨filter, listed, by simpa using stored, rfl, rfl⟩
  · intro given
    obtain ⟨filter, listed, checked, rfl, rfl⟩ := given
    have shown : (filter.attr, filter.name) ∈ configuration.controlKeys := by
      rw [← fits.keys]
      exact List.mem_map_of_mem listed
    obtain ⟨_, _, _, _, controlled⟩ := Configuration.mem_controlKeys.mp shown
    obtain ⟨_, _, _, _, free, _⟩ := Flag.mem_controlNames.mp controlled
    exact ⟨free, by rw [stored?_filter saves listed, checked]⟩

theorem perm_checked {schema : Property} {changed : Instance}
    (fits : panel.Fits configuration names lexicon) (wellFormed : configuration.WellFormed)
    (saves : Saves configuration names now panel applied schema changed) (later : Instant) :
    (panel.filters.filters.filter (·.checked)).Perm
      ((ofInstance lexicon later changed).filters.filter (·.checked)) := by
  rw [checked_filters fits, checked_ofInstance]
  refine List.Perm.map _ ((List.perm_ext_iff_of_nodup ?_ ?_).mpr fun key => ?_)
  · have distinct := Configuration.nodup_controlKeys wellFormed.siblings
    rw [← fits.keys] at distinct
    exact distinct.sublist (List.filter_sublist.map _)
  · exact saves.inLine.modelKept.sound.shaped.nodup_checkedStates
  · exact (mem_checkedStates fits saves).symm

private theorem owner_of_rangeKey {key : Attribute × String} (range : key ∈ rangeKeys)
    {attr criterion : String} (called : key.2 ∈ Leaf.namesOf attr criterion) :
    attr = key.1.browseName := by
  have ofTime : ∀ key ∈ rangeKeys, key.2 ∈ [fromEventTimeValue, toEventTimeValue] →
      eventTime = key.1.browseName := by decide +kernel
  have ofSeverity : ∀ key ∈ rangeKeys, key.2 ∈ [fromSeverity, toSeverity] →
      severity = key.1.browseName := by decide +kernel
  obtain ⟨free, own | ⟨rfl, _, value⟩ | ⟨rfl, _, value⟩ | ⟨rfl, _, value⟩⟩ :=
    Leaf.mem_namesOf.mp called
  · have reserved := isRangeValue_of_rangeKey range
    simp [own, free] at reserved
  · exact ofTime key range (by simp [value])
  · exact ofTime key range (by simp [value])
  · exact ofSeverity key range (by simpa using value)

theorem holds_rangeWrite {schema : Property} {changed : Instance}
    (saves : Saves configuration names now panel applied schema changed) {write : Write}
    (member : write ∈ panel.pickerWrites now ++ panel.severityWrites) (later : Instant) :
    Holds (ofInstance lexicon later changed).ranges write.name write.value := by
  have sound := saves.inLine.modelKept.sound
  have stored : changed.stored? write.attr write.name = some write.value := by
    apply saves.stored write
    rw [writes, List.append_assoc]
    exact List.mem_append_right _ member
  obtain ⟨key, range, attrName, name⟩ := key_of_rangeWrite member
  rw [attrName, name] at stored
  obtain ⟨leaf, found, value⟩ := Option.bind_eq_some_iff.mp stored
  obtain ⟨parent, parentFound, leafFound⟩ := Option.bind_eq_some_iff.mp found
  have leafName : leaf.name = key.2 := findNamed_name leafFound
  have type : write.value.type = leafType leaf.name := by
    have shape := (sound.shaped.child_isAttribute parentFound).leaves leaf (findNamed_mem leafFound)
    obtain ⟨own, ownValue, ownType⟩ := shape.value_ne_none
    rw [value] at ownValue
    exact (Option.some.inj ownValue) ▸ ownType
  have alone (other : Attribute) (different : other ≠ key.1) :
      changed.root.leafAt? other.browseName leaf.name = none := by
    by_contra present
    rw [leafName] at present
    obtain ⟨flag, _, named, _, criterion, _, _, called⟩ :=
      (saves.inLine.leafAt? other.browseName_named key.2).mp present
    exact different (Attribute.browseName_injective
      (named.symm.trans (owner_of_rangeKey range called)))
  have reserved := isRangeValue_of_rangeKey range
  rw [← leafName] at found reserved
  rw [name, ← leafName]
  exact sound.shaped.unique.holds_ofInstance found reserved value type alone lexicon later

private theorem holds_picker {schema : Property} {changed : Instance} {name value : String}
    (saves : Saves configuration names now panel applied schema changed)
    (member : { attr := eventTime, name := value,
                value := .dateTime ((panel.controls.instant? name).getD now), notices := [] } ∈
      panel.pickerWrites now) (later : Instant) :
    Holds (ofInstance lexicon later changed).ranges value
      (.dateTime ((panel.controls.instant? name).getD now)) :=
  holds_rangeWrite saves (List.mem_append_left _ member) later

private theorem holds_textBox {schema : Property} {changed : Instance} {name : String}
    (saves : Saves configuration names now panel applied schema changed)
    (enabled : panel.gates.severity = true) (shown : name ∈ [fromSeverity, toSeverity])
    (later : Instant) :
    Holds (ofInstance lexicon later changed).ranges name
      (.uint16 (panel.controls.severity name)) := by
  have member : { attr := severity, name, value := .uint16 (panel.controls.severity name),
                  notices := panel.controls.severityNotices name } ∈ panel.severityWrites := by
    rw [severityWrites, if_pos enabled]
    exact List.mem_map.mpr ⟨name, shown, rfl⟩
  exact holds_rangeWrite saves (List.mem_append_right _ member) later

/-- The store lets the same limits through as the panel, since a limit that is let through was
saved. -/
theorem through_ofInstance {schema : Property} {changed : Instance} (lexicon : Lexicon)
    (saves : Saves configuration names now panel applied schema changed) (later : Instant) :
    (ofInstance lexicon later changed).ranges.through panel.gates =
      (panel.controls.rangeInputs now).through panel.gates := by
  simp only [RangeInputs.through, OpenRanges.mk.injEq]
  refine ⟨?_, ?_, ?_⟩
  · split_ifs with enabled
    · have lower : (ofInstance lexicon later changed).ranges.fromEventTime =
          (panel.controls.rangeInputs now).fromEventTime := by
        apply holds_fromEventTime.mp (holds_picker saves _ later)
        simp [pickerWrites, enabled]
      rw [lower]
    · rfl
  · split_ifs with enabled
    · have upper : (ofInstance lexicon later changed).ranges.toEventTime =
          (panel.controls.rangeInputs now).toEventTime := by
        apply holds_toEventTime.mp (holds_picker saves _ later)
        simp [pickerWrites, enabled]
      rw [upper]
    · rfl
  · split_ifs with enabled
    · have least : (ofInstance lexicon later changed).ranges.fromSeverity =
          (panel.controls.rangeInputs now).fromSeverity :=
        holds_fromSeverity.mp (holds_textBox saves enabled (by simp) later)
      have greatest : (ofInstance lexicon later changed).ranges.toSeverity =
          (panel.controls.rangeInputs now).toSeverity :=
        holds_toSeverity.mp (holds_textBox saves enabled (by simp) later)
      rw [least, greatest]
    · rfl

theorem isBound_make (lexicon : Lexicon) (attr : Attribute) (name : String) (checked : Bool) :
    (Filter.make lexicon attr name checked).isBound = isBoundName name := by
  rw [Filter.isBound, Filter.make, Filter.conditionOf]
  cases found : RangeBound.ofBrowseName? name with
  | none =>
      have lower : name ≠ fromEventTime := by
        intro same
        subst same
        exact absurd found (by decide)
      have upper : name ≠ toEventTime := by
        intro same
        subst same
        exact absurd found (by decide)
      simp [isBoundName, lower, upper]
  | some bound =>
      obtain rfl : bound.browseName = name := by simpa using List.find?_some found
      cases bound <;> rfl

theorem checkedKeys_sublist (fits : panel.Fits configuration names lexicon) :
    panel.checkedKeys.Sublist configuration.controlKeys := by
  rw [← fits.keys]
  exact List.filter_sublist.map _

/-- A panel has its checked bounds in the order of time. -/
theorem boundsOf_panel (fits : panel.Fits configuration names lexicon)
    (grown : configuration.Grown) (inPlace : configuration.RangesInPlace) :
    (boundsOf panel.filters.filters).Sublist
      [.make lexicon .eventTime fromEventTime true, .make lexicon .eventTime toEventTime true] := by
  have ordered := (checkedKeys_sublist fits).filter fun key => isBoundName key.2
  have named := ordered.trans (Configuration.bounds_controlKeys grown inPlace)
  rw [boundsOf, checked_filters fits, List.filter_map]
  simp only [Function.comp_def, isBound_make]
  exact named.map fun key => Filter.make lexicon key.1 key.2 true

/-- The store gives the checked bounds in the order in which it has them below the event time. -/
theorem boundsOf_ofInstance {schema : Property} {changed : Instance}
    (fits : panel.Fits configuration names lexicon) (inPlace : configuration.RangesInPlace)
    (saves : Saves configuration names now panel applied schema changed) (later : Instant) :
    boundsOf (ofInstance lexicon later changed).filters =
      ((checkedNames changed.root .eventTime).filter isBoundName).map fun name =>
        .make lexicon .eventTime name true := by
  have distinct := saves.inLine.modelKept.sound.shaped.distinct
  have belowEventTime : ((checkedStates changed.root).filter fun key => isBoundName key.2) =
      ((checkedStates changed.root).filter (·.1 == .eventTime)).filter fun key =>
        isBoundName key.2 := by
    rw [List.filter_filter]
    apply List.filter_congr
    rintro ⟨attr, name⟩ member
    have shown := (checkedKeys_sublist fits).subset ((mem_checkedStates fits saves).mp member)
    by_cases bound : isBoundName name
    · simp [bound, Configuration.eventTime_of_bound inPlace shown bound]
    · simp [bound]
  rw [boundsOf, checked_ofInstance, List.filter_map]
  simp only [Function.comp_def, isBound_make]
  rw [belowEventTime, checkedStates_of_attr distinct, List.filter_map, List.map_map]
  rfl

end Panel

private theorem filter_isBoundName_iff {listed : List String} (distinct : listed.Nodup) :
    listed.filter isBoundName = [toEventTime, fromEventTime] ↔
      [toEventTime, fromEventTime].Sublist listed := by
  constructor
  · intro crossed
    rw [← crossed]
    exact List.filter_sublist
  · intro crossed
    have kept : [toEventTime, fromEventTime].Sublist (listed.filter isBoundName) :=
      crossed.filter isBoundName
    have within : listed.filter isBoundName ⊆ [toEventTime, fromEventTime] := by
      intro name member
      have bound := (List.mem_filter.mp member).2
      simp only [isBoundName, Bool.or_eq_true, beq_iff_eq] at bound
      rcases bound with rfl | rfl
      · exact List.mem_cons_of_mem _ List.mem_cons_self
      · exact List.mem_cons_self
    have short := ((distinct.filter isBoundName).subperm within).length_le
    exact (kept.eq_of_length_le short).symm

/-- Whether the checked upper bound of the event time stands in front of the checked lower bound. -/
def Instance.Crossed (model : Instance) : Prop :=
  [toEventTime, fromEventTime].Sublist (checkedNames model.root .eventTime)

instance (model : Instance) : Decidable model.Crossed :=
  inferInstanceAs (Decidable (List.Sublist _ _))

private theorem boundsOf_ofInstance_iff {schema : Property} {changed : Instance}
    (fits : panel.Fits configuration names lexicon) (inPlace : configuration.RangesInPlace)
    (saves : Panel.Saves configuration names now panel applied schema changed) (later : Instant) :
    boundsOf (ofInstance lexicon later changed).filters =
        [.make lexicon .eventTime toEventTime true, .make lexicon .eventTime fromEventTime true] ↔
      changed.Crossed := by
  have shaped := saves.inLine.modelKept.sound.shaped
  have named : Function.Injective fun name => Filter.make lexicon .eventTime name true :=
    fun first second same => congrArg Filter.name same
  rw [Panel.boundsOf_ofInstance fits inPlace saves, Instance.Crossed,
    ← filter_isBoundName_iff (shaped.nodup_checkedNames .eventTime)]
  exact (List.map_injective_iff.mpr named).eq_iff (b := [toEventTime, fromEventTime])

/-- The filters of the store are accepted if those of the panel are. -/
theorem Panel.compile_ofInstance {schema : Property} {changed : Instance}
    (fits : panel.Fits configuration names lexicon) (wellFormed : configuration.WellFormed)
    (saves : Panel.Saves configuration names now panel applied schema changed)
    (accepted : ∀ filter ∈ panel.filters.filters, filter.checked →
      ((panel.controls.rangeInputs now).through panel.gates).refusal? filter = none)
    (later : Instant) :
    (ofInstance lexicon later changed).compile configuration =
      .ok (((panel.controls.rangeInputs now).through panel.gates).queryOf
        (ofInstance lexicon later changed).filters) := by
  have limits := Panel.through_ofInstance lexicon saves later
  refine compile_eq_ok.mpr ⟨panel.gates, fits.usable, ?_, by rw [limits]⟩
  intro filter member checked
  have stored := List.mem_filter.mpr ⟨member, checked⟩
  have listed := (Panel.perm_checked fits wellFormed saves later).mem_iff.mpr stored
  rw [limits]
  exact accepted filter (List.mem_filter.mp listed).1 checked

/-- An edit model in line with its configuration is compiled as it is stored. -/
theorem startupQuery_of_settled {store : Store} {schema : Property} {model : Instance}
    {gates : RangeGates} (usable : configuration.rangeGates = .ok gates) (unique : schema.Unique)
    (settled : Schema.Settled configuration.attributes schema)
    (mirrors : schema.Mirrors model.root)
    (schemaFound : store.types.get? names.typeName = some schema)
    (modelFound : store.instances.get? names.editModel = some model) (now : Instant)
    (current : CurrentQuery) :
    (startupQuery now configuration store names lexicon current).2 =
      match (ofInstance lexicon now model).compile configuration with
      | .error error => .error (.ofQuery error)
      | .ok query => .ok (query, current.publish query) := by
  obtain ⟨report, creation⟩ :=
    Store.create_of_settled usable schemaFound modelFound unique settled mirrors now
  rw [startupQuery, creation]
  simp only [Store.requireInstance_put]
  cases (ofInstance lexicon now model).compile configuration <;> rfl

private theorem startupQuery_of_matches {store : Store} {schema : Property} {model : Instance}
    (inLine : configuration.Matches schema model) (wellFormed : configuration.WellFormed)
    (schemaFound : store.types.get? names.typeName = some schema)
    (modelFound : store.instances.get? names.editModel = some model) {now : Instant} {query : Query}
    (compiled : (ofInstance lexicon now model).compile configuration = .ok query)
    (current : CurrentQuery) :
    (startupQuery now configuration store names lexicon current).2 =
      .ok (query, current.publish query) := by
  obtain ⟨gates, usable⟩ := wellFormed.usable
  rw [startupQuery_of_settled usable inLine.schemaKept.shaped.unique inLine.settled inLine.mirrors
    schemaFound modelFound, compiled]

/-- Whatever has happened before, the query that a panel has published and the one that its store
gives select the same alarms exactly if the checked bounds of the event time have not crossed in the
store. -/
theorem apply_agrees_iff {store : Store} (reached : Reached configuration store)
    (used : panel.Used configuration store names lexicon) (inPlace : configuration.RangesInPlace)
    (accepted : panel.apply now = (applied, .ok ())) :
    ∃ model, applied.store.requireInstance names.editModel = .ok model ∧
      ∀ later current, ∃ query,
        (startupQuery later configuration applied.store names lexicon current).2 =
            .ok (query, current.publish query) ∧
          (applied.query.SameSelection query ↔ ¬ model.Crossed) := by
  obtain ⟨grown, kept⟩ := reached.invariant
  have fits := used.fits kept grown
  obtain ⟨schema, model, saves⟩ := fits.saves grown.wellFormed accepted
  refine ⟨model, by rw [Store.requireInstance, saves.modelFound], fun later current => ?_⟩
  obtain ⟨_, _, _, _, _, compiled, rfl⟩ := Panel.apply_eq_ok accepted
  obtain ⟨gates, usable, available, query⟩ := compile_eq_ok.mp compiled
  rw [fits.sameConfiguration, fits.usable] at usable
  obtain rfl := Except.ok.inj usable
  have stored := Panel.compile_ofInstance fits grown.wellFormed saves available later
  refine ⟨_, startupQuery_of_matches saves.inLine grown.wellFormed saves.schemaFound
    saves.modelFound stored current, ?_⟩
  have ordered := Panel.boundsOf_panel fits grown inPlace
  have moved := Panel.perm_checked fits grown.wellFormed saves later
  have lowerBound : (Filter.make lexicon .eventTime fromEventTime true).condition =
      .range .fromEventTime := rfl
  have upperBound : (Filter.make lexicon .eventTime toEventTime true).condition =
      .range .toEventTime := rfl
  rw [query, OpenRanges.sameSelection_iff available lowerBound upperBound rfl ordered moved]
  exact not_congr (boundsOf_ofInstance_iff fits inPlace saves later)

def EditModelNames.panelAndGrid : EditModelNames where
  editModel := "Panel"
  widget := "Grid"

def Configuration.withoutLowerBound : Configuration :=
  Configuration.builtin.updateAttribute BrowseName.eventTime (Flag.setChild fromEventTime false)

/-- A store from which the lower bound of the event time has been removed for a while. -/
def Store.withMovedBound (names : EditModelNames) : Store :=
  ((Store.empty.create .unixEpoch names .builtin).1.create .unixEpoch names .withoutLowerBound).1

def Panel.openWithBounds (store : Store) (names : EditModelNames) (lexicon : Lexicon) :
    Except Error Panel := do
  let panel ← (openOn .unixEpoch .builtin store names lexicon .idle).2
  let panel ← (panel.setChecked .eventTime fromEventTime true).mapError .filter
  (panel.setChecked .eventTime toEventTime true).mapError .filter

private theorem Reached.withMovedBound (names : EditModelNames) :
    Reached .builtin (.withMovedBound names) := by
  have hidden : Configuration.builtin.setEnabled eventTime (some fromEventTime) false =
      .ok .withoutLowerBound := by decide +kernel
  have shown : Configuration.withoutLowerBound.setEnabled eventTime (some fromEventTime) true =
      .ok .builtin := by decide +kernel
  exact .edited (.created .unixEpoch names
    (.edited (.created .unixEpoch names .start) hidden)) shown

private theorem Panel.Used.openWithBounds {store : Store}
    (opened : Panel.openWithBounds store names lexicon = .ok panel) :
    panel.Used .builtin store names lexicon := by
  obtain ⟨first, opening, opened⟩ := bind_eq_ok.mp opened
  obtain ⟨second, lower, upper⟩ := bind_eq_ok.mp opened
  exact ((of_opened opening).checked (mapError_eq_ok.mp lower)).checked (mapError_eq_ok.mp upper)

def Panel.crosses (names : EditModelNames) (panel : Panel) : Bool :=
  match panel.apply .unixEpoch with
  | (applied, .ok ()) =>
      (applied.store.requireInstance names.editModel).toOption.any fun model => decide model.Crossed
  | (_, .error _) => false

theorem apply_agrees_iff_movedBound :
    ∃ panel applied model,
      Panel.openWithBounds (.withMovedBound .panelAndGrid) .panelAndGrid .empty = .ok panel ∧
        panel.apply .unixEpoch = (applied, .ok ()) ∧
          applied.store.requireInstance "Panel" = .ok model ∧ model.Crossed ∧
            ∀ later current, ∃ query,
              (startupQuery later .builtin applied.store .panelAndGrid .empty current).2 =
                  .ok (query, current.publish query) ∧
                ¬ applied.query.SameSelection query := by
  have crosses : (Panel.openWithBounds (.withMovedBound .panelAndGrid) .panelAndGrid
      .empty).toOption.any (Panel.crosses .panelAndGrid) = true := by decide +kernel
  have inPlace : Configuration.builtin.RangesInPlace := by
    unfold Configuration.RangesInPlace
    decide +kernel
  generalize opened : Panel.openWithBounds (.withMovedBound .panelAndGrid) .panelAndGrid .empty =
    result at crosses
  cases result with
  | error error => exact absurd crosses Bool.false_ne_true
  | ok panel =>
      simp only [Except.toOption, Option.any_some, Panel.crosses] at crosses
      split at crosses
      · next applied accepted =>
          obtain ⟨model, stored, agrees⟩ :=
            apply_agrees_iff (.withMovedBound _) (.openWithBounds opened) inPlace accepted
          have crossed : model.Crossed := by simpa [stored] using crosses
          refine ⟨panel, applied, model, rfl, accepted, stored, crossed, ?_⟩
          intro later current
          obtain ⟨query, compiled, same⟩ := agrees later current
          exact ⟨query, compiled, fun selection => same.mp selection crossed⟩
      · exact absurd crosses Bool.false_ne_true

end AlarmView
