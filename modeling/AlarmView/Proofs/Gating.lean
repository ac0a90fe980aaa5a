import AlarmView.Proofs.Panel.Reopening
import AlarmView.Proofs.Workspace.Startup
import Mathlib.Data.List.TFAE

/-!
# The gates of the ranges

A range can be used exactly if its attribute and its criterion are enabled, and every component
decides so: what the configuration reports, the rows of the panel, the controls made from them, the
nodes of the edit model and the compiler of queries agree, whatever nodes were there before.
-/

namespace AlarmView

open BrowseName Property

variable {configuration : Configuration} {lexicon : Lexicon} {gates : RangeGates}
  {bound : RangeBound} {layout : Layout} {now : Instant}

/-- Whether a configuration reports a range as usable. -/
def Configuration.Reports (configuration : Configuration) : RangeBound → Prop
  | .fromEventTime => ∃ flags, configuration.eventTime = .ok flags ∧ flags.lower
  | .toEventTime => ∃ flags, configuration.eventTime = .ok flags ∧ flags.upper
  | .severity => configuration.showsSeverity = .ok true

/-- Whether the criterion of a range and its attribute are both enabled. -/
def Configuration.Gates (configuration : Configuration) (bound : RangeBound) : Prop :=
  configuration.Enables bound.attr.browseName bound.browseName

namespace Configuration

private theorem reports_iff (usable : configuration.rangeGates = .ok gates) :
    configuration.Reports bound ↔ configuration.Gates bound := by
  rw [Gates, ← opens_iff usable]
  obtain ⟨times, levels⟩ := rangeGates_eq_ok.mp usable
  cases bound with
  | fromEventTime => simp [Reports, times, RangeGates.opens]
  | toEventTime => simp [Reports, times, RangeGates.opens]
  | severity => simp [Reports, levels, RangeGates.opens]

end Configuration

/-- Whether a control is the row of a range. -/
def RangeBound.HasRow (bound : RangeBound) (control : Control) : Prop :=
  match bound with
  | .fromEventTime | .toEventTime => ∃ label, control = .dateTimeRow bound.browseName label
  | .severity => ∃ lower upper, control = .severityRow bound.browseName lower upper

/-- Whether controls have the pickers or text boxes for the limits of a range. -/
def Controls.Registers (controls : Controls) : RangeBound → Prop
  | .fromEventTime => (controls.instant? fromEventTime).isSome
  | .toEventTime => (controls.instant? toEventTime).isSome
  | .severity => (controls.text? fromSeverity).isSome ∧ (controls.text? toSeverity).isSome

namespace Layout

/-- A row of a time stands below the event time, and the row of the severities below the
severity. -/
theorem attr_of_row (generated : generate lexicon configuration = .ok layout) {attr : Attribute}
    {control : Control} (member : (attr, control) ∈ layout.controls) :
    (∀ name label, control = .dateTimeRow name label → attr = .eventTime) ∧
      ∀ name lower upper, control = .severityRow name lower upper →
        attr = .severity ∧ name = BrowseName.severity := by
  obtain ⟨flag, controls, named, made, listed⟩ := exists_of_mem_controls generated member
  have own {other : Attribute} (same : flag.name = other.browseName) : attr = other :=
    Attribute.browseName_injective (named.trans same)
  rw [controlsOf] at made
  split at made
  · next time =>
      obtain rfl := Except.ok.inj made
      obtain ⟨name, _, rfl⟩ := List.mem_map.mp listed
      exact ⟨fun _ _ _ => own time, fun _ _ _ other => by simp at other⟩
  · split at made
    · next level =>
        obtain ⟨criterion, found, made⟩ := bind_eq_ok.mp made
        split at made
        · obtain rfl := Except.ok.inj made
          obtain rfl := List.mem_singleton.mp listed
          refine ⟨fun _ _ other => by simp at other, fun name _ _ same => ⟨own level, ?_⟩⟩
          obtain ⟨rfl, _, _⟩ := Control.severityRow.inj same
          exact (mem_of_getChild found).2
        · obtain rfl := Except.ok.inj made
          exact absurd listed List.not_mem_nil
    · obtain rfl := Except.ok.inj made
      obtain ⟨name, _, rfl⟩ := List.mem_map.mp listed
      exact ⟨fun _ _ other => by simp at other, fun _ _ _ other => by simp at other⟩

/-- A layout has the row of a range exactly if the criterion of the range is enabled. -/
theorem hasRow_iff (siblings : configuration.Distinct)
    (generated : generate lexicon configuration = .ok layout) :
    (∃ control, (bound.attr, control) ∈ layout.controls ∧ bound.HasRow control) ↔
      configuration.Gates bound := by
  have shown : (bound.attr, bound.browseName) ∈ layout.keys ↔ configuration.Gates bound := by
    have free : isRangeValue bound.browseName = false ∧
        (bound.attr = .severity → bound.browseName = BrowseName.severity) := by
      cases bound <;> decide
    rw [keys_generate siblings generated, Configuration.mem_controlKeys_iff siblings,
      and_iff_left free, Configuration.Gates]
  rw [← shown]
  constructor
  · intro given
    obtain ⟨control, member, row⟩ := given
    have named : control.name = bound.browseName := by
      cases bound with
      | fromEventTime | toEventTime =>
          obtain ⟨_, rfl⟩ := row
          rfl
      | severity =>
          obtain ⟨_, _, rfl⟩ := row
          rfl
    exact named ▸ List.mem_map_of_mem (f := fun key => (key.1, key.2.name)) member
  · intro listed
    obtain ⟨control, member, named⟩ := Controls.exists_control listed
    obtain ⟨flag, controls, attrNamed, made, below⟩ := exists_of_mem_controls generated member
    have row := row_of_controlsOf attrNamed made below
    refine ⟨control, member, ?_⟩
    cases bound with
    | fromEventTime | toEventTime =>
        obtain ⟨_, label, rfl⟩ := row.1 rfl
        exact ⟨label, congrArg (Control.dateTimeRow · label) named⟩
    | severity =>
        obtain ⟨_, lower, upper, rfl⟩ := row.2 rfl
        exact ⟨lower, upper, congrArg (Control.severityRow · lower upper) named⟩

end Layout

namespace Controls

/-- The controls of a layout have the pickers or text boxes of a range exactly if it has the row of
the range. -/
theorem registers_iff (generated : Layout.generate lexicon configuration = .ok layout) :
    (ofLayout now layout).Registers bound ↔
      ∃ control, (bound.attr, control) ∈ layout.controls ∧ bound.HasRow control := by
  have attrOf {attr : Attribute} {control : Control}
      (member : (attr, control) ∈ layout.controls) := Layout.attr_of_row generated member
  cases bound with
  | fromEventTime | toEventTime =>
      rw [Registers, instant?_ofLayout_iff]
      constructor
      · rintro ⟨label, attr, member⟩
        obtain rfl := (attrOf member).1 _ label rfl
        exact ⟨_, member, label, rfl⟩
      · rintro ⟨_, member, label, rfl⟩
        exact ⟨label, _, member⟩
  | severity =>
      rw [Registers, text?_ofLayout_iff]
      constructor
      · rintro ⟨attr, name, lower, upper, member⟩
        obtain ⟨rfl, rfl⟩ := (attrOf member).2 name lower upper rfl
        exact ⟨_, member, lower, upper, rfl⟩
      · rintro ⟨_, member, lower, upper, rfl⟩
        exact ⟨_, _, lower, upper, member⟩

end Controls

/-- The nodes of a range below its attribute: that of its criterion and those of its limits. -/
def RangeBound.nodeNames (bound : RangeBound) : List String :=
  bound.browseName :: bound.valueNames

theorem RangeBound.namesOf_browseName (bound : RangeBound) :
    Leaf.namesOf bound.attr.browseName bound.browseName = bound.nodeNames := by
  cases bound <;> decide

/-- No other criterion calls for a node of a range. -/
theorem RangeBound.eq_of_mem_nodeNames {name criterion : String} (own : name ∈ bound.nodeNames)
    (called : name ∈ Leaf.namesOf bound.attr.browseName criterion) :
    criterion = bound.browseName := by
  obtain ⟨free, same | lower | upper | limit⟩ := Leaf.mem_namesOf.mp called
  · subst same
    rcases List.mem_cons.mp own with named | limit
    · exact named
    · have kept : ∀ value ∈ bound.valueNames, isRangeValue value = true := by
        cases bound <;> decide
      exact absurd ((kept name limit).symm.trans free) (by decide)
  · obtain ⟨time, rfl, rfl⟩ := lower
    revert own time
    cases bound <;> decide
  · obtain ⟨time, rfl, rfl⟩ := upper
    revert own time
    cases bound <;> decide
  · obtain ⟨level, rfl, _⟩ := limit
    revert level
    cases bound <;> decide

namespace Configuration

private theorem offers_iff_gates (siblings : configuration.Distinct) {name : String}
    (own : name ∈ bound.nodeNames) :
    configuration.Offers bound.attr.browseName name ↔ configuration.Gates bound := by
  rw [offers_iff siblings]
  constructor
  · intro given
    obtain ⟨criterion, enables, called⟩ := given
    rw [Gates, ← RangeBound.eq_of_mem_nodeNames own called]
    exact enables
  · intro enables
    exact ⟨bound.browseName, enables, bound.namesOf_browseName ▸ own⟩

/-- A usable configuration has the attribute of every range, and the criterion of the range if the
attribute is enabled. -/
theorem exists_attribute (usable : configuration.rangeGates = .ok gates) (bound : RangeBound) :
    ∃ flag, configuration.attribute? bound.attr.browseName = some flag ∧
      (flag.enabled → ∃ criterion, flag.child? bound.browseName = some criterion) := by
  obtain ⟨times, levels⟩ := rangeGates_eq_ok.mp usable
  obtain ⟨time, timeRequired, times⟩ := bind_eq_ok.mp times
  obtain ⟨level, levelRequired, levels⟩ := bind_eq_ok.mp levels
  have bounds (enabled : time.enabled) :
      ∃ lower upper, time.child? fromEventTime = some lower ∧
        time.child? toEventTime = some upper := by
    rw [if_pos enabled] at times
    obtain ⟨lower, lowerFound, times⟩ := bind_eq_ok.mp times
    obtain ⟨upper, upperFound, _⟩ := bind_eq_ok.mp times
    exact ⟨lower, upper, Flag.getChild_eq_ok.mp lowerFound, Flag.getChild_eq_ok.mp upperFound⟩
  cases bound with
  | fromEventTime =>
      refine ⟨time, requireAttribute_eq_ok.mp timeRequired, fun enabled => ?_⟩
      obtain ⟨lower, _, found, _⟩ := bounds enabled
      exact ⟨lower, found⟩
  | toEventTime =>
      refine ⟨time, requireAttribute_eq_ok.mp timeRequired, fun enabled => ?_⟩
      obtain ⟨_, upper, _, found⟩ := bounds enabled
      exact ⟨upper, found⟩
  | severity =>
      obtain ⟨criterion, found, _⟩ := bind_eq_ok.mp levels
      exact ⟨level, requireAttribute_eq_ok.mp levelRequired, fun _ =>
        ⟨criterion, Flag.getChild_eq_ok.mp found⟩⟩

end Configuration

/-- A settled schema has each node of a range exactly if the criterion of the range is enabled. -/
theorem Schema.leafAt?_iff_gates (siblings : configuration.Distinct)
    (usable : configuration.rangeGates = .ok gates) {schema : Property}
    (settled : Settled configuration.attributes schema) {name : String}
    (own : name ∈ bound.nodeNames) :
    schema.leafAt? bound.attr.browseName name ≠ none ↔ configuration.Gates bound := by
  rw [← Configuration.offers_iff_gates siblings own]
  constructor
  · intro present
    obtain ⟨leaf, found⟩ := Option.ne_none_iff_exists'.mp present
    obtain ⟨group, groupFound, _⟩ := Option.bind_eq_some_iff.mp found
    obtain ⟨flag, flagFound, exists_criterion⟩ := Configuration.exists_attribute usable bound
    have member : flag ∈ configuration.attributes := List.mem_of_find?_eq_some flagFound
    have named : flag.name = bound.attr.browseName := by simpa using List.find?_some flagFound
    have state := settled flag member
    rw [named] at state
    split at state
    · next enabled =>
        obtain ⟨criterion, below⟩ := exists_criterion enabled
        have criterionNamed : criterion.name = bound.browseName := by
          simpa using List.find?_some below
        refine offers_of_leafAt? settled found
          ⟨flag, member, named, criterion, List.mem_of_find?_eq_some below, ?_⟩
        rw [named, criterionNamed, bound.namesOf_browseName]
        exact own
    · exact absurd (state.symm.trans groupFound) (by simp)
  · intro offered
    obtain ⟨leaf, found⟩ := leafAt?_of_offers settled offered
    simp [found]

private theorem Property.Mirrors.leafAt?_iff {schema root : Property}
    (mirrors : schema.Mirrors root)
    (unique : schema.Unique) {attr name : String} :
    root.leafAt? attr name ≠ none ↔ schema.leafAt? attr name ≠ none := by
  simp only [Option.ne_none_iff_exists']
  constructor
  · intro present
    obtain ⟨leaf, found⟩ := present
    exact mirrors.leafAt?_schema unique found
  · intro present
    obtain ⟨wanted, found⟩ := present
    obtain ⟨leaf, rootFound, _⟩ := mirrors.leafAt? unique found
    exact ⟨leaf, rootFound⟩

/-- A checked filter of a range is accepted exactly if the criterion of the range is enabled. -/
theorem compile_range_iff (usable : configuration.rangeGates = .ok gates) {filter : Filter}
    (ofRange : filter.condition = .range bound) (checked : filter.checked) (ranges : RangeInputs) :
    (∀ name, compile [filter] ranges configuration ≠ .error (.filter (.rangeDisabled name))) ↔
      configuration.Gates bound := by
  have hasCondition : filter.condition ≠ .fragment "" := by simp [ofRange]
  rw [Configuration.Gates, ← Configuration.opens_iff usable]
  constructor
  · intro accepted
    by_contra closed
    have refused : (ranges.through gates).refusal? filter = some (.rangeDisabled filter.name) :=
      (RangeInputs.refusal?_through hasCondition).mpr
        ⟨bound, ofRange, by simpa using closed, rfl⟩
    cases compiled : compile [filter] ranges configuration with
    | ok query =>
        obtain ⟨other, otherUsable, admitted, _⟩ := compile_eq_ok.mp compiled
        obtain rfl : other = gates := Except.ok.inj (otherUsable.symm.trans usable)
        simp [admitted filter List.mem_cons_self checked] at refused
    | error error =>
        obtain ⟨other, member, _, cause, otherRefused, rfl⟩ :=
          exists_refusal_of_compile usable compiled
        obtain rfl := List.mem_singleton.mp member
        obtain rfl := Option.some.inj (otherRefused.symm.trans refused)
        exact accepted other.name compiled
  · intro opens name failed
    obtain ⟨other, member, _, cause, refused, _⟩ := exists_refusal_of_compile usable failed
    obtain rfl := List.mem_singleton.mp member
    obtain ⟨same, ofSame, closed, _⟩ := (RangeInputs.refusal?_through hasCondition).mp refused
    obtain rfl := Condition.range.inj (ofRange.symm.trans ofSame)
    simp [opens] at closed

/-- All components decide alike whether a range can be used: what the configuration reports, the
row of the range in the layout and its pickers or text boxes, all its nodes in the schema and the
instance, or any of them in one of the two, and a compiler that does not refuse it. -/
theorem gated_alike (siblings : configuration.Distinct)
    (usable : configuration.rangeGates = .ok gates) {schema : Property} (unique : schema.Unique)
    (model : Instance) (lexicon : Lexicon) (now : Instant) {filter : Filter}
    (ofRange : filter.condition = .range bound) (checked : filter.checked) (ranges : RangeInputs) :
    ∃ layout result, Layout.generate lexicon configuration = .ok layout ∧
      reconcile now configuration schema model = .ok result ∧
      List.TFAE [
        configuration.Reports bound,
        ∃ control, (bound.attr, control) ∈ layout.controls ∧ bound.HasRow control,
        (Controls.ofLayout now layout).Registers bound,
        ∀ name ∈ bound.nodeNames,
          result.schema.leafAt? bound.attr.browseName name ≠ none ∧
            result.model.root.leafAt? bound.attr.browseName name ≠ none,
        ∃ name ∈ bound.nodeNames,
          result.schema.leafAt? bound.attr.browseName name ≠ none ∨
            result.model.root.leafAt? bound.attr.browseName name ≠ none,
        ∀ name, compile [filter] ranges configuration ≠
          .error (.filter (.rangeDisabled name))] := by
  obtain ⟨layout, generated⟩ :=
    Layout.generate_ok siblings (Configuration.rangeGates_eq_ok.mp usable).2 lexicon
  let synced := (Schema.syncAttributes now schema configuration.attributes).1
  have syncedUnique : synced.Unique := Schema.unique_syncAttributes unique now siblings
  have mirrors := Instance.update_mirrors syncedUnique model
  have inSchema {name : String} (own : name ∈ bound.nodeNames) :
      synced.leafAt? bound.attr.browseName name ≠ none ↔ configuration.Gates bound :=
    Schema.leafAt?_iff_gates siblings usable
      (Schema.settled_syncAttributes unique siblings now) own
  have inModel {name : String} (own : name ∈ bound.nodeNames) :
      (model.update synced).1.root.leafAt? bound.attr.browseName name ≠ none ↔
        configuration.Gates bound :=
    (mirrors.leafAt?_iff syncedUnique).trans (inSchema own)
  refine ⟨layout, _, generated, by rw [reconcile_eq, usable]; rfl, ?_⟩
  apply List.tfae_of_forall (configuration.Gates bound)
  simp only [List.forall_mem_cons]
  refine ⟨Configuration.reports_iff usable, Layout.hasRow_iff siblings generated,
    (Controls.registers_iff generated).trans (Layout.hasRow_iff siblings generated), ?_, ?_,
    compile_range_iff usable ofRange checked ranges, List.forall_mem_nil _⟩
  · constructor
    · intro all
      exact (inSchema List.mem_cons_self).mp (all bound.browseName List.mem_cons_self).1
    · exact fun gates name own => ⟨(inSchema own).mpr gates, (inModel own).mpr gates⟩
  · constructor
    · intro some
      obtain ⟨name, own, schemaHas | modelHas⟩ := some
      · exact (inSchema own).mp schemaHas
      · exact (inModel own).mp modelHas
    · intro gates
      exact ⟨bound.browseName, List.mem_cons_self, .inl ((inSchema List.mem_cons_self).mpr gates)⟩

/-- A tree with a limit whose criterion is missing and with a property that nothing calls for. -/
def Property.withStaleLimit : Property :=
  (object "Panel").addChild
    ((object "EventTime").addChild (.leaf "FromEventTimeDateTime" (.dateTime .unixEpoch)))
    |>.addChild (.leaf "Note" (.boolean true))

theorem gated_alike_staleLimit :
    Configuration.withoutLowerBound.Distinct ∧ withStaleLimit.Unique ∧
      ∃ layout result, Layout.generate .empty .withoutLowerBound = .ok layout ∧
        reconcile .unixEpoch .withoutLowerBound withStaleLimit
          { root := withStaleLimit, retained := .empty } = .ok result ∧
        ¬ (Controls.ofLayout .unixEpoch layout).Registers .fromEventTime ∧
        result.schema.leafAt? "EventTime" "FromEventTimeDateTime" = none ∧
        result.model.root.leafAt? "EventTime" "FromEventTimeDateTime" = none ∧
        ∃ name, compile [.make .empty .eventTime "FromEventTime" true] (.initialAt .unixEpoch)
          .withoutLowerBound = .error (.filter (.rangeDisabled name)) := by
  have siblings : Configuration.withoutLowerBound.Distinct := by decide +kernel
  have unique : withStaleLimit.Unique := by decide +kernel
  have usable : Configuration.withoutLowerBound.rangeGates =
      .ok { eventTime := { lower := false, upper := true }, severity := true } := by
    decide +kernel
  have hidden : ¬ Configuration.withoutLowerBound.Reports .fromEventTime := by
    rintro ⟨flags, known, shown⟩
    rw [(Configuration.rangeGates_eq_ok.mp usable).1] at known
    obtain rfl := Except.ok.inj known
    exact absurd shown (by decide)
  have ofRange : (Filter.make .empty .eventTime "FromEventTime" true).condition =
      .range .fromEventTime := rfl
  obtain ⟨layout, result, generated, reconciled, alike⟩ :=
    gated_alike siblings usable unique { root := withStaleLimit, retained := .empty } .empty
      .unixEpoch ofRange rfl (.initialAt .unixEpoch)
  have nodes := (alike.out 0 4).not.mp hidden
  have refused := (alike.out 0 5).not.mp hidden
  push Not at nodes refused
  obtain ⟨inSchema, inModel⟩ := nodes "FromEventTimeDateTime" (by decide)
  exact ⟨siblings, unique, layout, result, generated, reconciled,
    (alike.out 0 2).not.mp hidden, inSchema, inModel, refused⟩

end AlarmView
