import AlarmView.Proofs.Panel.Controls
import AlarmView.Proofs.Query.Compilation

/-!
# What a query depends on

The compiler sees the checked filters attribute by attribute, the ranges that are enabled, and the
limits of those among them that a checked filter uses.  Two runs that agree on these have the same
result, be it a query or an error.
-/

namespace AlarmView

open FilterSet

/-- Whether two lists have the same checked filters for each attribute, and the attributes in the
same order. -/
structure Filter.SameGroups (first second : List Filter) : Prop where
  attributes : attributesOf (first.filter (·.checked)) = attributesOf (second.filter (·.checked))
  filters : ∀ attr, (first.filter (·.checked)).filter (·.attr == attr) =
    (second.filter (·.checked)).filter (·.attr == attr)

namespace Filter.SameGroups

variable {first second : List Filter}

private theorem inGroups (same : SameGroups first second) :
    inGroups (first.filter (·.checked)) = inGroups (second.filter (·.checked)) := by
  simp only [FilterSet.inGroups, same.attributes, same.filters]

private theorem queryOf (same : SameGroups first second) (ranges : OpenRanges) :
    ranges.queryOf first = ranges.queryOf second := by
  rw [OpenRanges.queryOf, OpenRanges.queryOf, same.attributes]
  congr 2
  funext attr
  rw [OpenRanges.groupOf, OpenRanges.groupOf, same.filters]

/-- The compiler does not see unchecked filters and how the attributes are interleaved. -/
theorem compileWith (same : SameGroups first second) (ranges : OpenRanges) :
    compileWith ranges first = compileWith ranges second := by
  rw [compileWith_eq, compileWith_eq, same.inGroups, same.queryOf]

end Filter.SameGroups

namespace OpenRanges

variable {ranges others : OpenRanges} {filters : List Filter}

private theorem findSome?_refusal?_congr
    (agree : ∀ filter ∈ filters, ∀ bound, filter.condition = .range bound →
      ranges.AgreeOn others bound) :
    filters.findSome? ranges.refusal? = filters.findSome? others.refusal? := by
  induction filters with
  | nil => rfl
  | cons filter rest ih =>
      rw [List.findSome?_cons, List.findSome?_cons, refusal?_congr (agree filter List.mem_cons_self),
        ih fun other member => agree other (List.mem_cons_of_mem _ member)]

/-- The compiler does not see limits that no checked filter uses. -/
theorem compileWith_congr
    (agree : ∀ filter ∈ filters, filter.checked → ∀ bound, filter.condition = .range bound →
      ranges.AgreeOn others bound) :
    compileWith ranges filters = compileWith others filters := by
  have refusals : (inGroups (filters.filter (·.checked))).findSome? ranges.refusal? =
      (inGroups (filters.filter (·.checked))).findSome? others.refusal? := by
    apply findSome?_refusal?_congr
    intro filter member
    obtain ⟨listed, checked⟩ := List.mem_filter.mp (mem_inGroups.mp member)
    exact agree filter listed checked
  rw [compileWith_eq, compileWith_eq, refusals, queryOf_congr agree]

end OpenRanges

namespace RangeInputs

/-- Whether two sets of limits have the same limits of a range. -/
def AgreeOn (inputs others : RangeInputs) : RangeBound → Prop
  | .fromEventTime => inputs.fromEventTime = others.fromEventTime
  | .toEventTime => inputs.toEventTime = others.toEventTime
  | .severity =>
      inputs.fromSeverity = others.fromSeverity ∧ inputs.toSeverity = others.toSeverity

/-- A disabled range has no limits, whatever is put in. -/
theorem through_agreeOn {inputs others : RangeInputs} {gates : RangeGates} {bound : RangeBound}
    (agree : gates.opens bound → inputs.AgreeOn others bound) :
    (inputs.through gates).AgreeOn (others.through gates) bound := by
  cases bound with
  | fromEventTime =>
      dsimp only [OpenRanges.AgreeOn, through]
      split
      · next opens => rw [show inputs.fromEventTime = others.fromEventTime from agree opens]
      · rfl
  | toEventTime =>
      dsimp only [OpenRanges.AgreeOn, through]
      split
      · next opens => rw [show inputs.toEventTime = others.toEventTime from agree opens]
      · rfl
  | severity =>
      dsimp only [OpenRanges.AgreeOn, through]
      split
      · next opens =>
          obtain ⟨lower, upper⟩ := agree opens
          rw [lower, upper]
      · rfl

end RangeInputs

/-- Whether a range is enabled and some checked filter stands for it. -/
def Configuration.Reads (configuration : Configuration) (filters : List Filter)
    (bound : RangeBound) : Prop :=
  (∃ gates, configuration.rangeGates = .ok gates ∧ gates.opens bound) ∧
    ∃ filter ∈ filters, filter.checked ∧ filter.condition = .range bound

/-- Filters with the same groups, configurations with the same ranges and limits that agree on the
ranges in use are compiled to the same query or refused for the same reason. -/
theorem compile_congr {first second : List Filter} {inputs others : RangeInputs}
    {configuration other : Configuration} (same : Filter.SameGroups first second)
    (eventTime : configuration.eventTime = other.eventTime)
    (severity : configuration.showsSeverity = other.showsSeverity)
    (limits : ∀ bound, configuration.Reads first bound → inputs.AgreeOn others bound) :
    compile first inputs configuration = compile second others other := by
  have gatesSame : configuration.rangeGates = other.rangeGates := by
    rw [Configuration.rangeGates, Configuration.rangeGates, eventTime, severity]
  unfold compile
  rw [← gatesSame]
  cases usable : configuration.rangeGates with
  | error error => rfl
  | ok gates =>
      have agree : ∀ filter ∈ first, filter.checked → ∀ bound, filter.condition = .range bound →
          (inputs.through gates).AgreeOn (others.through gates) bound := by
        intro filter member checked bound range
        apply RangeInputs.through_agreeOn
        intro opens
        exact limits bound ⟨⟨gates, usable, opens⟩, filter, member, checked, range⟩
      have run : compileWith (inputs.through gates) first =
          compileWith (others.through gates) second :=
        (OpenRanges.compileWith_congr agree).trans (same.compileWith _)
      exact congrArg (Except.mapError QueryError.filter) run

/-- The attributes are interleaved, unchecked filters differ, one configuration lacks all but the
structural attributes, and the limits that no checked filter uses are others. -/
theorem compile_congr_interleaved :
    let named := fun attr name checked => Filter.make .empty attr name checked
    let first := [named .priority "Urgent" true, named .inhibit "Enabled" true,
      named .priority "Low" true, named .eventTime "FromEventTime" true,
      named .eventTime "ToEventTime" false]
    let second := [named .alarmState "Nothing" false, named .priority "Urgent" true,
      named .priority "Low" true, named .inhibit "Enabled" true,
      named .eventTime "FromEventTime" true]
    let inputs := RangeInputs.initialAt .unixEpoch
    let others := { inputs with toEventTime := secondAfter .unixEpoch, toSeverity := 5 }
    let other : Configuration :=
      { attributes :=
          [.ofChildren "Severity" true ["Severity"],
            .ofChildren "EventTime" true ["FromEventTime", "ToEventTime"]] }
    inputs ≠ others ∧
      (∀ bound, Configuration.builtin.Reads first bound → inputs.AgreeOn others bound) ∧
      compile first inputs .builtin = compile second others other ∧
      ∃ query, compile first inputs .builtin = .ok query := by
  intro named first second inputs others other
  have limits : ∀ bound, Configuration.builtin.Reads first bound → inputs.AgreeOn others bound := by
    intro bound read
    obtain ⟨_, filter, member, checked, range⟩ := read
    have unused : ∀ filter ∈ first, filter.checked →
        filter.condition ≠ .range .toEventTime ∧ filter.condition ≠ .range .severity := by
      decide +kernel
    cases bound with
    | fromEventTime => rfl
    | toEventTime => exact absurd range (unused filter member checked).1
    | severity => exact absurd range (unused filter member checked).2
  refine ⟨by decide +kernel, limits, compile_congr ⟨rfl, ?_⟩ rfl rfl limits, _, rfl⟩
  intro attr
  cases attr <;> rfl

end AlarmView
