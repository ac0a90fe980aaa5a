import AlarmView.Proofs.Panel.Controls
import AlarmView.Proofs.Query.Quoting
import Mathlib.Data.Prod.Lex

/-!
# Refused filters

A usable configuration leaves two causes for which a checked filter cannot be compiled: it has no
condition, or it stands for a range that is disabled.  Both can be told from its attribute and its
name.  The compiler reports the first such filter in the order in which it makes the groups.
-/

namespace AlarmView

open BrowseName FilterSet

variable {filter : Filter} {gates : RangeGates} {inputs : RangeInputs} {cause : FilterError}

/-- The alarm states that have a condition without being well-known criteria. -/
def Fragment.states : List String :=
  ["HighHighState", "HighState", "LowLowState", "LowState", "ActiveStateDigital", "InactiveState"]

/-- Whether a filter has been made from an attribute and a name, with whatever wordings. -/
def Filter.IsMade (filter : Filter) : Prop :=
  ∃ lexicon, filter = .make lexicon filter.attr filter.name filter.checked

/-- Why a filter cannot be compiled. -/
inductive Filter.Offends (gates : RangeGates) (filter : Filter) : FilterError → Prop where
  | unknownState :
      filter.attr = .alarmState →
      filter.name ∉ Fragment.presets.map (·.1) →
      (∀ bound : RangeBound, filter.name ≠ bound.browseName) →
      filter.name ∉ Fragment.states →
      Offends gates filter (.emptyFragment filter.attr filter.name)
  | disabled {bound : RangeBound} :
      filter.name = bound.browseName →
      gates.opens bound = false →
      Offends gates filter (.rangeDisabled filter.name)

/-- A filter with a condition is refused only if its range is disabled. -/
theorem RangeInputs.refusal?_through (hasCondition : filter.condition ≠ .fragment "") :
    (inputs.through gates).refusal? filter = some cause ↔
      ∃ bound, filter.condition = .range bound ∧ gates.opens bound = false ∧
        cause = .rangeDisabled filter.name := by
  rw [OpenRanges.refusal?]
  cases condition : filter.condition with
  | fragment text =>
      have nonempty : text ≠ "" := fun empty => hasCondition (empty ▸ condition)
      simp [nonempty]
  | range bound =>
      simp only [Condition.range.injEq, exists_eq_left']
      cases bound with
      | fromEventTime =>
          cases opens : gates.eventTime.lower <;>
            simp [through, RangeGates.opens, opens, eq_comm (a := cause)]
      | toEventTime =>
          cases opens : gates.eventTime.upper <;>
            simp [through, RangeGates.opens, opens, eq_comm (a := cause)]
      | severity =>
          cases opens : gates.severity <;>
            simp [through, RangeGates.opens, opens, eq_comm (a := cause)]

private theorem Fragment.stateTexts_eq_nil {name : String} : stateTexts name =
    [] ↔ name ∉ states := by
  constructor
  · intro none listed
    have known : ∀ name ∈ states, stateTexts name ≠ [] := by decide +kernel
    exact known name listed none
  · intro unlisted
    by_contra known
    exact unlisted (stateTexts_ne_nil known)

private theorem Fragment.preset?_eq_none {name : String} :
    preset? name = none ↔ name ∉ presets.map (·.1) := by
  rw [preset?, List.lookup_eq_none_iff]
  simp only [bne_iff_ne, ne_eq, List.mem_map, not_exists, not_and, eq_comm (a := name)]

private theorem Fragment.preset?_ne_empty {name text : String} (preset : preset? name = some text) :
    text ≠ "" := by
  have nonempty : ∀ pair ∈ presets, pair.2 ≠ "" := by decide +kernel
  obtain ⟨before, behind, split, _⟩ := List.lookup_eq_some_iff.mp preset
  exact nonempty (name, text) (by simp [split])

private theorem RangeBound.ofBrowseName?_eq_none {name : String} :
    ofBrowseName? name = none ↔ ∀ bound : RangeBound, name ≠ bound.browseName := by
  rw [ofBrowseName?, List.find?_eq_none]
  constructor
  · intro other bound same
    have listed : bound ∈ [fromEventTime, toEventTime, severity] := by cases bound <;> decide
    simpa [same] using other bound listed
  · intro other bound _
    simpa using (other bound).symm

/-- Only an unknown alarm state has no condition. -/
theorem Filter.conditionOf_eq_empty {lexicon : Lexicon} {attr : Attribute} {name : String} :
    conditionOf lexicon attr name = .fragment "" ↔
      attr = .alarmState ∧ name ∉ Fragment.presets.map (·.1) ∧
        (∀ bound : RangeBound, name ≠ bound.browseName) ∧ name ∉ Fragment.states := by
  rw [← RangeBound.ofBrowseName?_eq_none, ← Fragment.preset?_eq_none, ← Fragment.stateTexts_eq_nil,
    conditionOf]
  cases RangeBound.ofBrowseName? name with
  | some bound => simp
  | none =>
      cases preset : Fragment.preset? name with
      | some text => simp [Fragment.preset?_ne_empty preset]
      | none => simp [Fragment.generated_eq_empty]

/-- The compiler refuses a filter exactly for the cause that its attribute and its name give. -/
theorem Filter.IsMade.refusal?_iff (made : filter.IsMade) (inputs : RangeInputs) :
    (inputs.through gates).refusal? filter = some cause ↔ filter.Offends gates cause := by
  obtain ⟨lexicon, made⟩ := made
  have condition : filter.condition = Filter.conditionOf lexicon filter.attr filter.name := by
    rw [made]
    rfl
  by_cases empty : filter.condition = .fragment ""
  · have refused : (inputs.through gates).refusal? filter =
        some (.emptyFragment filter.attr filter.name) := by simp [OpenRanges.refusal?, empty]
    rw [condition, conditionOf_eq_empty] at empty
    obtain ⟨state, preset, bounds, unknown⟩ := empty
    rw [refused, Option.some.injEq]
    constructor
    · intro same
      subst same
      exact .unknownState state preset bounds unknown
    · intro offends
      cases offends with
      | unknownState => rfl
      | disabled named => exact absurd named (bounds _)
  · rw [RangeInputs.refusal?_through empty]
    constructor
    · intro given
      obtain ⟨bound, range, closed, rfl⟩ := given
      exact .disabled (conditionOf_eq_range.mp (condition ▸ range)) closed
    · intro offends
      cases offends with
      | unknownState state preset bounds unknown =>
          rw [condition] at empty
          exact absurd (conditionOf_eq_empty.mpr ⟨state, preset, bounds, unknown⟩) empty
      | @disabled bound named closed =>
          exact ⟨bound, condition ▸ conditionOf_eq_range.mpr named, closed, rfl⟩

/-- An item that is found first is in front of all others that could have been found. -/
theorem exists_first {α β : Type} {before : α → α → Prop} {items : List α}
    (sorted : items.Pairwise before) {find : α → Option β} {result : β}
    (found : items.findSome? find = some result) :
    ∃ item ∈ items, find item = some result ∧
      ∀ other ∈ items, (find other).isSome → other = item ∨ before item other := by
  induction items with
  | nil => simp at found
  | cons head rest ih =>
      obtain ⟨headBefore, restSorted⟩ := List.pairwise_cons.mp sorted
      rw [List.findSome?_cons] at found
      cases here : find head with
      | some other =>
          obtain rfl : other = result := by simpa [here] using found
          refine ⟨head, List.mem_cons_self, here, ?_⟩
          intro other member _
          rcases List.mem_cons.mp member with rfl | later
          · exact .inl rfl
          · exact .inr (headBefore other later)
      | none =>
          obtain ⟨item, member, isFound, first⟩ := ih restSorted (by simpa [here] using found)
          refine ⟨item, List.mem_cons_of_mem _ member, isFound, ?_⟩
          intro other otherMember findable
          rcases List.mem_cons.mp otherMember with rfl | later
          · simp [here] at findable
          · exact first other later findable

namespace FilterSet

/-- When a filter is compiled: the attributes take turns in the order of their first checked
filters, and the filters of an attribute in that of the list. -/
def turn (filters : List Filter) (filter : Filter) (position : Nat) : Nat ×ₗ Nat :=
  toLex (firstOf (filters.filter (·.checked)) filter.attr, position)

/-- The checked filters with their positions, in the order in which they are compiled. -/
def inTurn (filters : List Filter) : List (Filter × Nat) :=
  (attributesOf (filters.filter (·.checked))).flatMap fun attr =>
    (filters.zipIdx.filter (·.1.checked)).filter (·.1.attr == attr)

private theorem map_inTurn (filters : List Filter) :
    (inTurn filters).map (·.1) = inGroups (filters.filter (·.checked)) := by
  have checked : (filters.zipIdx.filter (·.1.checked)).map (·.1) = filters.filter (·.checked) := by
    conv_rhs => rw [← List.zipIdx_map_fst 0 filters, List.filter_map]
    rfl
  rw [inTurn, inGroups, List.map_flatMap]
  congr 1
  funext attr
  rw [← checked, List.filter_map]
  rfl

private theorem mem_inTurn {filters : List Filter} {position : Nat} :
    (filter, position) ∈ inTurn filters ↔ filters[position]? = some filter ∧ filter.checked := by
  simp only [inTurn, List.mem_flatMap, List.mem_filter, mem_attributesOf,
    List.mem_zipIdx_iff_getElem?, beq_iff_eq]
  constructor
  · intro given
    obtain ⟨_, _, ⟨here, checked⟩, _⟩ := given
    exact ⟨here, checked⟩
  · intro given
    obtain ⟨here, checked⟩ := given
    exact ⟨filter.attr, ⟨filter, ⟨List.mem_of_getElem? here, checked⟩, rfl⟩, ⟨here, checked⟩, rfl⟩

private theorem pairwise_inTurn (filters : List Filter) :
    (inTurn filters).Pairwise fun first second =>
      turn filters first.1 first.2 < turn filters second.1 second.2 := by
  have positions : (filters.zipIdx).Pairwise fun first second => first.2 < second.2 := by
    apply List.pairwise_map.mp
    rw [List.zipIdx_map_snd]
    exact List.pairwise_lt_range' 1
  refine List.pairwise_flatMap.mpr ⟨?_, ?_⟩
  · intro attr _
    apply ((positions.filter _).filter _).imp_of_mem
    intro first second firstMember secondMember before
    have firstAttr : first.1.attr = attr := by simpa using (List.mem_filter.mp firstMember).2
    have secondAttr : second.1.attr = attr := by simpa using (List.mem_filter.mp secondMember).2
    exact Prod.Lex.toLex_lt_toLex.mpr (.inr ⟨by rw [firstAttr, secondAttr], before⟩)
  · apply (pairwise_attributesOf (filters.filter (·.checked))).imp
    intro attr other before first firstMember second secondMember
    have firstAttr : first.1.attr = attr := by simpa using (List.mem_filter.mp firstMember).2
    have secondAttr : second.1.attr = other := by simpa using (List.mem_filter.mp secondMember).2
    refine Prod.Lex.toLex_lt_toLex.mpr (.inl ?_)
    rwa [firstAttr, secondAttr]

/-- Whether a checked filter at a position offends, and none offends before its turn. -/
structure Blames (gates : RangeGates) (filters : List Filter) (position : Nat) (filter : Filter)
    (cause : FilterError) : Prop where
  here : filters[position]? = some filter
  checked : filter.checked
  offends : filter.Offends gates cause
  first : ∀ (other : Nat) (otherFilter : Filter) (otherCause : FilterError),
    filters[other]? = some otherFilter → otherFilter.checked →
      otherFilter.Offends gates otherCause →
        turn filters filter position ≤ turn filters otherFilter other

private theorem exists_blamed {filters : List Filter} (made : ∀ filter ∈ filters, filter.IsMade)
    (found : (inGroups (filters.filter (·.checked))).findSome? (inputs.through gates).refusal? =
      some cause) : ∃ position filter, Blames gates filters position filter cause := by
  rw [← map_inTurn, List.findSome?_map] at found
  obtain ⟨⟨filter, position⟩, member, refused, first⟩ := exists_first (pairwise_inTurn filters) found
  obtain ⟨here, checked⟩ := mem_inTurn.mp member
  have isMade := made filter (List.mem_of_getElem? here)
  refine ⟨position, filter, here, checked, (isMade.refusal?_iff inputs).mp refused, ?_⟩
  intro other otherFilter otherCause otherHere otherChecked offends
  have otherMade := made otherFilter (List.mem_of_getElem? otherHere)
  have otherRefused := (otherMade.refusal?_iff inputs).mpr offends
  rcases first (otherFilter, other) (mem_inTurn.mpr ⟨otherHere, otherChecked⟩)
    (Option.isSome_iff_exists.mpr ⟨otherCause, otherRefused⟩) with same | later
  · obtain ⟨rfl, rfl⟩ := Prod.mk.inj same
    exact le_refl _
  · exact le_of_lt later

/-- A checked filter that offends makes the compiler fail. -/
theorem exists_found {filters : List Filter} (made : ∀ filter ∈ filters, filter.IsMade)
    (member : filter ∈ filters) (checked : filter.checked) (offends : filter.Offends gates cause)
    (inputs : RangeInputs) :
    ∃ found, (inGroups (filters.filter (·.checked))).findSome? (inputs.through gates).refusal? =
      some found := by
  have refused := ((made filter member).refusal?_iff inputs).mpr offends
  have listed := mem_inGroups.mpr (List.mem_filter.mpr ⟨member, checked⟩)
  apply Option.isSome_iff_exists.mp
  exact List.findSome?_isSome_iff.mpr ⟨filter, listed, by simp [refused]⟩

/-- Only one cause is blamed. -/
theorem Blames.unique {filters : List Filter} (made : ∀ filter ∈ filters, filter.IsMade)
    {position other : Nat} {filter otherFilter : Filter} {cause otherCause : FilterError}
    (blames : Blames gates filters position filter cause)
    (otherBlames : Blames gates filters other otherFilter otherCause) : cause = otherCause := by
  have before := blames.first _ _ _ otherBlames.here otherBlames.checked otherBlames.offends
  have behind := otherBlames.first _ _ _ blames.here blames.checked blames.offends
  obtain rfl : position = other :=
    (Prod.mk.inj (toLex.injective (le_antisymm before behind))).2
  obtain rfl : filter = otherFilter := Option.some.inj (blames.here.symm.trans otherBlames.here)
  have isMade := made filter (List.mem_of_getElem? blames.here)
  have refused := (isMade.refusal?_iff default).mpr blames.offends
  exact Option.some.inj (refused.symm.trans ((isMade.refusal?_iff default).mpr otherBlames.offends))

end FilterSet

private theorem compile_eq_error_iff_blames {configuration : Configuration} {filters : List Filter}
    (made : ∀ filter ∈ filters, filter.IsMade) (usable : configuration.rangeGates = .ok gates)
    (inputs : RangeInputs) (error : QueryError) :
    compile filters inputs configuration = .error error ↔
      ∃ position filter cause, Blames gates filters position filter cause ∧
        error = .filter cause := by
  rw [compile_eq_error usable]
  constructor
  · intro given
    obtain ⟨cause, found, rfl⟩ := given
    obtain ⟨position, filter, blames⟩ := exists_blamed made found
    exact ⟨position, filter, cause, blames, rfl⟩
  · intro given
    obtain ⟨position, filter, cause, blames, rfl⟩ := given
    obtain ⟨found, isFound⟩ :=
      exists_found made (List.mem_of_getElem? blames.here) blames.checked blames.offends inputs
    obtain ⟨_, _, others⟩ := exists_blamed made isFound
    exact ⟨found, isFound, congrArg QueryError.filter (blames.unique made others)⟩

/-- Compilation fails exactly if a checked filter offends, and blames the first one that does. -/
theorem compile_blames {filters : List Filter} (made : ∀ filter ∈ filters, filter.IsMade)
    (inputs : RangeInputs) (configuration : Configuration) :
    (∀ error, configuration.eventTime = .error error →
      compile filters inputs configuration = .error (.visibility error)) ∧
    (∀ flags error, configuration.eventTime = .ok flags →
      configuration.showsSeverity = .error error →
        compile filters inputs configuration = .error (.visibility error)) ∧
    ∀ gates, configuration.eventTime = .ok gates.eventTime →
      configuration.showsSeverity = .ok gates.severity →
        ((∃ error, compile filters inputs configuration = .error error) ↔
          ∃ filter ∈ filters, filter.checked ∧ ∃ cause, filter.Offends gates cause) ∧
        ∀ error, compile filters inputs configuration = .error error ↔
          ∃ position filter cause, Blames gates filters position filter cause ∧
            error = .filter cause := by
  refine ⟨?_, ?_, ?_⟩
  · intro error failed
    rw [compile, Configuration.rangeGates, failed]
    rfl
  · intro flags error known failed
    rw [compile, Configuration.rangeGates, known, failed]
    rfl
  · intro gates times levels
    have usable := Configuration.rangeGates_eq_ok.mpr ⟨times, levels⟩
    have blamed := compile_eq_error_iff_blames made usable inputs
    refine ⟨⟨?_, ?_⟩, blamed⟩
    · intro failed
      obtain ⟨error, failed⟩ := failed
      obtain ⟨_, filter, cause, blames, _⟩ := (blamed error).mp failed
      exact ⟨filter, List.mem_of_getElem? blames.here, blames.checked, cause, blames.offends⟩
    · intro offender
      obtain ⟨filter, member, checked, cause, offends⟩ := offender
      obtain ⟨found, isFound⟩ := exists_found made member checked offends inputs
      exact ⟨.filter found, (compile_eq_error usable).mpr ⟨found, isFound, rfl⟩⟩

/-- Of four filters that offend, one of them unchecked, the last one is blamed, because its
attribute is the first one with a checked filter. -/
theorem compile_blames_lastFilter :
    let named := fun attr name checked => Filter.make .empty attr name checked
    let filters := [named .alarmState "Unknown" false, named .priority "Urgent" true,
      named .severity "Severity" true, named .alarmState "Unknown" true,
      named .priority "FromEventTime" true]
    let configuration : Configuration :=
      { attributes := [.single "EventTime" false, .ofChildren "Severity" false ["Severity"]] }
    let blamed := FilterError.rangeDisabled "FromEventTime"
    (∀ filter ∈ filters, filter.IsMade) ∧
      configuration.eventTime = .ok ⟨false, false⟩ ∧ configuration.showsSeverity = .ok false ∧
      compile filters (.initialAt .unixEpoch) configuration = .error (.filter blamed) ∧
      ∃ position filter, Blames ⟨⟨false, false⟩, false⟩ filters position filter blamed := by
  intro named filters configuration blamed
  have made : ∀ filter ∈ filters, filter.IsMade := by
    intro filter member
    simp only [filters, List.mem_cons, List.not_mem_nil, or_false] at member
    rcases member with rfl | rfl | rfl | rfl | rfl <;> exact ⟨.empty, rfl⟩
  have failed : compile filters (.initialAt .unixEpoch) configuration = .error (.filter blamed) :=
    rfl
  obtain ⟨_, _, usable⟩ := compile_blames made (.initialAt .unixEpoch) configuration
  obtain ⟨_, blames⟩ := usable ⟨⟨false, false⟩, false⟩ rfl rfl
  obtain ⟨position, filter, cause, first, same⟩ := (blames _).mp failed
  obtain rfl := QueryError.filter.inj same
  exact ⟨made, rfl, rfl, failed, position, filter, first⟩

end AlarmView
