import AlarmView.Proofs.Panel.Agreement
import AlarmView.Proofs.Query.Refusals
import AlarmView.Proofs.Workspace.Upkeep

/-!
# The query of a workspace

The query of a workspace fails only for a checked criterion that has the name of a range but stands
below another attribute.  Such a criterion needs the range, although it is not hidden together with
it.
-/

namespace AlarmView

open BrowseName FilterSet Property

variable {names : EditModelNames} {lexicon : Lexicon} {workspace : Workspace}

/-- Whether a criterion has the name of a range without standing below its attribute. -/
def RangeBound.Displaced (bound : RangeBound) (key : Attribute × String) : Prop :=
  key.2 = bound.browseName ∧ key.1 ≠ bound.attr

private theorem FilterSet.mem_checked_ofInstance {now : Instant} {model : Instance}
    {filter : Filter} :
    filter ∈ (ofInstance lexicon now model).filters ∧ filter.checked ↔
      ∃ key ∈ checkedStates model.root, .make lexicon key.1 key.2 true = filter := by
  rw [← List.mem_filter, checked_ofInstance, List.mem_map]

namespace Configuration.Matches

variable {configuration : Configuration} {schema : Property} {model : Instance}
  {gates : RangeGates}

/-- A range whose own criterion is checked is enabled. -/
theorem opens_of_checked (inLine : configuration.Matches schema model)
    (siblings : configuration.Distinct) (usable : configuration.rangeGates = .ok gates)
    {bound : RangeBound}
    (checked : (bound.attr, bound.browseName) ∈ checkedStates model.root) : gates.opens bound := by
  obtain ⟨free, stored⟩ :=
    (Property.mem_checkedStates inLine.modelKept.sound.shaped.unique).mp checked
  have shown := Panel.mem_controlKeys_of_checked inLine free stored
  exact (opens_iff usable bound).mpr ((mem_controlKeys_iff siblings).mp shown).1

/-- A checked criterion is refused exactly if it is displaced and its range is disabled. -/
theorem refusal?_of_checked (inLine : configuration.Matches schema model)
    (traced : model.Traced (Filter.HasCondition lexicon)) (siblings : configuration.Distinct)
    (usable : configuration.rangeGates = .ok gates) {key : Attribute × String}
    (checked : key ∈ checkedStates model.root) (inputs : RangeInputs) (cause : FilterError) :
    (inputs.through gates).refusal? (.make lexicon key.1 key.2 true) = some cause ↔
      ∃ bound : RangeBound, bound.Displaced key ∧ gates.opens bound = false ∧
        cause = .rangeDisabled bound.browseName := by
  have stored := ((Property.mem_checkedStates traced.unique).mp checked).2
  have hasCondition : (Filter.make lexicon key.1 key.2 true).condition ≠ .fragment "" :=
    traced.of_checked stored
  rw [RangeInputs.refusal?_through hasCondition]
  refine exists_congr fun bound => ?_
  rw [Filter.make, Filter.conditionOf_eq_range]
  constructor
  · rintro ⟨named, closed, rfl⟩
    refine ⟨⟨named, fun own => ?_⟩, closed, by rw [← named]⟩
    have ownChecked : (bound.attr, bound.browseName) ∈ checkedStates model.root := by
      rwa [← own, ← named]
    simp [inLine.opens_of_checked siblings usable ownChecked] at closed
  · rintro ⟨⟨named, _⟩, closed, rfl⟩
    exact ⟨named, closed, by rw [← named]⟩

/-- The stored filters can be compiled exactly if the ranges of all displaced criteria among the
checked ones are enabled, and nothing else fails. -/
theorem compile_iff (inLine : configuration.Matches schema model)
    (traced : model.Traced (Filter.HasCondition lexicon)) (siblings : configuration.Distinct)
    (usable : configuration.rangeGates = .ok gates) (now : Instant) :
    ((∃ query, (ofInstance lexicon now model).compile configuration = .ok query) ↔
      ∀ key ∈ checkedStates model.root, ∀ bound : RangeBound, bound.Displaced key →
        gates.opens bound) ∧
    ∀ error, (ofInstance lexicon now model).compile configuration = .error error →
      ∃ key ∈ checkedStates model.root, ∃ bound : RangeBound, bound.Displaced key ∧
        gates.opens bound = false ∧ error = .filter (.rangeDisabled bound.browseName) := by
  have refused {key : Attribute × String} (checked : key ∈ checkedStates model.root) :=
    inLine.refusal?_of_checked traced siblings usable checked
      (ofInstance lexicon now model).ranges
  have fails (error : QueryError)
      (failed : (ofInstance lexicon now model).compile configuration = .error error) :
      ∃ key ∈ checkedStates model.root, ∃ bound : RangeBound, bound.Displaced key ∧
        gates.opens bound = false ∧ error = .filter (.rangeDisabled bound.browseName) := by
    obtain ⟨filter, member, isChecked, cause, refusal, rfl⟩ :=
      exists_refusal_of_compile usable failed
    obtain ⟨key, checked, rfl⟩ := mem_checked_ofInstance.mp ⟨member, isChecked⟩
    obtain ⟨bound, displaced, closed, rfl⟩ := (refused checked cause).mp refusal
    exact ⟨key, checked, bound, displaced, closed, rfl⟩
  refine ⟨⟨?_, ?_⟩, fails⟩
  · rintro ⟨query, compiled⟩ key checked bound displaced
    obtain ⟨_, known, available, _⟩ := compile_eq_ok.mp compiled
    obtain rfl := Except.ok.inj (usable.symm.trans known)
    obtain ⟨member, isChecked⟩ := mem_checked_ofInstance.mpr ⟨key, checked, rfl⟩
    by_contra closed
    have refusal := (refused checked _).mpr ⟨bound, displaced, by simpa using closed, rfl⟩
    exact absurd ((available _ member isChecked).symm.trans refusal) (by simp)
  · intro opens
    cases compiled : (ofInstance lexicon now model).compile configuration with
    | ok query => exact ⟨query, rfl⟩
    | error error =>
        obtain ⟨key, checked, bound, displaced, closed, _⟩ := fails error compiled
        simp [opens key checked bound displaced] at closed

end Configuration.Matches

/-- The query of a workspace fails only for a displaced criterion that is stored as checked while
its range is disabled. -/
theorem Workspace.Ready.startup (ready : workspace.Ready names lexicon) :
    ∃ model gates, workspace.store.requireInstance names.editModel = .ok model ∧
      workspace.configuration.rangeGates = .ok gates ∧ ∀ now current,
        ((∃ result, (startupQuery now workspace.configuration workspace.store names lexicon
            current).2 = .ok result) ↔
          ∀ key ∈ checkedStates model.root, ∀ bound : RangeBound, bound.Displaced key →
            gates.opens bound) ∧
        ∀ error, (startupQuery now workspace.configuration workspace.store names lexicon
            current).2 = .error error →
          ∃ key ∈ checkedStates model.root, ∃ bound : RangeBound, bound.Displaced key ∧
            gates.opens bound = false ∧ error = .filter (.rangeDisabled bound.browseName) := by
  obtain ⟨schema, model, schemaFound, modelFound, inLine⟩ := ready.inLine.matched
  obtain ⟨gates, usable⟩ := ready.grown.usable
  have traced := ready.traced.models _ model modelFound
  refine ⟨model, gates, Store.requireInstance_eq_ok.mpr modelFound, usable, fun now current => ?_⟩
  obtain ⟨compiles, fails⟩ := inLine.compile_iff traced ready.grown.siblings usable now
  rw [startupQuery_of_settled usable inLine.schemaKept.shaped.unique inLine.settled inLine.mirrors
    schemaFound modelFound, ← compiles]
  cases compiled : (ofInstance lexicon now model).compile workspace.configuration with
  | ok query => exact ⟨by simp, by simp⟩
  | error error =>
      obtain ⟨key, checked, bound, displaced, closed, rfl⟩ := fails error compiled
      refine ⟨by simp, ?_⟩
      rintro _ ⟨⟩
      exact ⟨key, checked, bound, displaced, closed, rfl⟩

end AlarmView
