import AlarmView.Proofs.Query.Attributes
import AlarmView.Proofs.Query.Compilation
import Mathlib.Data.List.Sublists

/-!
# Selections

What a query selects does not depend on the order of its groups or of the clauses of a group.  The
order of the filters matters only where both bounds of the event time are checked, since a window is
closed by an upper bound that stands behind its lower bound.
-/

namespace AlarmView

open OpenRanges

/-- Whether groups have the same clauses, in whatever order. -/
def Group.SameClauses (first second : Group) : Prop :=
  ∀ clause, clause ∈ first.clauses ↔ clause ∈ second.clauses

/-- Whether queries have the same groups, each with the same clauses, in whatever order. -/
def Query.SameSelection (first second : Query) : Prop :=
  (∀ group ∈ first.groups, ∃ other ∈ second.groups, group.SameClauses other) ∧
    ∀ other ∈ second.groups, ∃ group ∈ first.groups, group.SameClauses other

/-- The checked bounds of the event time in their order. -/
def FilterSet.boundsOf (filters : List Filter) : List Filter :=
  (filters.filter (·.checked)).filter (·.isBound)

open FilterSet

namespace OpenRanges

variable {ranges : OpenRanges}

private theorem closes_isBound (filters : List Filter) :
    closes (filters.filter (·.isBound)) = closes filters := by
  induction filters with
  | nil => rfl
  | cons filter rest ih =>
      cases bound : filter.isBound with
      | false => rw [List.filter_cons_of_neg (by simp [bound]), ih, closes_cons_of_not_bound bound]
      | true =>
          rw [List.filter_cons_of_pos bound]
          rcases Filter.isBound_eq_true.mp bound with lower | upper
          · simp only [closes, lower]
          · simp only [closes, upper]

/-- The clauses of a group are those of its bounds and those that its other filters contribute on
their own. -/
theorem mem_clausesOf (ranges : OpenRanges) (opened : Bool) (filters : List Filter)
    (clause : Clause) :
    clause ∈ ranges.clausesOf opened filters ↔
      clause ∈ ranges.clausesOf opened (filters.filter (·.isBound)) ∨
        ∃ filter ∈ filters, clause ∈ ranges.ownClauses filter := by
  induction filters generalizing opened with
  | nil => simp
  | cons filter rest ih =>
      simp only [List.mem_cons, exists_eq_or_imp]
      cases bound : filter.isBound with
      | false =>
          rw [List.filter_cons_of_neg (by simp [bound]), clausesOf_cons_of_not_bound bound,
            List.mem_append, ih]
          tauto
      | true =>
          rw [List.filter_cons_of_pos bound]
          rcases Filter.isBound_eq_true.mp bound with lower | upper
          · simp only [clausesOf, ownClauses, lower, List.mem_append, ih, closes_isBound]
            tauto
          · simp only [clausesOf, ownClauses, upper, List.mem_append, ih]
            tauto

private theorem window_notMem_ownClauses {filter : Filter} {lower : Instant}
    {upper : Option Instant} :
    .window lower upper ∉ ranges.ownClauses filter := by
  unfold ownClauses
  split <;> simp

theorem bounds_of_attr (filters : List Filter) (attr : Attribute) :
    (filters.filter (·.attr == attr)).filter (·.isBound) =
      (filters.filter (·.isBound)).filter (·.attr == attr) := by
  simp only [List.filter_filter, Bool.and_comm]

private theorem groupOf_sameClauses {first second : List Filter} (attr : Attribute)
    (same : ∀ filter, filter ∈ first ↔ filter ∈ second)
    (bounds : first.filter (·.isBound) = second.filter (·.isBound)) :
    (ranges.groupOf first attr).SameClauses (ranges.groupOf second attr) := by
  intro clause
  simp only [groupOf]
  rw [mem_clausesOf ranges false (first.filter (·.attr == attr)),
    mem_clausesOf ranges false (second.filter (·.attr == attr)), bounds_of_attr, bounds_of_attr,
    bounds]
  simp only [List.mem_filter, same]

/-- Filters in another order make the same selection if the bounds of the event time keep
theirs. -/
theorem sameSelection_queryOf {first second : List Filter}
    (same : ∀ filter, filter ∈ first.filter (·.checked) ↔ filter ∈ second.filter (·.checked))
    (bounds : boundsOf first = boundsOf second) :
    (ranges.queryOf first).SameSelection (ranges.queryOf second) := by
  have active (attr : Attribute) : attr ∈ attributesOf (first.filter (·.checked)) ↔
      attr ∈ attributesOf (second.filter (·.checked)) := by
    simp only [mem_attributesOf, same]
  constructor
  · intro group member
    obtain ⟨attr, listed, rfl⟩ := List.mem_map.mp member
    exact ⟨_, List.mem_map_of_mem ((active attr).mp listed), groupOf_sameClauses attr same bounds⟩
  · intro group member
    obtain ⟨attr, listed, rfl⟩ := List.mem_map.mp member
    exact ⟨_, List.mem_map_of_mem ((active attr).mpr listed), groupOf_sameClauses attr same bounds⟩

/-- Where the upper bound stands behind the lower bound, the query has a window that no query has in
which it stands before. -/
theorem not_sameSelection_queryOf {first second : List Filter} {lower upper : Filter}
    (accepted : ∀ filter ∈ first, filter.checked → ranges.refusal? filter = none)
    (lowerBound : lower.condition = .range .fromEventTime)
    (upperBound : upper.condition = .range .toEventTime) (attr : upper.attr = lower.attr)
    (firstBounds : boundsOf first = [lower, upper])
    (secondBounds : boundsOf second = [upper, lower]) :
    ¬ (ranges.queryOf first).SameSelection (ranges.queryOf second) := by
  have checked (filter : Filter) (member : filter ∈ boundsOf first) :
      filter ∈ first.filter (·.checked) := (List.mem_filter.mp member).1
  have lowerChecked := checked lower (by simp [firstBounds])
  have upperChecked := checked upper (by simp [firstBounds])
  have available (filter : Filter) (member : filter ∈ first.filter (·.checked)) :
      ranges.refusal? filter = none :=
    accepted filter (List.mem_filter.mp member).1 (List.mem_filter.mp member).2
  obtain ⟨start, started⟩ := lower_of_accepted (available lower lowerChecked) lowerBound
  obtain ⟨stop, stopped⟩ := upper_of_accepted (available upper upperChecked) upperBound
  intro same
  have active : lower.attr ∈ attributesOf (first.filter (·.checked)) :=
    mem_attributesOf.mpr ⟨lower, lowerChecked, rfl⟩
  obtain ⟨group, listed, sameClauses⟩ := same.1 _ (List.mem_map_of_mem active)
  have window : Clause.window start (some stop) ∈
      (ranges.groupOf (first.filter (·.checked)) lower.attr).clauses := by
    refine (mem_clausesOf ranges false _ _).mpr (.inl ?_)
    rw [bounds_of_attr, show List.filter (·.isBound) _ = [lower, upper] from firstBounds]
    simp [attr, clausesOf, closes, lowerBound, upperBound, started, stopped]
  obtain ⟨other, _, rfl⟩ := List.mem_map.mp listed
  have moved := (mem_clausesOf ranges false _ _).mp ((sameClauses _).mp window)
  rcases moved with crossed | ⟨filter, _, own⟩
  · rw [bounds_of_attr,
      show List.filter (·.isBound) _ = [upper, lower] from secondBounds] at crossed
    by_cases here : lower.attr = other
    · simp [attr, here, clausesOf, closes, lowerBound, upperBound, started, stopped] at crossed
    · simp [attr, here, clausesOf] at crossed
  · exact window_notMem_ownClauses own

private theorem eq_or_eq_of_pair_perm {α : Type} {first second : α} (different : first ≠ second)
    {items : List α} (perm : [first, second].Perm items) :
    items = [first, second] ∨ items = [second, first] := by
  obtain ⟨head, last, rfl⟩ := List.length_eq_two.mp perm.length_eq.symm
  have firstMem : first ∈ [head, last] := perm.subset (by simp)
  have secondMem : second ∈ [head, last] := perm.subset (by simp)
  simp only [List.mem_cons, List.not_mem_nil, or_false] at firstMem secondMem
  rcases firstMem with rfl | rfl
  · left
    rw [secondMem.resolve_left different.symm]
  · right
    rw [secondMem.resolve_right different.symm]

/-- Filters in another order make the same selection exactly if the upper bound does not get in
front of the lower bound. -/
theorem sameSelection_iff {first second : List Filter} {lower upper : Filter}
    (accepted : ∀ filter ∈ first, filter.checked → ranges.refusal? filter = none)
    (lowerBound : lower.condition = .range .fromEventTime)
    (upperBound : upper.condition = .range .toEventTime) (attr : upper.attr = lower.attr)
    (ordered : (boundsOf first).Sublist [lower, upper])
    (moved : (first.filter (·.checked)).Perm (second.filter (·.checked))) :
    (ranges.queryOf first).SameSelection (ranges.queryOf second) ↔
      boundsOf second ≠ [upper, lower] := by
  have different : lower ≠ upper := by
    intro same
    subst same
    simp [lowerBound] at upperBound
  have same (filter : Filter) :
      filter ∈ first.filter (·.checked) ↔ filter ∈ second.filter (·.checked) := moved.mem_iff
  have bounds : (boundsOf first).Perm (boundsOf second) := moved.filter _
  have firstBounds : boundsOf first ∈ [lower, upper].sublists := List.mem_sublists.mpr ordered
  rw [show [lower, upper].sublists = [[], [lower], [upper], [lower, upper]] from rfl] at firstBounds
  simp only [List.mem_cons, List.not_mem_nil, or_false] at firstBounds
  constructor
  · intro selection crossed
    rcases firstBounds with none | one | one | both
    · simp [none, crossed] at bounds
    · simp [one, crossed] at bounds
    · simp [one, crossed] at bounds
    · exact not_sameSelection_queryOf accepted lowerBound upperBound attr both crossed selection
  · intro ordered
    apply sameSelection_queryOf same
    rcases firstBounds with none | one | one | both
    · rw [none] at bounds ⊢
      exact (List.nil_perm.mp bounds).symm
    · rw [one] at bounds ⊢
      exact List.singleton_perm.mp bounds
    · rw [one] at bounds ⊢
      exact List.singleton_perm.mp bounds
    · rw [both] at bounds ⊢
      exact (eq_or_eq_of_pair_perm different bounds).resolve_right ordered |>.symm

end OpenRanges

end AlarmView
