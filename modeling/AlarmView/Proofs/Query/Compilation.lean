import AlarmView.Proofs.Query.Attributes
import AlarmView.Query.Compile

/-!
# What the compiler computes

The compiler works with a growing list of clauses and the position of an open window.  Its result
is the same as that of a definition without positions: each lower bound of the event time looks
ahead for the upper bound that closes its window.  It fails exactly if a checked filter is refused,
with the first refusal in the order of the groups.
-/

namespace AlarmView

namespace OpenRanges

/-- Why a checked filter cannot be compiled. -/
def refusal? (ranges : OpenRanges) (filter : Filter) : Option FilterError :=
  match filter.condition with
  | .fragment text => if text = "" then some (.emptyFragment filter.attr filter.name) else none
  | .range .fromEventTime =>
      if ranges.fromEventTime.isSome then none else some (.rangeDisabled filter.name)
  | .range .toEventTime =>
      if ranges.toEventTime.isSome then none else some (.rangeDisabled filter.name)
  | .range .severity =>
      if ranges.severity.isSome then none else some (.rangeDisabled filter.name)

/-- Whether the next bound of the event time among some filters is an upper one. -/
def closes : List Filter → Bool
  | [] => false
  | filter :: rest =>
      match filter.condition with
      | .range .toEventTime => true
      | .range .fromEventTime => false
      | _ => closes rest

/-- The clauses of the checked filters of one attribute; `opened` says whether a window is open in
front of them. -/
def clausesOf (ranges : OpenRanges) : (opened : Bool) → List Filter → List Clause
  | _, [] => []
  | opened, filter :: rest =>
      match filter.condition with
      | .fragment text => .fragment text :: clausesOf ranges opened rest
      | .range .severity =>
          (ranges.severity.toList.map fun limits => .severity limits.1 limits.2) ++
            clausesOf ranges opened rest
      | .range .fromEventTime =>
          (ranges.fromEventTime.toList.map fun lower =>
            .window lower (if closes rest then ranges.toEventTime else none)) ++
            clausesOf ranges true rest
      | .range .toEventTime =>
          (if opened then [] else ranges.toEventTime.toList.map .before) ++
            clausesOf ranges false rest

end OpenRanges

def Filter.isBound (filter : Filter) : Bool :=
  match filter.condition with
  | .range .fromEventTime | .range .toEventTime => true
  | .range .severity | .fragment _ => false

theorem Filter.isBound_eq_true {filter : Filter} :
    filter.isBound = true ↔
      filter.condition = .range .fromEventTime ∨ filter.condition = .range .toEventTime := by
  rw [isBound]
  cases filter.condition with
  | fragment text => simp
  | range bound => cases bound <;> simp

namespace OpenRanges

theorem lower_of_accepted {ranges : OpenRanges} {filter : Filter}
    (accepted : ranges.refusal? filter = none)
    (condition : filter.condition = .range .fromEventTime) :
    ∃ lower, ranges.fromEventTime = some lower := by
  simpa [refusal?, condition, Option.isSome_iff_exists] using accepted

theorem upper_of_accepted {ranges : OpenRanges} {filter : Filter}
    (accepted : ranges.refusal? filter = none)
    (condition : filter.condition = .range .toEventTime) :
    ∃ upper, ranges.toEventTime = some upper := by
  simpa [refusal?, condition, Option.isSome_iff_exists] using accepted

theorem limits_of_accepted {ranges : OpenRanges} {filter : Filter}
    (accepted : ranges.refusal? filter = none)
    (condition : filter.condition = .range .severity) :
    ∃ limits, ranges.severity = some limits := by
  simpa [refusal?, condition, Option.isSome_iff_exists] using accepted

def ownClauses (ranges : OpenRanges) (filter : Filter) : List Clause :=
  match filter.condition with
  | .fragment text => [.fragment text]
  | .range .severity => ranges.severity.toList.map fun limits => .severity limits.1 limits.2
  | .range .fromEventTime | .range .toEventTime => []

variable {ranges : OpenRanges} {filter : Filter}

theorem closes_cons_of_not_bound (bound : filter.isBound = false) (rest : List Filter) :
    closes (filter :: rest) = closes rest := by
  rw [Filter.isBound] at bound
  rw [closes]
  split at bound <;> simp_all

theorem clausesOf_cons_of_not_bound (bound : filter.isBound = false) (opened : Bool)
    (rest : List Filter) :
    ranges.clausesOf opened (filter :: rest) =
      ranges.ownClauses filter ++ ranges.clausesOf opened rest := by
  rw [Filter.isBound] at bound
  rw [clausesOf, ownClauses]
  split at bound <;> simp_all

end OpenRanges

open OpenRanges

namespace GroupState

private theorem addFilter_error {ranges : OpenRanges} {filter : Filter} {error : FilterError}
    (refused : ranges.refusal? filter = some error) (state : GroupState) :
    addFilter ranges state filter = .error error := by
  unfold refusal? at refused
  unfold addFilter
  split at refused <;> split at refused <;> simp_all

private theorem addFilter_ok {ranges : OpenRanges} {filter : Filter}
    (accepted : ranges.refusal? filter = none) (state : GroupState) :
    ∃ next, addFilter ranges state filter = .ok next := by
  unfold refusal? at accepted
  unfold addFilter
  split at accepted
  · split at accepted <;> simp_all
  · cases known : ranges.fromEventTime <;> simp_all
  · cases known : ranges.toEventTime <;> simp_all
  · cases known : ranges.severity <;> simp_all

private theorem addFilter_of_not_bound {ranges : OpenRanges} {filter : Filter}
    (bound : filter.isBound = false) (accepted : ranges.refusal? filter = none) :
    ∃ clause, ranges.ownClauses filter = [clause] ∧
      ∀ state, addFilter ranges state filter = .ok (state.add clause) := by
  rw [Filter.isBound] at bound
  cases condition : filter.condition with
  | fragment text =>
      have nonempty : text ≠ "" := by simpa [refusal?, condition] using accepted
      exact ⟨.fragment text, by simp [ownClauses, condition],
        by simp [addFilter, condition, nonempty]⟩
  | range kind =>
      cases kind with
      | severity =>
          obtain ⟨limits, known⟩ := limits_of_accepted accepted condition
          exact ⟨.severity limits.1 limits.2, by simp [ownClauses, condition, known],
            by simp [addFilter, condition, known]⟩
      | fromEventTime => simp [condition] at bound
      | toEventTime => simp [condition] at bound

private theorem closeAt_window (before : List Clause) (lower upper : Instant)
    (behind : List Clause) :
    closeAt ⟨before ++ .window lower none :: behind, some before.length⟩ upper =
      ⟨before ++ .window lower (some upper) :: behind, none⟩ := by
  simp only [closeAt, mk.injEq, and_true]
  induction before with
  | nil => simp
  | cons clause rest ih => simpa using ih

/-- A run over filters that are not refused, from a state without and from a state with an open
window. -/
theorem foldlM_addFilter_ok (ranges : OpenRanges) {filters : List Filter}
    (accepted : ∀ filter ∈ filters, ranges.refusal? filter = none) :
    (∀ clauses, ∃ openWindow,
      filters.foldlM (addFilter ranges) ⟨clauses, none⟩ =
        .ok ⟨clauses ++ ranges.clausesOf false filters, openWindow⟩) ∧
    (∀ before lower behind, ∃ openWindow,
      filters.foldlM (addFilter ranges)
          ⟨before ++ .window lower none :: behind, some before.length⟩ =
        .ok ⟨before ++ .window lower (if closes filters then ranges.toEventTime else none) ::
            behind ++ ranges.clausesOf true filters, openWindow⟩) := by
  induction filters with
  | nil =>
      constructor
      · exact fun clauses => ⟨none, by simp [clausesOf, pure, Except.pure]⟩
      · intro before lower behind
        exact ⟨some before.length, by simp [clausesOf, closes, pure, Except.pure]⟩
  | cons filter rest ih =>
      have headAccepted := accepted filter List.mem_cons_self
      obtain ⟨withoutWindow, withWindow⟩ :=
        ih fun other member => accepted other (List.mem_cons_of_mem _ member)
      cases bound : filter.isBound with
      | false =>
          obtain ⟨clause, own, added⟩ := addFilter_of_not_bound bound headAccepted
          simp only [List.foldlM_cons, added, clausesOf_cons_of_not_bound bound, own,
            closes_cons_of_not_bound bound, bind, Except.bind, add]
          constructor
          · intro clauses
            simpa using withoutWindow (clauses ++ [clause])
          · intro before lower behind
            simpa using withWindow before lower (behind ++ [clause])
      | true =>
          rcases Filter.isBound_eq_true.mp bound with condition | condition
          · obtain ⟨opened, known⟩ := lower_of_accepted headAccepted condition
            simp only [List.foldlM_cons, addFilter, condition, known, clausesOf, closes, bind,
              Except.bind, openAt]
            constructor
            · intro clauses
              simpa using withWindow clauses opened []
            · -- The window that was open in front of this one stays open for ever.
              intro before lower behind
              simpa using withWindow (before ++ .window lower none :: behind) opened []
          · obtain ⟨closed, known⟩ := upper_of_accepted headAccepted condition
            simp only [List.foldlM_cons, addFilter, condition, known, clausesOf, closes, bind,
              Except.bind, closeAt_window]
            constructor
            · intro clauses
              have run := withoutWindow (clauses ++ [.before closed])
              rw [List.append_assoc] at run
              simpa [closeAt] using run
            · intro before lower behind
              simpa using withoutWindow (before ++ .window lower (some closed) :: behind)

private theorem foldlM_addFilter_error {ranges : OpenRanges} {filters : List Filter}
    {error : FilterError} (refused : filters.findSome? ranges.refusal? = some error)
    (state : GroupState) : filters.foldlM (addFilter ranges) state = .error error := by
  induction filters generalizing state with
  | nil => simp at refused
  | cons filter rest ih =>
      rw [List.findSome?_cons] at refused
      rw [List.foldlM_cons]
      cases first : ranges.refusal? filter with
      | some cause =>
          obtain rfl : cause = error := by simpa [first] using refused
          rw [addFilter_error first]
          rfl
      | none =>
          obtain ⟨next, added⟩ := addFilter_ok first state
          rw [added]
          exact ih (by simpa [first] using refused) next

end GroupState

open FilterSet

def OpenRanges.groupOf (ranges : OpenRanges) (checked : List Filter) (attr : Attribute) :
    Group where
  attr
  clauses := ranges.clausesOf false (checked.filter (·.attr == attr))

theorem compileGroup_eq (ranges : OpenRanges) (checked : List Filter) (attr : Attribute) :
    compileGroup ranges checked attr =
      match (checked.filter (·.attr == attr)).findSome? ranges.refusal? with
      | some error => .error error
      | none => .ok (ranges.groupOf checked attr) := by
  unfold compileGroup
  cases refused : (checked.filter (·.attr == attr)).findSome? ranges.refusal? with
  | some error =>
      rw [GroupState.foldlM_addFilter_error refused]
      rfl
  | none =>
      obtain ⟨openWindow, run⟩ :=
        (GroupState.foldlM_addFilter_ok ranges (List.findSome?_eq_none_iff.mp refused)).1 []
      rw [GroupState.start, run]
      rfl

def FilterSet.inGroups (filters : List Filter) : List Filter :=
  (attributesOf filters).flatMap fun attr => filters.filter (·.attr == attr)

theorem FilterSet.mem_inGroups {filters : List Filter} {filter : Filter} :
    filter ∈ inGroups filters ↔ filter ∈ filters := by
  simp only [inGroups, List.mem_flatMap, mem_attributesOf, List.mem_filter, beq_iff_eq]
  constructor
  · intro given
    obtain ⟨attr, _, member, _⟩ := given
    exact member
  · intro member
    exact ⟨filter.attr, ⟨filter, member, rfl⟩, member, rfl⟩

private theorem mapM_compileGroup (ranges : OpenRanges) (checked : List Filter)
    (attrs : List Attribute) : attrs.mapM (compileGroup ranges checked) =
      match (attrs.flatMap fun attr => checked.filter (·.attr == attr)).findSome?
          ranges.refusal? with
      | some error => .error error
      | none => .ok (attrs.map (ranges.groupOf checked)) := by
  induction attrs with
  | nil => rfl
  | cons attr rest ih =>
      rw [List.mapM_cons, compileGroup_eq, ih, List.flatMap_cons, List.findSome?_append]
      cases (checked.filter (·.attr == attr)).findSome? ranges.refusal? with
      | some error => rfl
      | none =>
          rw [Option.none_or]
          cases (rest.flatMap fun attr => checked.filter (·.attr == attr)).findSome?
            ranges.refusal? <;> rfl

/-- The query that the compiler makes of some filters, if none of them is refused. -/
def OpenRanges.queryOf (ranges : OpenRanges) (filters : List Filter) : Query where
  groups := (attributesOf (filters.filter (·.checked))).map
    (ranges.groupOf (filters.filter (·.checked)))

theorem compileWith_eq (ranges : OpenRanges) (filters : List Filter) :
    compileWith ranges filters =
      match (inGroups (filters.filter (·.checked))).findSome? ranges.refusal? with
      | some error => .error error
      | none => .ok (ranges.queryOf filters) := by
  unfold compileWith
  simp only [mapM_compileGroup, inGroups]
  split <;> rfl

private theorem compileWith_eq_ok {ranges : OpenRanges} {filters : List Filter} {query : Query} :
    compileWith ranges filters = .ok query ↔
      (∀ filter ∈ filters, filter.checked → ranges.refusal? filter = none) ∧
        query = ranges.queryOf filters := by
  rw [compileWith_eq]
  cases refused : (inGroups (filters.filter (·.checked))).findSome? ranges.refusal? with
  | some error =>
      obtain ⟨filter, member, cause⟩ := List.exists_of_findSome?_eq_some refused
      rw [mem_inGroups, List.mem_filter] at member
      constructor
      · intro failed
        cases failed
      · intro given
        obtain ⟨accepted, _⟩ := given
        simp [accepted filter member.1 member.2] at cause
  | none =>
      have accepted : ∀ filter ∈ filters, filter.checked → ranges.refusal? filter = none := by
        intro filter member checked
        exact List.findSome?_eq_none_iff.mp refused filter
          (mem_inGroups.mpr (List.mem_filter.mpr ⟨member, checked⟩))
      constructor
      · intro success
        cases success
        exact ⟨accepted, rfl⟩
      · intro given
        obtain ⟨_, rfl⟩ := given
        rfl

/-- A query is compiled exactly from a usable configuration and filters none of which is refused. -/
theorem compile_eq_ok {filters : List Filter} {inputs : RangeInputs}
    {configuration : Configuration} {query : Query} :
    compile filters inputs configuration = .ok query ↔
      ∃ gates, configuration.rangeGates = .ok gates ∧
        (∀ filter ∈ filters, filter.checked →
          (inputs.through gates).refusal? filter = none) ∧
        query = (inputs.through gates).queryOf filters := by
  unfold compile
  cases configuration.rangeGates with
  | error error => simp [bind, Except.bind, Except.mapError]
  | ok gates =>
      simp only [Except.mapError, bind, Except.bind, Except.ok.injEq, exists_eq_left',
        ← compileWith_eq_ok]
      split <;> simp_all

theorem compile_eq_error {filters : List Filter} {inputs : RangeInputs}
    {configuration : Configuration} {gates : RangeGates} {error : QueryError}
    (usable : configuration.rangeGates = .ok gates) :
    compile filters inputs configuration = .error error ↔
      ∃ cause, (inGroups (filters.filter (·.checked))).findSome?
          (inputs.through gates).refusal? = some cause ∧ error = .filter cause := by
  rw [compile, usable]
  simp only [Except.mapError, bind, Except.bind, compileWith_eq]
  cases (inGroups (filters.filter (·.checked))).findSome? (inputs.through gates).refusal? with
  | some cause => simp [eq_comm]
  | none => simp

/-- With a usable configuration nothing fails but a checked filter. -/
theorem exists_refusal_of_compile {filters : List Filter} {inputs : RangeInputs}
    {configuration : Configuration} {gates : RangeGates} {error : QueryError}
    (usable : configuration.rangeGates = .ok gates)
    (failed : compile filters inputs configuration = .error error) :
    ∃ filter ∈ filters, filter.checked ∧ ∃ cause,
      (inputs.through gates).refusal? filter = some cause ∧ error = .filter cause := by
  obtain ⟨cause, found, rfl⟩ := (compile_eq_error usable).mp failed
  obtain ⟨filter, member, reason⟩ := List.exists_of_findSome?_eq_some found
  obtain ⟨listed, checked⟩ := List.mem_filter.mp (mem_inGroups.mp member)
  exact ⟨filter, listed, checked, cause, reason, rfl⟩

namespace OpenRanges

/-- Whether two sets of limits have the same limits of a range. -/
def AgreeOn (ranges others : OpenRanges) : RangeBound → Prop
  | .fromEventTime => ranges.fromEventTime = others.fromEventTime
  | .toEventTime => ranges.toEventTime = others.toEventTime
  | .severity => ranges.severity = others.severity

variable {ranges others : OpenRanges}

theorem refusal?_congr {filter : Filter}
    (agree : ∀ bound, filter.condition = .range bound → ranges.AgreeOn others bound) :
    ranges.refusal? filter = others.refusal? filter := by
  unfold refusal?
  cases condition : filter.condition with
  | fragment text => rfl
  | range bound =>
      have same := agree bound condition
      cases bound <;> simp_all only [AgreeOn]

theorem exists_of_closes {filters : List Filter} (closing : closes filters = true) :
    ∃ filter ∈ filters, filter.condition = .range .toEventTime := by
  induction filters with
  | nil => exact absurd closing Bool.false_ne_true
  | cons filter rest ih =>
      rw [closes] at closing
      split at closing
      · next condition => exact ⟨filter, List.mem_cons_self, condition⟩
      · exact absurd closing Bool.false_ne_true
      · obtain ⟨other, member, condition⟩ := ih closing
        exact ⟨other, List.mem_cons_of_mem _ member, condition⟩

private theorem clausesOf_congr {filters : List Filter}
    (agree : ∀ filter ∈ filters, ∀ bound, filter.condition = .range bound →
      ranges.AgreeOn others bound)
    (opened : Bool) : ranges.clausesOf opened filters = others.clausesOf opened filters := by
  induction filters generalizing opened with
  | nil => rfl
  | cons filter rest ih =>
      have later := ih fun other member => agree other (List.mem_cons_of_mem _ member)
      have here := agree filter List.mem_cons_self
      rw [clausesOf, clausesOf]
      cases condition : filter.condition with
      | fragment text => simp only [later]
      | range bound =>
          have same := here bound condition
          cases bound with
          | severity => simp only [show ranges.severity = others.severity from same, later]
          | toEventTime => simp only [show ranges.toEventTime = others.toEventTime from same, later]
          | fromEventTime =>
              -- The window is closed only if a filter behind it uses the upper limit.
              have closed : (if closes rest then ranges.toEventTime else none) =
                  if closes rest then others.toEventTime else none := by
                split
                · next closing =>
                    obtain ⟨closer, member, kind⟩ := exists_of_closes closing
                    exact agree closer (List.mem_cons_of_mem _ member) .toEventTime kind
                · rfl
              simp only [show ranges.fromEventTime = others.fromEventTime from same, closed, later]

theorem queryOf_congr {filters : List Filter}
    (agree : ∀ filter ∈ filters, filter.checked → ∀ bound, filter.condition = .range bound →
      ranges.AgreeOn others bound) : ranges.queryOf filters = others.queryOf filters := by
  rw [queryOf, queryOf]
  congr 1
  refine List.map_congr_left fun attr _ => congrArg (Group.mk attr) (clausesOf_congr ?_ false)
  intro filter member
  obtain ⟨listed, checked⟩ := List.mem_filter.mp (List.mem_filter.mp member).1
  exact agree filter listed checked

end OpenRanges

/-- Other limits of ranges that no checked filter uses give the same query. -/
theorem compile_of_agree {filters : List Filter} {inputs others : RangeInputs}
    {configuration : Configuration} {query : Query}
    (accepted : compile filters inputs configuration = .ok query)
    (agree : ∀ gates, configuration.rangeGates = .ok gates →
      ∀ filter ∈ filters, filter.checked → ∀ bound, filter.condition = .range bound →
        (inputs.through gates).AgreeOn (others.through gates) bound) :
    compile filters others configuration = .ok query := by
  obtain ⟨gates, usable, available, rfl⟩ := compile_eq_ok.mp accepted
  have agreeing := agree gates usable
  refine compile_eq_ok.mpr ⟨gates, usable, fun filter member checked => ?_, queryOf_congr agreeing⟩
  rw [← refusal?_congr (agreeing filter member checked)]
  exact available filter member checked

end AlarmView
