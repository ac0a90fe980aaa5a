import AlarmView.Proofs.Query.Compilation
import Mathlib.Data.List.Forall2

/-!
# Pairs of event time bounds

Among the checked filters of an attribute, an upper bound of the event time is merged into the
bound just before it, if that is a lower bound, and closes its window.  All other filters are one
clause each, in their order.  The loop that makes the clauses keeps the position of a window that is
open, and what it has written at any other position is final.
-/

namespace AlarmView

/-- The last bound of the event time among some filters. -/
def lastBound? (filters : List Filter) : Option RangeBound :=
  (filters.filter (·.isBound)).getLast?.bind (·.range?)

/-- The first bound of the event time among some filters. -/
def firstBound? (filters : List Filter) : Option RangeBound :=
  (filters.filter (·.isBound)).head?.bind (·.range?)

/-- A filter of a list, with those in front of it and those behind it. -/
structure Standing where
  front : List Filter
  filter : Filter
  back : List Filter

namespace Standing

/-- The filters of a list that stands behind some others. -/
def listed (front : List Filter) : List Filter → List Standing
  | [] => []
  | filter :: rest => ⟨front, filter, rest⟩ :: listed (front ++ [filter]) rest

/-- Whether a filter is an upper bound that closes the window of the bound just before it. -/
def isMerged (standing : Standing) : Bool :=
  standing.filter.range? == some .toEventTime &&
    lastBound? standing.front == some .fromEventTime

/-- What a filter that is not merged contributes to its group. -/
inductive Makes (ranges : OpenRanges) : Standing → Clause → Prop where
  | fragment {standing : Standing} {text : String} :
      standing.filter.condition = .fragment text →
      Makes ranges standing (.fragment text)
  | severity {standing : Standing} {lower upper : Int} :
      standing.filter.condition = .range .severity →
      ranges.severity = some (lower, upper) →
      Makes ranges standing (.severity lower upper)
  | closed {standing : Standing} {lower upper : Instant} :
      standing.filter.condition = .range .fromEventTime →
      firstBound? standing.back = some .toEventTime →
      ranges.fromEventTime = some lower →
      ranges.toEventTime = some upper →
      Makes ranges standing (.window lower (some upper))
  | opened {standing : Standing} {lower : Instant} :
      standing.filter.condition = .range .fromEventTime →
      firstBound? standing.back ≠ some .toEventTime →
      ranges.fromEventTime = some lower →
      Makes ranges standing (.window lower none)
  | before {standing : Standing} {upper : Instant} :
      standing.filter.condition = .range .toEventTime →
      lastBound? standing.front ≠ some .fromEventTime →
      ranges.toEventTime = some upper →
      Makes ranges standing (.before upper)

/-- Whether a filter stands in front of another one, with no bound between them. -/
def JustBefore (first second : Standing) : Prop :=
  ∃ between, second.front = first.front ++ first.filter :: between ∧
    first.back = between ++ second.filter :: second.back ∧
    ∀ filter ∈ between, filter.isBound = false

end Standing

variable {ranges : OpenRanges} {filter : Filter} {filters front back : List Filter}

theorem Filter.range?_eq_some {bound : RangeBound} :
    filter.range? = some bound ↔ filter.condition = .range bound := by
  rw [range?]
  cases filter.condition <;> simp

theorem lastBound?_append_of_bound (bound : filter.isBound = true) (filters : List Filter) :
    lastBound? (filters ++ [filter]) = filter.range? := by
  simp [lastBound?, bound]

theorem lastBound?_append_of_not_bound (bound : filter.isBound = false) (filters : List Filter) :
    lastBound? (filters ++ [filter]) = lastBound? filters := by
  simp [lastBound?, bound]

private theorem closes_eq (filters : List Filter) :
    OpenRanges.closes filters = (firstBound? filters == some .toEventTime) := by
  induction filters with
  | nil => rfl
  | cons filter rest ih =>
      cases bound : filter.isBound with
      | false =>
          rw [OpenRanges.closes_cons_of_not_bound bound, ih]
          simp [firstBound?, bound]
      | true =>
          have first : firstBound? (filter :: rest) = filter.range? := by simp [firstBound?, bound]
          rw [first, OpenRanges.closes]
          rcases Filter.isBound_eq_true.mp bound with lower | upper
          · simp [lower, Filter.range?]
          · simp [upper, Filter.range?]

private theorem firstBound?_append_of_free (free : ∀ filter ∈ front, filter.isBound = false)
    (back : List Filter) : firstBound? (front ++ back) = firstBound? back := by
  have none : front.filter (·.isBound) = [] := by
    apply List.filter_eq_nil_iff.mpr
    intro filter member
    simp [free filter member]
  rw [firstBound?, List.filter_append, none, List.nil_append, firstBound?]

/-- The last bound stands somewhere, with no bound behind it. -/
theorem exists_of_lastBound? {bound : RangeBound} (last : lastBound? filters = some bound) :
    ∃ front filter between, filters = front ++ filter :: between ∧ filter.range? = some bound ∧
      ∀ other ∈ between, other.isBound = false := by
  induction filters using List.reverseRecOn with
  | nil => simp [lastBound?] at last
  | append_singleton filters filter ih =>
      cases isBound : filter.isBound with
      | true =>
          rw [lastBound?_append_of_bound isBound] at last
          exact ⟨filters, filter, [], rfl, last, by simp⟩
      | false =>
          rw [lastBound?_append_of_not_bound isBound] at last
          obtain ⟨front, found, between, rfl, range, free⟩ := ih last
          refine ⟨front, found, between ++ [filter], by simp, range, ?_⟩
          intro other member
          rcases List.mem_append.mp member with earlier | here
          · exact free other earlier
          · rwa [List.mem_singleton.mp here]

namespace Standing

private theorem length_listed (front filters : List Filter) :
    (listed front filters).length = filters.length := by
  induction filters generalizing front with
  | nil => rfl
  | cons filter rest ih => simp [listed, ih]

private theorem countP_merged (filters : List Filter) :
    (listed [] filters).countP (·.isMerged) + ((listed [] filters).filter (!·.isMerged)).length =
      filters.length := by
  rw [← List.countP_eq_length_filter, ← length_listed []]
  simpa using (List.length_eq_countP_add_countP isMerged (l := listed [] filters)).symm

private theorem mem_listed {standing : Standing} :
    standing ∈ listed front filters ↔
      ∃ between, standing.front = front ++ between ∧
        filters = between ++ standing.filter :: standing.back := by
  induction filters generalizing front with
  | nil => simp [listed]
  | cons filter rest ih =>
      rw [listed, List.mem_cons, ih]
      constructor
      · intro given
        rcases given with rfl | later
        · exact ⟨[], by simp, rfl⟩
        · obtain ⟨between, behind, rfl⟩ := later
          exact ⟨filter :: between, by simpa using behind, rfl⟩
      · intro given
        obtain ⟨between, behind, split⟩ := given
        cases between with
        | nil =>
            left
            obtain ⟨rfl, rfl⟩ := List.cons.inj split
            cases standing
            simpa using behind
        | cons head between =>
            right
            obtain ⟨rfl, later⟩ := List.cons.inj split
            exact ⟨between, by simpa using behind, later⟩

/-- A lower bound makes a window, which the next bound closes if it is an upper one. -/
theorem makes_lower (accepted : ∀ filter ∈ back, ranges.refusal? filter = none)
    (condition : filter.condition = .range .fromEventTime) {lower : Instant}
    (known : ranges.fromEventTime = some lower) (front : List Filter) :
    Makes ranges ⟨front, filter, back⟩
      (.window lower (if OpenRanges.closes back then ranges.toEventTime else none)) := by
  split
  · next closing =>
      obtain ⟨closer, member, upperBound⟩ := OpenRanges.exists_of_closes closing
      obtain ⟨upper, upperKnown⟩ := OpenRanges.upper_of_accepted (accepted closer member) upperBound
      rw [closes_eq, beq_iff_eq] at closing
      rw [upperKnown]
      exact .closed condition closing known upperKnown
  · next staying =>
      rw [closes_eq, beq_iff_eq] at staying
      exact .opened condition staying known

/-- A filter that is not merged makes the next clause. -/
theorem makes_cons {clause : Clause} {clauses : List Clause}
    (made : Makes ranges ⟨front, filter, back⟩ clause)
    (kept : isMerged ⟨front, filter, back⟩ = false)
    (later : List.Forall₂ (Makes ranges)
      ((listed (front ++ [filter]) back).filter (!·.isMerged)) clauses) :
    List.Forall₂ (Makes ranges) ((listed front (filter :: back)).filter (!·.isMerged))
      (clause :: clauses) := by
  rw [listed, List.filter_cons_of_pos (by simp [kept])]
  exact .cons made later

/-- The filters that are not merged make the clauses, each one clause, in their order. -/
theorem makes_clausesOf (accepted : ∀ filter ∈ filters, ranges.refusal? filter = none)
    (front : List Filter) :
    List.Forall₂ (Makes ranges) ((listed front filters).filter (!·.isMerged))
      (ranges.clausesOf (lastBound? front == some .fromEventTime) filters) := by
  induction filters generalizing front with
  | nil => exact .nil
  | cons filter rest ih =>
      obtain ⟨here, restAccepted⟩ := List.forall_mem_cons.mp accepted
      have later := ih restAccepted (front ++ [filter])
      rw [OpenRanges.clausesOf]
      cases condition : filter.condition with
      | fragment text =>
          have bound : filter.isBound = false := by simp [Filter.isBound, condition]
          rw [lastBound?_append_of_not_bound bound] at later
          exact makes_cons (.fragment condition) (by simp [isMerged, Filter.range?, condition]) later
      | range range =>
          cases range with
          | severity =>
              have bound : filter.isBound = false := by simp [Filter.isBound, condition]
              obtain ⟨limits, known⟩ := OpenRanges.limits_of_accepted here condition
              rw [lastBound?_append_of_not_bound bound] at later
              rw [known]
              exact makes_cons (.severity condition known)
                (by simp [isMerged, Filter.range?, condition]) later
          | fromEventTime =>
              have bound : filter.isBound = true := by simp [Filter.isBound, condition]
              obtain ⟨lower, known⟩ := OpenRanges.lower_of_accepted here condition
              rw [lastBound?_append_of_bound bound, Filter.range?_eq_some.mpr condition] at later
              rw [known]
              exact makes_cons (makes_lower restAccepted condition known front)
                (by simp [isMerged, Filter.range?, condition]) later
          | toEventTime =>
              have bound : filter.isBound = true := by simp [Filter.isBound, condition]
              have range := Filter.range?_eq_some.mpr condition
              obtain ⟨upper, known⟩ := OpenRanges.upper_of_accepted here condition
              rw [lastBound?_append_of_bound bound, range] at later
              by_cases opened : lastBound? front = some .fromEventTime
              · -- The window of the bound in front is closed, so there is no clause.
                have merged : isMerged ⟨front, filter, rest⟩ = true := by
                  simp [isMerged, range, opened]
                rw [listed, List.filter_cons_of_neg (by simp [merged]), opened]
                exact later
              · dsimp only
                rw [known, if_neg (by simpa using opened)]
                exact makes_cons (.before condition opened known) (by simp [isMerged, opened]) later

/-- A merged filter stands behind a lower bound, whose window it closes. -/
theorem exists_opener (accepted : ∀ filter ∈ filters, ranges.refusal? filter = none)
    {standing : Standing} (member : standing ∈ listed [] filters) (merged : standing.isMerged) :
    ∃ opener ∈ listed [] filters, opener.JustBefore standing ∧
      ∃ lower upper, opener.Makes ranges (.window lower (some upper)) := by
  obtain ⟨front, whole, split⟩ := mem_listed.mp member
  rw [List.nil_append] at whole
  rw [isMerged, Bool.and_eq_true, beq_iff_eq, beq_iff_eq] at merged
  obtain ⟨upperBound, opened⟩ := merged
  obtain ⟨before, lowerFilter, between, frontSplit, lowerBound, free⟩ := exists_of_lastBound? opened
  have bound : standing.filter.isBound = true :=
    Filter.isBound_eq_true.mpr (.inr (Filter.range?_eq_some.mp upperBound))
  have next : firstBound? (between ++ standing.filter :: standing.back) = some .toEventTime := by
    rw [firstBound?_append_of_free free]
    simpa [firstBound?, bound] using upperBound
  have parts : filters = before ++ lowerFilter :: (between ++ standing.filter :: standing.back) := by
    rw [split, ← whole, frontSplit]
    simp
  obtain ⟨lower, lowerKnown⟩ := OpenRanges.lower_of_accepted
    (accepted lowerFilter (by simp [parts])) (Filter.range?_eq_some.mp lowerBound)
  obtain ⟨upper, upperKnown⟩ := OpenRanges.upper_of_accepted
    (accepted standing.filter (by simp [parts])) (Filter.range?_eq_some.mp upperBound)
  refine ⟨⟨before, lowerFilter, between ++ standing.filter :: standing.back⟩, ?_, ?_, lower, upper,
    ?_⟩
  · exact mem_listed.mpr ⟨before, rfl, parts⟩
  · exact ⟨between, frontSplit, rfl, free⟩
  · exact .closed (Filter.range?_eq_some.mp lowerBound) next lowerKnown upperKnown

end Standing

namespace GroupState

variable {state next : GroupState}

/-- Whether the position of the open window, if there is one, is that of a window that is open. -/
def Sound (state : GroupState) : Prop :=
  ∀ position, state.openWindow = some position →
    ∃ lower, state.clauses[position]? = some (.window lower none)

/-- Whether a clause stands at a position other than that of the open window. -/
def Settled (state : GroupState) (position : Nat) (clause : Clause) : Prop :=
  state.clauses[position]? = some clause ∧ state.openWindow ≠ some position

/-- What a step preserves: the open window is known, and a settled clause stays as it is. -/
structure Keeps (state next : GroupState) : Prop where
  sound : next.Sound
  settled : ∀ position clause, state.Settled position clause → next.Settled position clause

private theorem addFilter_cases (added : addFilter ranges state filter = .ok next) :
    (∃ clause, next = state.add clause) ∨ (∃ lower, next = state.openAt lower) ∨
      ∃ upper, next = state.closeAt upper := by
  rw [addFilter] at added
  split at added
  · next text condition =>
      split at added
      · cases added
      · exact .inl ⟨_, (Except.ok.inj added).symm⟩
  · split at added
    · exact .inr (.inl ⟨_, (Except.ok.inj added).symm⟩)
    · cases added
  · split at added
    · exact .inr (.inr ⟨_, (Except.ok.inj added).symm⟩)
    · cases added
  · split at added
    · exact .inl ⟨_, (Except.ok.inj added).symm⟩
    · cases added

theorem lt_of_settled {position : Nat} {clause : Clause} (settled : state.Settled position clause) :
    position < state.clauses.length :=
  (List.getElem?_eq_some_iff.mp settled.1).1

private theorem keeps_add (sound : state.Sound) (clause : Clause) : state.Keeps
    (state.add clause) where
  sound position openHere := by
    obtain ⟨lower, placed⟩ := sound position openHere
    refine ⟨lower, ?_⟩
    rw [add, List.getElem?_append_left (List.getElem?_eq_some_iff.mp placed).1, placed]
  settled position other settled := by
    refine ⟨?_, settled.2⟩
    rw [add, List.getElem?_append_left (lt_of_settled settled), settled.1]

private theorem keeps_openAt (state : GroupState) (lower : Instant) : state.Keeps
    (state.openAt lower) where
  sound position openHere := by
    obtain rfl := Option.some.inj openHere
    exact ⟨lower, by simp [openAt]⟩
  settled position other settled := by
    have inside := lt_of_settled settled
    refine ⟨?_, ?_⟩
    · rw [openAt, List.getElem?_append_left inside, settled.1]
    · simp only [openAt, ne_eq, Option.some.injEq]
      omega

private theorem keeps_closeAt (state : GroupState) (upper : Instant) :
    state.Keeps (state.closeAt upper) where
  sound position openHere := by
    rw [closeAt] at openHere
    split at openHere <;> cases openHere
  settled position other settled := by
    rw [closeAt]
    split
    · next opened isOpen =>
        have different : opened ≠ position := fun same => settled.2 (same ▸ isOpen)
        refine ⟨?_, by simp⟩
        exact (List.getElem?_modify_ne _ _ different).trans settled.1
    · refine ⟨?_, by simp⟩
      rw [List.getElem?_append_left (lt_of_settled settled), settled.1]

private theorem keeps_addFilter (sound : state.Sound)
    (added : addFilter ranges state filter = .ok next) : state.Keeps next := by
  rcases addFilter_cases added with ⟨clause, rfl⟩ | ⟨lower, rfl⟩ | ⟨upper, rfl⟩
  · exact keeps_add sound clause
  · exact keeps_openAt state lower
  · exact keeps_closeAt state upper

private theorem Keeps.refl (sound : state.Sound) : state.Keeps state where
  sound := sound
  settled _ _ settled := settled

private theorem Keeps.trans {last : GroupState} (first : state.Keeps next)
    (second : next.Keeps last) : state.Keeps last where
  sound := second.sound
  settled position clause settled :=
    second.settled position clause (first.settled position clause settled)

private theorem keeps_run (sound : state.Sound)
    (run : filters.foldlM (addFilter ranges) state = .ok next) : state.Keeps next := by
  induction filters generalizing state with
  | nil =>
      obtain rfl := Except.ok.inj run
      exact .refl sound
  | cons filter rest ih =>
      rw [List.foldlM_cons] at run
      cases added : addFilter ranges state filter with
      | error error => simp [added, bind, Except.bind] at run
      | ok middle =>
          have first := keeps_addFilter sound added
          rw [added] at run
          exact first.trans (ih first.sound run)

private theorem sound_start : start.Sound := by
  intro position openHere
  cases openHere

/-- A window that is closed is settled. -/
theorem settled_of_closed (sound : state.Sound) {position : Nat} {lower upper : Instant}
    (placed : state.clauses[position]? = some (.window lower (some upper))) :
    state.Settled position (.window lower (some upper)) := by
  refine ⟨placed, fun openHere => ?_⟩
  obtain ⟨other, opened⟩ := sound position openHere
  simp [placed] at opened

/-- A run can be stopped anywhere; what it has settled until then is there in the end. -/
theorem exists_middle (accepted : ∀ filter ∈ front ++ back, ranges.refusal? filter = none) :
    ∃ middle : GroupState, front.foldlM (addFilter ranges) start = .ok middle ∧ middle.Sound ∧
      ∀ position clause, middle.Settled position clause →
        (ranges.clausesOf false (front ++ back))[position]? = some clause := by
  obtain ⟨_, frontRun⟩ := (foldlM_addFilter_ok ranges fun filter member =>
    accepted filter (List.mem_append_left back member)).1 []
  obtain ⟨_, wholeRun⟩ := (foldlM_addFilter_ok ranges accepted).1 []
  have sound := (keeps_run sound_start frontRun).sound
  rw [List.foldlM_append, frontRun] at wholeRun
  have kept := keeps_run sound wholeRun
  refine ⟨_, frontRun, sound, ?_⟩
  intro position clause settled
  exact (kept.settled position clause settled).1

end GroupState

/-- How the checked filters of an attribute make the clauses of its group. -/
structure Paired (ranges : OpenRanges) (filters : List Filter) (clauses : List Clause) : Prop where
  inOrder : List.Forall₂ (Standing.Makes ranges)
    ((Standing.listed [] filters).filter (!·.isMerged)) clauses
  closes : ∀ merged ∈ Standing.listed [] filters, merged.isMerged →
    ∃ opener ∈ Standing.listed [] filters, opener.JustBefore merged ∧
      ∃ lower upper, opener.Makes ranges (.window lower (some upper))
  count : clauses.length + (Standing.listed [] filters).countP (·.isMerged) = filters.length
  /-- A window that the loop has closed after some of the filters is never written again. -/
  final : ∀ front back, filters = front ++ back → ∃ state : GroupState,
    front.foldlM (GroupState.addFilter ranges) .start = .ok state ∧ state.Sound ∧
      ∀ (position : Nat) (lower upper : Instant),
        state.clauses[position]? = some (.window lower (some upper)) →
          clauses[position]? = some (.window lower (some upper))

private theorem compileGroup_eq_ok {checked : List Filter} {attr : Attribute} {group : Group} :
    compileGroup ranges checked attr = .ok group ↔
      (∀ filter ∈ checked.filter (·.attr == attr), ranges.refusal? filter = none) ∧
        group = ranges.groupOf checked attr := by
  rw [compileGroup_eq, ← List.findSome?_eq_none_iff]
  split
  · next error refused => simp [refused]
  · next accepted => simp [accepted, eq_comm]

/-- The filters of a group pair up. -/
theorem compileGroup_paired {filters : List Filter} {attr : Attribute} {group : Group}
    (compiled : compileGroup ranges (filters.filter (·.checked)) attr = .ok group) :
    Paired ranges ((filters.filter (·.checked)).filter (·.attr == attr)) group.clauses := by
  obtain ⟨accepted, rfl⟩ := compileGroup_eq_ok.mp compiled
  have made := Standing.makes_clausesOf accepted []
  refine ⟨made, fun _ => Standing.exists_opener accepted, ?_, ?_⟩
  · have clauses : List.length _ = (ranges.groupOf _ attr).clauses.length := made.length_eq
    rw [← clauses, Nat.add_comm]
    exact Standing.countP_merged _
  · intro front back split
    rw [split] at accepted
    obtain ⟨state, run, sound, kept⟩ := GroupState.exists_middle accepted
    refine ⟨state, run, sound, ?_⟩
    intro position lower upper placed
    rw [OpenRanges.groupOf, split]
    exact kept _ _ (GroupState.settled_of_closed sound placed)

/-- A window that is closed behind another filter, an upper bound of its own, and a window that
stays open. -/
theorem compileGroup_paired_twoWindows :
    let named := fun name => Filter.make .empty .eventTime name true
    let filters := [named "FromEventTime", named "Urgent", named "ToEventTime",
      .make .empty .eventTime "Low" false, named "ToEventTime", named "FromEventTime",
      named "Severity"]
    let ranges := (RangeInputs.initialAt .unixEpoch).through ⟨⟨true, true⟩, true⟩
    let upper := secondAfter .unixEpoch
    ∃ group, compileGroup ranges (filters.filter (·.checked)) .eventTime = .ok group ∧
      group.clauses =
        [.window .unixEpoch (some upper), .fragment "(Severity >= 751 AND Severity <= 1000)",
          .before upper, .window .unixEpoch none, .severity 1 1000] ∧
      Paired ranges ((filters.filter (·.checked)).filter (·.attr == .eventTime)) group.clauses :=
  ⟨_, rfl, by decide +kernel, compileGroup_paired rfl⟩

end AlarmView
