import AlarmView.Proofs.Query.Compilation
import AlarmView.Proofs.Query.Grammar

/-!
# What a compiled query says

The text of a compiled query has no condition if no filter is checked.  Otherwise its condition has
an operand for every attribute with a checked filter, and it is read in exactly one way: as the
conjunction, over these attributes, of the disjunction of the clauses of the attribute.
-/

namespace AlarmView

open Query

private theorem OpenRanges.clausesOf_ne_nil {ranges : OpenRanges} {filter : Filter}
    (accepted : ranges.refusal? filter = none) (rest : List Filter) :
    ranges.clausesOf false (filter :: rest) ≠ [] := by
  unfold clausesOf
  split
  · simp
  · next condition =>
      obtain ⟨limits, known⟩ := limits_of_accepted accepted condition
      simp [known]
  · next condition =>
      obtain ⟨lower, known⟩ := lower_of_accepted accepted condition
      simp [known]
  · next condition =>
      obtain ⟨upper, known⟩ := upper_of_accepted accepted condition
      simp [known]

/-- An attribute with a checked filter that is not refused has a clause. -/
theorem OpenRanges.groupOf_clauses_ne_nil {ranges : OpenRanges} {checked : List Filter}
    (accepted : ∀ filter ∈ checked, ranges.refusal? filter = none) {attr : Attribute}
    (active : attr ∈ FilterSet.attributesOf checked) :
    (ranges.groupOf checked attr).clauses ≠ [] := by
  obtain ⟨filter, member, named⟩ := FilterSet.mem_attributesOf.mp active
  have selected : filter ∈ checked.filter (·.attr == attr) :=
    List.mem_filter.mpr ⟨member, by simpa using named⟩
  obtain ⟨first, rest, split⟩ := List.exists_cons_of_ne_nil (List.ne_nil_of_mem selected)
  have firstChecked : first ∈ checked := by
    have firstSelected : first ∈ checked.filter (·.attr == attr) := by simp [split]
    exact (List.mem_filter.mp firstSelected).1
  rw [groupOf, split]
  exact clausesOf_ne_nil (accepted first firstChecked) rest

namespace FilterSet

/-- The clauses of the checked filters of an attribute. -/
def clausesFor (set : FilterSet) (ranges : OpenRanges) (attr : Attribute) : List Clause :=
  ranges.clausesOf false (set.checked.filter (·.attr == attr))

/-- The tokens of the clauses of one attribute, in parentheses exactly if there are several. -/
def operandTokens (clauses : List Clause) : List Token :=
  let alternatives := (clauses.map Token.clause).intersperse .or
  if 2 ≤ clauses.length then .openGroup :: alternatives ++ [.closeGroup] else alternatives

/-- The operands of the active attributes in their order, joined by ANDs. -/
def conditionTokens (set : FilterSet) (ranges : OpenRanges) : List Token :=
  [Token.and].intercalate
    (set.activeAttributes.map fun attr => operandTokens (set.clausesFor ranges attr))

/-- What the checked filters of a set say under an assignment to the clauses. -/
def selects (set : FilterSet) (ranges : OpenRanges) (truth : Clause → Bool) : Bool :=
  set.activeAttributes.all fun attr => (set.clausesFor ranges attr).any truth

/-- A query whose text says what the checked filters of a set say. -/
structure WrittenAs (set : FilterSet) (ranges : OpenRanges) (query : Query) : Prop where
  unrestricted : set.checked = [] → query.text = "SELECT * FROM Model"
  restricted : set.checked ≠ [] →
    query.text = "SELECT * FROM Model" ++ " WHERE " ++
      String.join ((set.conditionTokens ranges).map Token.text)
  reading : set.checked ≠ [] → ∃ formula,
    Reads .disjunction (set.conditionTokens ranges) formula ∧
      (∀ other, Reads .disjunction (set.conditionTokens ranges) other → other = formula) ∧
        ∀ truth, formula.eval truth = set.selects ranges truth
  active : ∀ attr, attr ∈ set.activeAttributes ↔ ∃ filter ∈ set.checked, filter.attr = attr
  nodup : set.activeAttributes.Nodup
  firstChecked : set.activeAttributes.Pairwise fun first second =>
    firstOf set.checked first < firstOf set.checked second
  clauses : ∀ attr ∈ set.activeAttributes, set.clausesFor ranges attr ≠ []

private theorem operandTokens_eq (group : Group) : group.tokens = operandTokens group.clauses := by
  unfold Group.tokens operandTokens
  by_cases several : 2 ≤ group.clauses.length
  · rw [if_pos several, if_neg (by omega)]
  · rw [if_neg several, if_pos (by omega)]

theorem queryOf_tokens (set : FilterSet) (ranges : OpenRanges) :
    (ranges.queryOf set.filters).tokens = set.conditionTokens ranges := by
  simp only [Query.tokens, OpenRanges.queryOf, conditionTokens, activeAttributes, List.map_map]
  congr 1
  apply List.map_congr_left
  intro attr _
  exact operandTokens_eq (ranges.groupOf set.checked attr)

theorem queryOf_groups_eq_nil {set : FilterSet} {ranges : OpenRanges} :
    (ranges.queryOf set.filters).groups = [] ↔ set.checked = [] := by
  rw [OpenRanges.queryOf, List.map_eq_nil_iff, attributesOf_eq_nil]
  rfl

private theorem queryOf_text (set : FilterSet) (ranges : OpenRanges) (some : set.checked ≠ []) :
    (ranges.queryOf set.filters).text =
      "SELECT * FROM Model" ++ " WHERE " ++
        String.join ((set.conditionTokens ranges).map Token.text) := by
  rw [← queryOf_tokens]
  unfold Query.text
  split
  · next none => exact absurd (queryOf_groups_eq_nil.mp none) some
  · rfl

private theorem queryOf_writtenAs {set : FilterSet} {ranges : OpenRanges}
    (accepted : ∀ filter ∈ set.checked, ranges.refusal? filter = none) :
    set.WrittenAs ranges (ranges.queryOf set.filters) where
  unrestricted none := by
    simp [Query.text, queryOf_groups_eq_nil.mpr none, baseText]
  restricted := queryOf_text set ranges
  reading some := by
    have nonempty : ∀ group ∈ (ranges.queryOf set.filters).groups, group.clauses ≠ [] := by
      intro group member
      obtain ⟨attr, active, rfl⟩ := List.mem_map.mp member
      exact OpenRanges.groupOf_clauses_ne_nil accepted active
    obtain ⟨formula, reading, value⟩ := Reads.query (mt queryOf_groups_eq_nil.mp some) nonempty
    rw [queryOf_tokens] at reading
    refine ⟨formula, reading, fun other otherReading => reading.unique otherReading, ?_⟩
    intro truth
    rw [value, OpenRanges.queryOf, List.all_map]
    rfl
  active _ := mem_attributesOf
  nodup := nodup_attributesOf set.checked
  firstChecked := pairwise_attributesOf set.checked
  clauses _ active := OpenRanges.groupOf_clauses_ne_nil accepted active

end FilterSet

/-- A compiled query says that every attribute with a checked filter has a clause that holds. -/
theorem compile_writtenAs {set : FilterSet} {configuration : Configuration} {query : Query}
    (compiled : compile set.filters set.ranges configuration = .ok query) :
    ∃ gates, configuration.rangeGates = .ok gates ∧
      set.WrittenAs (set.ranges.through gates) query := by
  obtain ⟨gates, usable, accepted, rfl⟩ := compile_eq_ok.mp compiled
  refine ⟨gates, usable, FilterSet.queryOf_writtenAs ?_⟩
  intro filter member
  obtain ⟨listed, checked⟩ := List.mem_filter.mp member
  exact accepted filter listed checked

/-- Two attributes, one of them with two checked filters around that of the other. -/
theorem compile_writtenAs_priority_inhibit :
    let set : FilterSet :=
      { filters :=
          [.make .empty .priority "Urgent" true, .make .empty .severity "Severity" false,
            .make .empty .inhibit "Enabled" true, .make .empty .priority "Low" true]
        ranges := .initialAt .unixEpoch }
    ∃ query, compile set.filters set.ranges .builtin = .ok query ∧
      query.text =
        "SELECT * FROM Model WHERE ((Severity >= 751 AND Severity <= 1000) OR " ++
          "(Severity >= 1 AND Severity <= 250)) AND EnabledState.Id = 1" ∧
      ∃ gates, Configuration.builtin.rangeGates = .ok gates ∧
        set.WrittenAs (set.ranges.through gates) query :=
  ⟨_, rfl, by decide +kernel, compile_writtenAs rfl⟩

end AlarmView
