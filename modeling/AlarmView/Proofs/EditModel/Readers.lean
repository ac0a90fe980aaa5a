import AlarmView.Proofs.EditModel.Serving
import AlarmView.Proofs.FilterSet

/-!
# Two readers of an instance

The startup query reads an instance in one pass over its tree, a panel looks up each value by its
attribute and its name.  In an instance with unique sibling names both find the same criteria with
the same checked states, and the same limits, also where leaves are mistyped, empty or missing.
-/

namespace AlarmView

open BrowseName FilterSet

/-- The attribute below which a range value is stored. -/
def BrowseName.rangeOwner (name : String) : Attribute :=
  if name = fromEventTimeValue ∨ name = toEventTimeValue then .eventTime else .severity

namespace Property

/-- The children of attributes that are no range values, in the order of the tree. -/
def criteria (root : Property) : List (Attribute × String) :=
  ((storedLeaves root).filter fun part => !isRangeValue part.2.name).map
    fun part => (part.1, part.2.name)

/-- Whether range values stand below their own attributes only. -/
def RangesOwned (root : Property) : Prop :=
  ∀ part ∈ storedLeaves root, isRangeValue part.2.name = true → part.1 = rangeOwner part.2.name

instance (root : Property) : Decidable root.RangesOwned :=
  inferInstanceAs (Decidable (∀ part ∈ storedLeaves root, _ → _))

private theorem Unique.nodup_criteria {root : Property} (unique : root.Unique) :
    root.criteria.Nodup :=
  unique.nodup_storedLeaves.sublist (List.filter_sublist.map _)

private theorem RangesOwned.alone {root : Property} (owned : root.RangesOwned)
    (unique : root.Unique)
    {name : String} (range : isRangeValue name = true) (other : Attribute)
    (different : other ≠ rangeOwner name) : root.leafAt? other.browseName name = none := by
  by_contra present
  obtain ⟨leaf, found⟩ := Option.ne_none_iff_exists'.mp present
  obtain ⟨parent, _, leafFound⟩ := Option.bind_eq_some_iff.mp found
  obtain rfl : leaf.name = name := findNamed_name leafFound
  exact different (owned (other, leaf) ((mem_storedLeaves unique).mpr found) range)

end Property

namespace Instance

open Property

variable {model : Instance}

/-- The limits that an instance holds, with those of `default` for what it does not hold. -/
def limits (model : Instance) (default : RangeInputs) : RangeInputs where
  fromEventTime := (model.instant eventTime fromEventTimeValue).toOption.getD default.fromEventTime
  toEventTime := (model.instant eventTime toEventTimeValue).toOption.getD default.toEventTime
  fromSeverity :=
    ((model.number severity fromSeverity).toOption.map fun number => (number.toNat : Int)).getD
      default.fromSeverity
  toSeverity :=
    ((model.number severity toSeverity).toOption.map fun number => (number.toNat : Int)).getD
      default.toSeverity

/-- What a filter set tells of an instance, compared with looking up each value by its place. -/
structure ReadAs (model : Instance) (lexicon : Lexicon) (now : AlarmView.Instant)
    (set : FilterSet) : Prop where
  listed : set.filters.map (fun filter => (filter.attr, filter.name)) = model.root.criteria
  once : model.root.criteria.Nodup
  made : ∀ filter ∈ set.filters,
    filter = .make lexicon filter.attr filter.name filter.checked
  checked : ∀ filter ∈ set.filters,
    (filter.checked = true ↔
      model.checkedState filter.attr.browseName filter.name = .ok true)
  limits : model.root.RangesOwned → set.ranges = model.limits (.initialAt now)

private theorem filters_eq_criteria (lexicon : Lexicon) (now : AlarmView.Instant)
    (model : Instance) : (ofInstance lexicon now model).filters =
      ((storedLeaves model.root).filter fun part => !isRangeValue part.2.name).map
        fun part => .make lexicon part.1 part.2.name (isChecked part.2) := by
  rw [filters_ofInstance, ← List.filterMap_eq_map, List.filterMap_filter]
  apply List.filterMap_congr
  intro part _
  rw [criterion?_eq]
  cases isRangeValue part.2.name <;> rfl

private theorem isChecked_iff (unique : model.root.Unique) {attr : Attribute} {leaf : Property}
    (listed : (attr, leaf) ∈ storedLeaves model.root) (free : isRangeValue leaf.name = false) :
    isChecked leaf = true ↔ model.checkedState attr.browseName leaf.name = .ok true := by
  have stored : model.stored? attr.browseName leaf.name = leaf.value := by
    rw [stored?, (mem_storedLeaves unique).mp listed, Option.bind_some]
  rw [checkedState_eq_ok, stored]
  simp [isChecked, free]

/-- The value at a place, if it has the type that its name calls for. -/
def limit? (model : Instance) (attr name : String) : Option PropertyValue :=
  (model.stored? attr name).filter fun value => value.type == leafType name

private theorem holds_limit (unique : model.root.Unique) (owned : model.root.RangesOwned)
    {name : String}
    (range : isRangeValue name = true) (lexicon : Lexicon) (now : AlarmView.Instant) :
    Holds (ofInstance lexicon now model).ranges name
      ((model.limit? (rangeOwner name).browseName name).getD (defaultValue now name)) := by
  have alone := owned.alone unique range
  cases found : model.limit? (rangeOwner name).browseName name with
  | some value =>
      obtain ⟨stored, type⟩ := Option.filter_eq_some_iff.mp found
      obtain ⟨leaf, leafFound, holds⟩ := Option.bind_eq_some_iff.mp stored
      obtain ⟨parent, _, named⟩ := Option.bind_eq_some_iff.mp leafFound
      obtain rfl : leaf.name = name := findNamed_name named
      exact unique.holds_ofInstance leafFound range holds (by simpa using type) alone lexicon now
  | none =>
      refine unique.holds_default range ?_ alone lexicon now
      intro value stored
      simpa using Option.filter_eq_none_iff.mp found value stored

theorem toOption_read {α : Type} {attr name : String} {reader : PropertyValue → Option α}
    {expected : PropertyType} :
    (read reader expected model attr name).toOption = (model.stored? attr name).bind reader := by
  cases found : read reader expected model attr name with
  | ok result => exact (read_eq_ok.mp found).symm
  | error error =>
      refine (Option.eq_none_iff_forall_ne_some.mpr fun result stored => ?_).symm
      have readable : read reader expected model attr name = .ok result := read_eq_ok.mpr stored
      rw [found] at readable
      exact absurd readable (by simp)

private theorem limit?_instant {attr name : String} (time : leafType name = .dateTime)
    (now : AlarmView.Instant) : (model.limit? attr name).getD (.dateTime now) =
      .dateTime ((model.instant attr name).toOption.getD now) := by
  rw [limit?, Instance.instant, toOption_read, time]
  cases model.stored? attr name with
  | none => rfl
  | some value => cases value <;> rfl

private theorem limit?_number {attr name : String} (number : leafType name = .uint16)
    (default : UInt16) : (model.limit? attr name).getD (.uint16 default) =
      .uint16 ((model.number attr name).toOption.getD default) := by
  rw [limit?, Instance.number, toOption_read, number]
  cases model.stored? attr name with
  | none => rfl
  | some value => cases value <;> rfl

private theorem ranges_eq_limits (unique : model.root.Unique) (owned : model.root.RangesOwned)
    (lexicon : Lexicon) (now : AlarmView.Instant) :
    (ofInstance lexicon now model).ranges = model.limits (.initialAt now) := by
  have limit {name : String} (range : isRangeValue name = true) :=
    holds_limit unique owned range lexicon now
  have time {name : String} (range : isRangeValue name = true) (type : leafType name = .dateTime)
      (default : defaultValue now name = .dateTime now) :
      Holds (ofInstance lexicon now model).ranges name
        (.dateTime ((model.instant (rangeOwner name).browseName name).toOption.getD now)) := by
    rw [← limit?_instant type, ← default]
    exact limit range
  have number {name : String} (range : isRangeValue name = true) (type : leafType name = .uint16)
      {start : UInt16} (default : defaultValue now name = .uint16 start) :
      Holds (ofInstance lexicon now model).ranges name
        (.uint16 ((model.number (rangeOwner name).browseName name).toOption.getD start)) := by
    rw [← limit?_number type, ← default]
    exact limit range
  have start := holds_fromEventTime.mp (time (by decide) (by decide) rfl)
  have finish := holds_toEventTime.mp (time (by decide) (by decide) rfl)
  have lower := holds_fromSeverity.mp (number (by decide) (by decide) rfl)
  have upper := holds_toSeverity.mp (number (by decide) (by decide) rfl)
  cases ranges : (ofInstance lexicon now model).ranges with
  | mk fromTime toTime lowest highest =>
      rw [ranges] at start finish lower upper
      subst start finish lower upper
      simp only [limits, RangeInputs.initialAt, Option.getD_map]
      rfl

/-- One pass over the tree and looking up each value tell the same of an instance. -/
theorem ofInstance_readAs (unique : model.root.Unique) (lexicon : Lexicon)
    (now : AlarmView.Instant) : model.ReadAs lexicon now (ofInstance lexicon now model) := by
  have filters := filters_eq_criteria lexicon now model
  have each {filter : Filter} (member : filter ∈ (ofInstance lexicon now model).filters) :
      ∃ attr leaf, (attr, leaf) ∈ storedLeaves model.root ∧ isRangeValue leaf.name = false ∧
        filter = .make lexicon attr leaf.name (isChecked leaf) := by
    rw [filters] at member
    obtain ⟨⟨attr, leaf⟩, kept, rfl⟩ := List.mem_map.mp member
    obtain ⟨listed, free⟩ := List.mem_filter.mp kept
    exact ⟨attr, leaf, listed, by simpa using free, rfl⟩
  constructor
  case listed =>
    rw [filters, List.map_map]
    rfl
  case once => exact unique.nodup_criteria
  case made =>
    intro filter member
    obtain ⟨attr, leaf, _, _, rfl⟩ := each member
    rfl
  case checked =>
    intro filter member
    obtain ⟨attr, leaf, listed, free, rfl⟩ := each member
    exact isChecked_iff unique listed free
  case limits => exact fun owned => ranges_eq_limits unique owned lexicon now

/-- Leaves that are mistyped, empty or below no attribute are unchecked, at their defaults or left
out for both readers. -/
theorem ofInstance_readAs_mistyped :
    let now : AlarmView.Instant :=
      { AlarmView.Instant.unixEpoch with second := 1, second_lt := by decide }
    let model : Instance :=
      { root :=
          { object "Alarms" with
            children :=
              [{ object "Severity" with
                  children :=
                    [leaf "ToSeverity" (.uint16 900), leaf "FromSeverity" (.boolean true),
                      leaf "Severity" (.boolean true)] },
                { object "Colour" with
                  children := [leaf "Red" (.boolean true), leaf "ToSeverity" (.uint16 7)] },
                { object "Priority" with
                  children :=
                    [leaf "Urgent" (.dateTime .unixEpoch), object "High",
                      { leaf "Low" (.boolean true) with type := .uint16 }] },
                { object "EventTime" with
                  children := [leaf "ToEventTimeDateTime" (.dateTime .unixEpoch)] }] }
        retained := .empty }
    let set := ofInstance .empty now model
    model.root.Unique ∧ model.root.RangesOwned ∧ model.ReadAs .empty now set ∧
      model.root.criteria =
        [(.severity, "Severity"), (.priority, "Urgent"), (.priority, "High"),
          (.priority, "Low")] ∧
      set.ranges =
        { fromEventTime := now, toEventTime := .unixEpoch, fromSeverity := 1, toSeverity := 900 } := by
  intro now model set
  have unique : model.root.Unique := by decide +kernel
  have owned : model.root.RangesOwned := by decide +kernel
  have readAs := ofInstance_readAs unique .empty now
  refine ⟨unique, owned, readAs, by decide +kernel, (readAs.limits owned).trans ?_⟩
  rfl

end Instance

end AlarmView
