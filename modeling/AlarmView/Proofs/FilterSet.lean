import AlarmView.FilterSet
import AlarmView.Proofs.EditModel.Shape
import Mathlib.Data.Prod.Basic

/-!
# Stored filters

An instance stores one filter for each leaf below an attribute that is no range value, in the order
of its tree, and the limits of the ranges in its range values.
-/

namespace AlarmView

open BrowseName Property

theorem Attribute.ofBrowseName?_eq_some {text : String} {attr : Attribute} :
    ofBrowseName? text = some attr ↔ attr.browseName = text := by
  constructor
  · intro found
    simpa using List.find?_some found
  · intro same
    subst same
    exact ofBrowseName?_browseName attr

theorem Attribute.browseName_injective : Function.Injective browseName := by
  intro first second same
  have found := ofBrowseName?_eq_some.mpr same
  rw [ofBrowseName?_browseName] at found
  exact (Option.some.inj found).symm

theorem Filter.conditionOf_eq_range {lexicon : Lexicon} {attr : Attribute} {name : String}
    {bound : RangeBound} :
    conditionOf lexicon attr name = .range bound ↔ name = bound.browseName := by
  constructor
  · intro range
    rw [conditionOf] at range
    split at range
    · next other found =>
        obtain rfl := Condition.range.inj range
        exact (by simpa using List.find?_some found : other.browseName = name).symm
    · exact absurd range (by simp)
  · rintro rfl
    cases bound <;> rfl

private theorem PropertyValue.dateTime_of_type {value : PropertyValue}
    (type : value.type = .dateTime) : ∃ instant, value = .dateTime instant := by
  cases value <;> first | exact ⟨_, rfl⟩ | simp [PropertyValue.type] at type

private theorem PropertyValue.uint16_of_type {value : PropertyValue} (type : value.type = .uint16) :
    ∃ number, value = .uint16 number := by
  cases value <;> first | exact ⟨_, rfl⟩ | simp [PropertyValue.type] at type

namespace FilterSet

private theorem Reading.of_range {name : String} (range : isRangeValue name = true)
    (value : Option PropertyValue) (checked known : Bool) :
    Reading.of name value ≠ .criterion checked known := by
  unfold Reading.of
  rw [if_pos range]
  split
  · split_ifs <;> simp
  · split_ifs <;> simp
  · simp

theorem Reading.of_criterion {name : String} (free : isRangeValue name = false)
    (value : Option PropertyValue) :
    Reading.of name value =
      match value with
      | some (.boolean checked) => .criterion checked true
      | _ => .criterion false false := by
  have unreserved : ¬ isRangeValue name = true := by simp [free]
  unfold Reading.of
  cases value with
  | none => exact if_neg unreserved
  | some value => cases value <;> exact if_neg unreserved

def leavesUnder (parent : Property) : List (Attribute × Property) :=
  match Attribute.ofBrowseName? parent.name with
  | some attr => parent.children.map (attr, ·)
  | none => []

def storedLeaves (root : Property) : List (Attribute × Property) :=
  root.children.flatMap leavesUnder

theorem mem_leavesUnder {parent leaf : Property} {attr : Attribute} :
    (attr, leaf) ∈ leavesUnder parent ↔ attr.browseName = parent.name ∧ leaf ∈ parent.children := by
  rw [leavesUnder, ← Attribute.ofBrowseName?_eq_some]
  cases Attribute.ofBrowseName? parent.name with
  | none => simp
  | some other => simp [eq_comm, and_comm]

def criterion? (lexicon : Lexicon) (attr : Attribute) (leaf : Property) : Option Filter :=
  match Reading.of leaf.name leaf.value with
  | .criterion checked _ => some (.make lexicon attr leaf.name checked)
  | .limit _ | .unreadable => none

theorem ofInstance_eq (lexicon : Lexicon) (now : Instant) (model : Instance) :
    ofInstance lexicon now model =
      (storedLeaves model.root).foldl (fun set part => addReading lexicon part.1 set part.2)
        (emptyAt now) := by
  rw [storedLeaves, List.foldl_flatMap, ofInstance]
  congr 1
  funext set parent
  rw [addAttribute, leavesUnder]
  cases Attribute.ofBrowseName? parent.name with
  | none => rfl
  | some attr => rw [List.foldl_map]

private theorem filters_addReading (lexicon : Lexicon) (attr : Attribute) (set : FilterSet)
    (leaf : Property) : (addReading lexicon attr set leaf).filters =
      set.filters ++ (criterion? lexicon attr leaf).toList := by
  rw [addReading, criterion?]
  cases Reading.of leaf.name leaf.value <;> simp [push]

theorem filters_ofInstance (lexicon : Lexicon) (now : Instant) (model : Instance) :
    (ofInstance lexicon now model).filters =
      (storedLeaves model.root).filterMap fun part => criterion? lexicon part.1 part.2 := by
  have along (parts : List (Attribute × Property)) (set : FilterSet) :
      (parts.foldl (fun set part => addReading lexicon part.1 set part.2) set).filters =
        set.filters ++ parts.filterMap fun part => criterion? lexicon part.1 part.2 := by
    induction parts generalizing set with
    | nil => simp
    | cons part rest ih =>
        rw [List.foldl_cons, ih, filters_addReading, List.append_assoc, List.filterMap_cons]
        cases criterion? lexicon part.1 part.2 <;> rfl
  rw [ofInstance_eq, along]
  rfl

def isChecked (leaf : Property) : Bool :=
  !isRangeValue leaf.name && leaf.value == some (.boolean true)

def checkedStates (root : Property) : List (Attribute × String) :=
  ((storedLeaves root).filter fun part => isChecked part.2).map fun part => (part.1, part.2.name)

/-- Names of the checked states below one attribute of an instance in their order. -/
def checkedNames (root : Property) (attr : Attribute) : List String :=
  match root.child? attr.browseName with
  | some parent => (parent.children.filter isChecked).map (·.name)
  | none => []

theorem checkedStates_of_attr {root : Property} (distinct : (names root.children).Nodup)
    (attr : Attribute) :
    (checkedStates root).filter (·.1 == attr) = (checkedNames root attr).map (attr, ·) := by
  have byName : ((checkedStates root).filter fun part => part.1 == attr) =
      (checkedStates root).filter fun part => part.1.browseName == attr.browseName :=
    List.filter_congr fun part _ => by simp [Attribute.browseName_injective.eq_iff]
  rw [byName, checkedStates, storedLeaves, List.filter_flatMap, List.map_flatMap,
    filter_flatMap_of_names distinct]
  · rw [checkedNames, child?, findNamed]
    cases found : root.children.find? (·.name == attr.browseName) with
    | none => rfl
    | some parent =>
        have named := Attribute.ofBrowseName?_eq_some.mpr (findNamed_name found).symm
        simp [leavesUnder, named, List.filter_map, Function.comp_def]
  · intro parent _ part member
    obtain ⟨⟨other, leaf⟩, kept, rfl⟩ := List.mem_map.mp member
    exact (mem_leavesUnder.mp (List.mem_filter.mp kept).1).1

/-- A property that is no range value is a filter, which is checked exactly if `true` is stored. -/
theorem criterion?_eq (lexicon : Lexicon) (attr : Attribute) (leaf : Property) :
    criterion? lexicon attr leaf =
      if isRangeValue leaf.name then none
      else some (.make lexicon attr leaf.name (isChecked leaf)) := by
  rw [criterion?, isChecked]
  cases range : isRangeValue leaf.name with
  | true =>
      cases reading : Reading.of leaf.name leaf.value with
      | criterion checked known =>
          exact absurd reading (Reading.of_range range leaf.value checked known)
      | limit change => rfl
      | unreadable => rfl
  | false =>
      rw [Reading.of_criterion range]
      cases leaf.value with
      | none => rfl
      | some value =>
          cases value with
          | boolean checked => cases checked <;> rfl
          | _ => rfl

private theorem criterion?_checked (lexicon : Lexicon) (attr : Attribute) (leaf : Property) :
    (criterion? lexicon attr leaf).filter (·.checked) =
      if isChecked leaf then some (.make lexicon attr leaf.name true) else none := by
  rw [criterion?_eq]
  cases range : isRangeValue leaf.name with
  | true => simp [isChecked, range]
  | false => cases isChecked leaf <;> simp [Filter.make]

theorem checked_ofInstance (lexicon : Lexicon) (now : Instant) (model : Instance) :
    (ofInstance lexicon now model).filters.filter (·.checked) =
      (checkedStates model.root).map fun part => .make lexicon part.1 part.2 true := by
  rw [filters_ofInstance, checkedStates, List.filter_filterMap, List.map_map,
    ← List.filterMap_eq_map, List.filterMap_filter]
  exact List.filterMap_congr fun part _ => criterion?_checked lexicon part.1 part.2

theorem ranges_addReading (lexicon : Lexicon) (attr : Attribute) (set : FilterSet)
    (leaf : Property) :
    (addReading lexicon attr set leaf).ranges =
      match leaf.value with
      | some (.dateTime instant) =>
          if leaf.name = fromEventTimeValue then { set.ranges with fromEventTime := instant }
          else if leaf.name = toEventTimeValue then { set.ranges with toEventTime := instant }
          else set.ranges
      | some (.uint16 number) =>
          if leaf.name = fromSeverity then { set.ranges with fromSeverity := number.toNat }
          else if leaf.name = toSeverity then { set.ranges with toSeverity := number.toNat }
          else set.ranges
      | _ => set.ranges := by
  unfold addReading Reading.of
  by_cases range : isRangeValue leaf.name = true
  · rw [if_pos range]
    cases leaf.value with
    | none => rfl
    | some value =>
        cases value with
        | boolean checked => rfl
        | dateTime instant =>
            dsimp only
            split_ifs <;> rfl
        | uint16 number =>
            dsimp only
            split_ifs <;> rfl
  · obtain ⟨⟨⟨notFrom, notTo⟩, notLower⟩, notUpper⟩ := by
      simpa only [isRangeValue, Bool.or_eq_true, beq_iff_eq, not_or] using range
    rw [if_neg range]
    cases leaf.value with
    | none => rfl
    | some value =>
        cases value with
        | boolean checked => rfl
        | dateTime instant =>
            simp only [if_neg notFrom, if_neg notTo]
            rfl
        | uint16 number =>
            simp only [if_neg notLower, if_neg notUpper]
            rfl

/-- Whether the limit with the name of a range value is that value. -/
def Holds (ranges : RangeInputs) (name : String) : PropertyValue → Prop
  | .dateTime instant =>
      name = fromEventTimeValue ∧ ranges.fromEventTime = instant ∨
        name = toEventTimeValue ∧ ranges.toEventTime = instant
  | .uint16 number =>
      name = fromSeverity ∧ ranges.fromSeverity = number.toNat ∨
        name = toSeverity ∧ ranges.toSeverity = number.toNat
  | .boolean _ => False

theorem holds_fromEventTime {ranges : RangeInputs} {instant : Instant} :
    Holds ranges fromEventTimeValue (.dateTime instant) ↔ ranges.fromEventTime = instant := by
  have other : fromEventTimeValue ≠ toEventTimeValue := by decide
  simp [Holds, other]

theorem holds_toEventTime {ranges : RangeInputs} {instant : Instant} :
    Holds ranges toEventTimeValue (.dateTime instant) ↔ ranges.toEventTime = instant := by
  have other : toEventTimeValue ≠ fromEventTimeValue := by decide
  simp [Holds, other]

theorem holds_fromSeverity {ranges : RangeInputs} {number : UInt16} :
    Holds ranges fromSeverity (.uint16 number) ↔ ranges.fromSeverity = number.toNat := by
  have other : fromSeverity ≠ toSeverity := by decide
  simp [Holds, other]

theorem holds_toSeverity {ranges : RangeInputs} {number : UInt16} :
    Holds ranges toSeverity (.uint16 number) ↔ ranges.toSeverity = number.toNat := by
  have other : toSeverity ≠ fromSeverity := by decide
  simp [Holds, other]

private theorem holds_addReading (lexicon : Lexicon) (attr : Attribute) (set : FilterSet)
    {leaf : Property} {value : PropertyValue} (range : isRangeValue leaf.name = true)
    (stored : leaf.value = some value) (type : value.type = leafType leaf.name) :
    Holds (addReading lexicon attr set leaf).ranges leaf.name value := by
  rw [ranges_addReading, stored]
  simp only [isRangeValue, Bool.or_eq_true, beq_iff_eq] at range
  rcases range with ((named | named) | named) | named <;> rw [named] at type ⊢
  · obtain ⟨instant, rfl⟩ := PropertyValue.dateTime_of_type (type.trans (by decide))
    exact .inl ⟨rfl, by simp⟩
  · obtain ⟨instant, rfl⟩ := PropertyValue.dateTime_of_type (type.trans (by decide))
    have second : toEventTimeValue ≠ fromEventTimeValue := by decide
    exact .inr ⟨rfl, by simp [second]⟩
  · obtain ⟨number, rfl⟩ := PropertyValue.uint16_of_type (type.trans (by decide))
    exact .inl ⟨rfl, by simp⟩
  · obtain ⟨number, rfl⟩ := PropertyValue.uint16_of_type (type.trans (by decide))
    have second : toSeverity ≠ fromSeverity := by decide
    exact .inr ⟨rfl, by simp [second]⟩

/-- A limit stays as it is while properties are added that hold no value of its type under its
name. -/
theorem Holds.addReading {set : FilterSet} {name : String} {value : PropertyValue}
    (holds : Holds set.ranges name value) (lexicon : Lexicon) (attr : Attribute) {leaf : Property}
    (apart : leaf.name = name → ∀ stored, leaf.value = some stored → stored.type ≠ value.type) :
    Holds (addReading lexicon attr set leaf).ranges name value := by
  rw [ranges_addReading]
  cases value with
  | boolean checked => exact holds.elim
  | dateTime instant =>
      have other {stored : Instant} (found : leaf.value = some (.dateTime stored)) :
          leaf.name ≠ name :=
        fun same => apart same _ found rfl
      rcases holds with ⟨rfl, limit⟩ | ⟨rfl, limit⟩
      · refine .inl ⟨rfl, ?_⟩
        split
        · next found =>
            rw [if_neg (other found)]
            split_ifs <;> exact limit
        · split_ifs <;> exact limit
        · exact limit
      · refine .inr ⟨rfl, ?_⟩
        split
        · next found =>
            rw [if_neg (other found)]
            split_ifs <;> exact limit
        · split_ifs <;> exact limit
        · exact limit
  | uint16 number =>
      have other {stored : UInt16} (found : leaf.value = some (.uint16 stored)) :
          leaf.name ≠ name :=
        fun same => apart same _ found rfl
      rcases holds with ⟨rfl, limit⟩ | ⟨rfl, limit⟩
      · refine .inl ⟨rfl, ?_⟩
        split
        · split_ifs <;> exact limit
        · next found =>
            rw [if_neg (other found)]
            split_ifs <;> exact limit
        · exact limit
      · refine .inr ⟨rfl, ?_⟩
        split
        · split_ifs <;> exact limit
        · next found =>
            rw [if_neg (other found)]
            split_ifs <;> exact limit
        · exact limit

theorem Holds.foldl {set : FilterSet} {name : String} {value : PropertyValue}
    (holds : Holds set.ranges name value) (lexicon : Lexicon) {parts : List (Attribute × Property)}
    (apart : ∀ part ∈ parts, part.2.name = name →
      ∀ stored, part.2.value = some stored → stored.type ≠ value.type) :
    Holds (parts.foldl (fun set part => FilterSet.addReading lexicon part.1 set part.2) set).ranges
      name value := by
  induction parts generalizing set with
  | nil => exact holds
  | cons part rest ih =>
      apply ih
      · exact holds.addReading lexicon part.1 (apart part List.mem_cons_self)
      · exact fun other member => apart other (List.mem_cons_of_mem _ member)

private theorem holds_emptyAt (now : Instant) {name : String} (range : isRangeValue name = true) :
    Holds (emptyAt now).ranges name (defaultValue now name) := by
  simp only [isRangeValue, Bool.or_eq_true, beq_iff_eq] at range
  rcases range with ((rfl | rfl) | rfl) | rfl
  · exact .inl ⟨rfl, rfl⟩
  · exact .inr ⟨rfl, rfl⟩
  · exact .inl ⟨rfl, rfl⟩
  · exact .inr ⟨rfl, rfl⟩

end FilterSet

open FilterSet

namespace Property

variable {root : Property}

theorem mem_storedLeaves (unique : root.Unique) {attr : Attribute} {leaf : Property} :
    (attr, leaf) ∈ storedLeaves root ↔ root.leafAt? attr.browseName leaf.name = some leaf := by
  obtain ⟨distinct, below⟩ := unique_iff.mp unique
  constructor
  · intro member
    obtain ⟨parent, listed, inside⟩ := List.mem_flatMap.mp member
    obtain ⟨named, leafMember⟩ := mem_leavesUnder.mp inside
    have found : root.child? parent.name = some parent := findNamed_of_mem distinct listed
    rw [leafAt?, named, found]
    exact findNamed_of_mem (unique_iff.mp (below parent listed)).1 leafMember
  · intro found
    obtain ⟨parent, parentFound, leafFound⟩ := Option.bind_eq_some_iff.mp found
    refine List.mem_flatMap.mpr ⟨parent, findNamed_mem parentFound, mem_leavesUnder.mpr ?_⟩
    exact ⟨(findNamed_name parentFound).symm, findNamed_mem leafFound⟩

theorem mem_checkedStates (unique : root.Unique) {attr : Attribute} {name : String} :
    (attr, name) ∈ checkedStates root ↔ isRangeValue name = false ∧
      (root.leafAt? attr.browseName name).bind (·.value) = some (.boolean true) := by
  constructor
  · intro member
    obtain ⟨⟨other, leaf⟩, stored, same⟩ := List.mem_map.mp member
    obtain ⟨rfl, rfl⟩ : other = attr ∧ leaf.name = name := by simpa using same
    obtain ⟨listed, checked⟩ := List.mem_filter.mp stored
    rw [(mem_storedLeaves unique).mp listed]
    simpa [isChecked] using checked
  · intro given
    obtain ⟨free, stored⟩ := given
    obtain ⟨leaf, found, value⟩ := Option.bind_eq_some_iff.mp stored
    obtain ⟨parent, _, leafFound⟩ := Option.bind_eq_some_iff.mp found
    obtain rfl := findNamed_name leafFound
    refine List.mem_map.mpr ⟨(attr, leaf), List.mem_filter.mpr ⟨?_, ?_⟩, rfl⟩
    · exact (mem_storedLeaves unique).mpr found
    · simp [isChecked, free, value]

namespace Unique

theorem nodup_storedLeaves (unique : root.Unique) :
    ((storedLeaves root).map fun part => (part.1, part.2.name)).Nodup := by
  obtain ⟨distinct, below⟩ := unique_iff.mp unique
  rw [storedLeaves, List.map_flatMap]
  refine List.nodup_flatMap.mpr ⟨?_, ?_⟩
  · intro parent listed
    rw [leavesUnder]
    cases Attribute.ofBrowseName? parent.name with
    | none => exact .nil
    | some attr =>
        simpa [names, Function.comp_def] using
          (unique_iff.mp (below parent listed)).1.map (Prod.mk_right_injective attr)
  · refine (List.pairwise_map.mp distinct).imp fun {first second} different => ?_
    intro part inFirst inSecond
    obtain ⟨⟨attr, leaf⟩, firstMember, rfl⟩ := List.mem_map.mp inFirst
    obtain ⟨⟨other, twin⟩, secondMember, same⟩ := List.mem_map.mp inSecond
    obtain ⟨rfl, _⟩ : other = attr ∧ twin.name = leaf.name := by simpa using same
    exact different ((mem_leavesUnder.mp firstMember).1.symm.trans
      (mem_leavesUnder.mp secondMember).1)

variable {model : Instance} {attr : Attribute}

/-- A range value that stands below one attribute only is the limit that is read. -/
theorem holds_ofInstance (unique : model.root.Unique) {leaf : Property} {value : PropertyValue}
    (found : model.root.leafAt? attr.browseName leaf.name = some leaf)
    (range : isRangeValue leaf.name = true) (stored : leaf.value = some value)
    (type : value.type = leafType leaf.name)
    (alone : ∀ other, other ≠ attr → model.root.leafAt? other.browseName leaf.name = none)
    (lexicon : Lexicon) (now : Instant) :
    Holds (ofInstance lexicon now model).ranges leaf.name value := by
  obtain ⟨before, behind, parts⟩ := List.append_of_mem ((mem_storedLeaves unique).mpr found)
  have later : ∀ part ∈ behind, part.2.name ≠ leaf.name := by
    rintro ⟨other, twin⟩ member (same : twin.name = leaf.name)
    have twinFound : model.root.leafAt? other.browseName twin.name = some twin :=
      (mem_storedLeaves unique).mp (by simp [parts, member])
    have owner : other = attr := by
      by_contra different
      rw [same, alone other different] at twinFound
      exact absurd twinFound (by simp)
    have distinct := unique.nodup_storedLeaves
    rw [parts, List.map_append, List.map_cons] at distinct
    apply (List.nodup_cons.mp (List.nodup_append'.mp distinct).2.1).1
    exact List.mem_map.mpr ⟨(other, twin), member, by simp [owner, same]⟩
  rw [ofInstance_eq, parts, List.foldl_append, List.foldl_cons]
  refine (holds_addReading lexicon attr _ range stored type).foldl lexicon ?_
  exact fun part member same => absurd same (later part member)

/-- A limit keeps its default unless a value of its type stands at its place. -/
theorem holds_default (unique : model.root.Unique) {name : String}
    (range : isRangeValue name = true)
    (missing : ∀ value, (model.root.leafAt? attr.browseName name).bind (·.value) = some value →
      value.type ≠ leafType name)
    (alone : ∀ other, other ≠ attr → model.root.leafAt? other.browseName name = none)
    (lexicon : Lexicon) (now : Instant) :
    Holds (ofInstance lexicon now model).ranges name (defaultValue now name) := by
  rw [ofInstance_eq]
  refine (holds_emptyAt now range).foldl lexicon ?_
  rintro ⟨other, leaf⟩ listed (named : leaf.name = name) value (stored : leaf.value = some value)
  have found : model.root.leafAt? other.browseName leaf.name = some leaf :=
    (mem_storedLeaves unique).mp listed
  rw [named] at found
  have owner : other = attr := by
    by_contra different
    rw [alone other different] at found
    exact absurd found (by simp)
  rw [defaultValue_type]
  apply missing value
  rw [← owner, found]
  exact stored

end Unique

namespace Shaped

theorem nodup_checkedStates (shaped : root.Shaped) : (checkedStates root).Nodup :=
  shaped.unique.nodup_storedLeaves.sublist (List.filter_sublist.map _)

theorem nodup_checkedNames (shaped : root.Shaped) (attr : Attribute) :
    (checkedNames root attr).Nodup := by
  rw [checkedNames]
  cases found : root.child? attr.browseName with
  | none => exact .nil
  | some parent =>
      have distinct := (shaped.child_isAttribute found).distinct
      exact distinct.sublist (List.filter_sublist.map _)

end Shaped

end Property

end AlarmView
