import AlarmView.EditModel.Schema
import AlarmView.Proofs.Property

/-!
# The shape of edit models

An edit model has one object for each attribute and leaves below it.  The name of an attribute is
not empty and has no slash, so the path of a leaf tells its attribute and its name apart, and the
name of a leaf tells its type.
-/

namespace AlarmView

namespace BrowseName

/-- Whether a text can name an attribute. -/
def NamesAttribute (name : String) : Prop :=
  name ≠ "" ∧ '/' ∉ name.toList

instance (name : String) : Decidable (NamesAttribute name) :=
  inferInstanceAs (Decidable (_ ∧ _))

private theorem join_empty (name : String) : join "" name = name := rfl

private theorem join_eq {attr : String} (named : NamesAttribute attr) (name : String) :
    join attr name = attr ++ "/" ++ name := by
  have nonempty : attr.isEmpty = false := by simpa using named.1
  simp [join, nonempty]

theorem toList_join {attr : String} (named : NamesAttribute attr) (name : String) :
    (join attr name).toList = attr.toList ++ '/' :: name.toList := by
  rw [join_eq named]
  simp

theorem join_injective {first second left right : String} (firstNamed : NamesAttribute first)
    (secondNamed : NamesAttribute second) (same : join first left = join second right) :
    first = second ∧ left = right := by
  have chars := congrArg (fun text => text.toList.takeWhile (· != '/')) same
  have attrs : first = second := by
    have untilSlash : ∀ {attr : String}, NamesAttribute attr → ∀ name,
        (join attr name).toList.takeWhile (· != '/') = attr.toList := by
      intro attr named name
      rw [toList_join named, List.takeWhile_append_of_pos]
      · simp
      · intro c member
        have noSlash : c ≠ '/' := fun slash => named.2 (slash ▸ member)
        simpa using noSlash
    rw [untilSlash firstNamed, untilSlash secondNamed] at chars
    exact String.toList_inj.mp chars
  subst attrs
  have lists := congrArg String.toList same
  rw [toList_join firstNamed, toList_join firstNamed] at lists
  exact ⟨rfl, String.toList_inj.mp (List.cons.inj (List.append_cancel_left lists)).2⟩

theorem join_ne {first second : String} (firstNamed : NamesAttribute first)
    (secondNamed : NamesAttribute second) (name : String) : join first name ≠ second := by
  intro same
  apply secondNamed.2
  rw [← same, toList_join firstNamed]
  simp

def leafType (name : String) : PropertyType :=
  if name = fromEventTimeValue ∨ name = toEventTimeValue then .dateTime
  else if name = fromSeverity ∨ name = toSeverity then .uint16
  else .boolean

def defaultValue (now : Instant) (name : String) : PropertyValue :=
  if name = fromEventTimeValue ∨ name = toEventTimeValue then .dateTime now
  else if name = fromSeverity then .uint16 1
  else if name = toSeverity then .uint16 1000
  else .boolean false

theorem defaultValue_type (now : Instant) (name : String) :
    (defaultValue now name).type = leafType name := by
  unfold defaultValue leafType
  by_cases time : name = fromEventTimeValue ∨ name = toEventTimeValue
  · simp [time, PropertyValue.type]
  · by_cases lower : name = fromSeverity
    · subst lower
      rfl
    · by_cases upper : name = toSeverity
      · subst upper
        rfl
      · simp [time, lower, upper, PropertyValue.type]

theorem leafType_of_free {name : String} (free : isRangeValue name = false) :
    leafType name = .boolean := by
  simp only [isRangeValue, Bool.or_eq_false_iff, beq_eq_false_iff_ne] at free
  obtain ⟨⟨⟨notFrom, notTo⟩, notLower⟩, notUpper⟩ := free
  simp [leafType, notFrom, notTo, notLower, notUpper]

end BrowseName

open BrowseName

namespace Property

/-- The leaf of an attribute with a name. -/
def leafAt? (root : Property) (attr name : String) : Option Property :=
  (root.child? attr).bind (·.child? name)

/-- A property that holds a value of the type that its name calls for. -/
def IsLeaf (property : Property) : Prop :=
  ∃ value : PropertyValue, property = .leaf property.name value ∧
    value.type = leafType property.name

/-- An object with nothing but leaves below it. -/
structure IsGroup (property : Property) : Prop where
  type : property.type = .object
  value : property.value = none
  distinct : (names property.children).Nodup
  leaves : ∀ leaf ∈ property.children, leaf.IsLeaf

/-- The object of an attribute with its leaves. -/
structure IsAttribute (property : Property) : Prop extends property.IsGroup where
  named : NamesAttribute property.name

/-- The root of a schema or of an instance, whatever its attributes are called. -/
structure Regular (root : Property) : Prop where
  distinct : (names root.children).Nodup
  groups : ∀ group ∈ root.children, group.IsGroup

/-- The root of a schema or of an instance. -/
structure Shaped (root : Property) : Prop where
  distinct : (names root.children).Nodup
  attributes : ∀ attr ∈ root.children, attr.IsAttribute

namespace IsLeaf

variable {leaf : Property}

theorem children (shaped : leaf.IsLeaf) : leaf.children = [] := by
  obtain ⟨value, same, _⟩ := shaped
  rw [same]
  rfl

theorem unique (shaped : leaf.IsLeaf) : leaf.Unique :=
  unique_iff.mpr (by simp [shaped.children, names])

theorem type_eq (shaped : leaf.IsLeaf) : leaf.type = leafType leaf.name := by
  obtain ⟨value, same, type⟩ := shaped
  rw [← type, same]
  rfl

theorem value_ne_none (shaped : leaf.IsLeaf) : ∃ value, leaf.value = some value ∧
    value.type = leafType leaf.name := by
  obtain ⟨value, same, type⟩ := shaped
  exact ⟨value, by rw [same]; rfl, type⟩

end IsLeaf

theorem isLeaf_leaf {name : String} {value : PropertyValue} (type : value.type = leafType name) :
    (leaf name value).IsLeaf :=
  ⟨value, rfl, type⟩

theorem IsGroup.unique {group : Property} (shaped : group.IsGroup) : group.Unique :=
  unique_iff.mpr ⟨shaped.distinct, fun leaf member => (shaped.leaves leaf member).unique⟩

namespace Regular

variable {root : Property}

theorem unique (regular : root.Regular) : root.Unique :=
  unique_iff.mpr ⟨regular.distinct, fun group member => (regular.groups group member).unique⟩

theorem object (name : String) : (Property.object name).Regular where
  distinct := .nil
  groups := by simp [Property.object]

theorem child_isGroup (regular : root.Regular) {name : String} {group : Property}
    (found : root.child? name = some group) : group.IsGroup :=
  regular.groups group (findNamed_mem found)

private theorem values_group {group : Property} (shaped : group.IsGroup) :
    group.values "" =
      group.children.flatMap fun leaf =>
        leaf.value.toList.map (join group.name leaf.name, ·) := by
  have own := Collection.ofValues.all_eq "" group
  simp only [Collection.ofValues, shaped.value, Option.toList_none, List.map_nil, List.nil_append,
    join_empty] at own
  rw [own]
  apply List.flatMap_congr
  intro leaf member
  have leafOwn := Collection.ofValues.all_eq group.name leaf
  simp only [Collection.ofValues, (shaped.leaves leaf member).children, List.flatMap_nil,
    List.append_nil] at leafOwn
  exact leafOwn

theorem mem_values (regular : root.Regular) {path : String} {value : PropertyValue} :
    (path, value) ∈ valuesList "" root.children ↔
      ∃ group ∈ root.children, ∃ leaf ∈ group.children,
        path = join group.name leaf.name ∧ leaf.value = some value := by
  rw [valuesList_eq_flatMap, List.mem_flatMap]
  refine exists_congr fun group => and_congr_right fun member => ?_
  rw [values_group (regular.groups group member), List.mem_flatMap]
  refine exists_congr fun leaf => and_congr_right fun _ => ?_
  simp only [List.mem_map, Option.mem_toList, Prod.mk.injEq]
  constructor
  · intro given
    obtain ⟨stored, found, same, rfl⟩ := given
    exact ⟨same.symm, found⟩
  · intro given
    obtain ⟨same, found⟩ := given
    exact ⟨value, found, same.symm, rfl⟩

end Regular

namespace Shaped

variable {root : Property}

theorem regular (shaped : root.Shaped) : root.Regular where
  distinct := shaped.distinct
  groups attr member := (shaped.attributes attr member).toIsGroup

theorem unique (shaped : root.Shaped) : root.Unique :=
  shaped.regular.unique

theorem object (name : String) : (Property.object name).Shaped where
  distinct := .nil
  attributes := by simp [Property.object]

theorem child_isAttribute (shaped : root.Shaped) {name : String} {attr : Property}
    (found : root.child? name = some attr) : attr.IsAttribute :=
  shaped.attributes attr (findNamed_mem found)

theorem nodes_attribute {attr : Property} (shaped : attr.IsAttribute) :
    attr.nodes (join "" attr.name) =
      (attr.name, .object) ::
        attr.children.map fun leaf => (join attr.name leaf.name, leaf.type) := by
  have below : ∀ leaf ∈ attr.children, leaf.nodes (join attr.name leaf.name) =
      [(join attr.name leaf.name, leaf.type)] := by
    intro leaf member
    rw [nodes_eq, (shaped.leaves leaf member).children]
    rfl
  rw [nodes_eq, join_empty, shaped.type, nodesList_eq_flatMap, List.flatMap_congr below]
  congr 1
  exact List.map_eq_flatMap.symm

theorem mem_values (shaped : root.Shaped) {path : String} {value : PropertyValue} :
    (path, value) ∈ valuesList "" root.children ↔
      ∃ attr ∈ root.children, ∃ leaf ∈ attr.children,
        path = join attr.name leaf.name ∧ leaf.value = some value :=
  shaped.regular.mem_values

/-- The values of a shaped tree are those that are found by attribute and name. -/
theorem mem_values_iff_leafAt? (shaped : root.Shaped) {path : String} {value : PropertyValue} :
    (path, value) ∈ valuesList "" root.children ↔
      ∃ attr name, NamesAttribute attr ∧ path = join attr name ∧
        (root.leafAt? attr name).bind (·.value) = some value := by
  rw [shaped.mem_values]
  constructor
  · intro given
    obtain ⟨attr, inRoot, leaf, inAttr, rfl, stored⟩ := given
    have shape := shaped.attributes attr inRoot
    refine ⟨attr.name, leaf.name, shape.named, rfl, ?_⟩
    rw [leafAt?, child?, findNamed_of_mem shaped.distinct inRoot, Option.bind_some, child?,
      findNamed_of_mem shape.distinct inAttr]
    exact stored
  · intro given
    obtain ⟨attr, name, _, rfl, stored⟩ := given
    obtain ⟨leaf, found, value⟩ := Option.bind_eq_some_iff.mp stored
    obtain ⟨parent, parentFound, leafFound⟩ := Option.bind_eq_some_iff.mp found
    refine ⟨parent, findNamed_mem parentFound, leaf, findNamed_mem leafFound, ?_, value⟩
    rw [findNamed_name parentFound, findNamed_name leafFound]

theorem mem_nodes (shaped : root.Shaped) {path : String} {type : PropertyType} :
    (path, type) ∈ nodesList "" root.children ↔
      ∃ attr ∈ root.children, (path = attr.name ∧ type = .object) ∨
        ∃ leaf ∈ attr.children, path = join attr.name leaf.name ∧ type = leaf.type := by
  rw [nodesList_eq_flatMap, List.mem_flatMap]
  refine exists_congr fun attr => and_congr_right fun member => ?_
  rw [nodes_attribute (shaped.attributes attr member), List.mem_cons, List.mem_map,
    Prod.mk.injEq]
  refine or_congr_right (exists_congr fun leaf => and_congr_right fun _ => ?_)
  rw [Prod.mk.injEq, eq_comm (a := path), eq_comm (a := type)]

theorem distinct_keys (shaped : root.Shaped) : (keysList "" root.children).Nodup := by
  have keys : ∀ attr ∈ root.children, (attr.nodes (join "" attr.name)).map (·.1) =
      attr.name :: (names attr.children).map (join attr.name) := by
    intro attr member
    rw [nodes_attribute (shaped.attributes attr member)]
    simp [names]
  rw [keysList, nodesList_eq_flatMap, List.map_flatMap, List.flatMap_congr keys,
    List.nodup_flatMap]
  constructor
  · intro attr member
    have inner := shaped.attributes attr member
    refine List.nodup_cons.mpr ⟨?_, inner.distinct.map fun left right same =>
      (join_injective inner.named inner.named same).2⟩
    intro own
    obtain ⟨name, _, same⟩ := List.mem_map.mp own
    exact join_ne inner.named inner.named name same
  · apply (List.pairwise_map.mp shaped.distinct).imp_of_mem
    intro first second left right apart
    have firstNamed := (shaped.attributes first left).named
    have secondNamed := (shaped.attributes second right).named
    intro key inFirst inSecond
    rcases List.mem_cons.mp inFirst with rfl | below
    · rcases List.mem_cons.mp inSecond with same | below
      · exact apart same
      · obtain ⟨name, _, same⟩ := List.mem_map.mp below
        exact join_ne secondNamed firstNamed name same
    · obtain ⟨name, _, rfl⟩ := List.mem_map.mp below
      rcases List.mem_cons.mp inSecond with same | other
      · exact join_ne firstNamed secondNamed name same
      · obtain ⟨otherName, _, same⟩ := List.mem_map.mp other
        exact apart (join_injective secondNamed firstNamed same).1.symm

/-- A value at the path of a leaf fits the node that a shaped tree has there. -/
theorem type_of_leaf (shaped : root.Shaped) {attr name : String}
    (named : NamesAttribute attr) {type : PropertyType}
    (node : (join attr name, type) ∈ nodesList "" root.children) : type = leafType name := by
  obtain ⟨parent, inRoot, ⟨same, _⟩ | ⟨leaf, inParent, same, rfl⟩⟩ := shaped.mem_nodes.mp node
  · exact absurd same (join_ne named (shaped.attributes parent inRoot).named name)
  · have shape := shaped.attributes parent inRoot
    obtain ⟨_, rfl⟩ := join_injective named shape.named same
    exact (shape.leaves leaf inParent).type_eq

theorem value_of_node (shaped : root.Shaped) {attr name : String}
    (named : NamesAttribute attr) {type : PropertyType}
    (node : (join attr name, type) ∈ nodesList "" root.children) :
    ∃ value, (join attr name, value) ∈ valuesList "" root.children := by
  obtain ⟨parent, inRoot, ⟨same, _⟩ | ⟨leaf, inParent, same, rfl⟩⟩ := shaped.mem_nodes.mp node
  · exact absurd same (join_ne named (shaped.attributes parent inRoot).named name)
  · obtain ⟨value, stored, _⟩ :=
      ((shaped.attributes parent inRoot).leaves leaf inParent).value_ne_none
    exact ⟨value, shaped.mem_values.mpr ⟨parent, inRoot, leaf, inParent, same, stored⟩⟩

theorem node_of_value (shaped : root.Shaped) {path : String}
    {value : PropertyValue} (member : (path, value) ∈ valuesList "" root.children) :
    ∃ attr name, NamesAttribute attr ∧ path = join attr name ∧ value.type = leafType name ∧
      (path, leafType name) ∈ nodesList "" root.children := by
  obtain ⟨attr, inRoot, leaf, inAttr, rfl, found⟩ := shaped.mem_values.mp member
  have shape := shaped.attributes attr inRoot
  have leafShape := shape.leaves leaf inAttr
  obtain ⟨own, same, type⟩ := leafShape.value_ne_none
  obtain rfl : own = value := Option.some.inj (same.symm.trans found)
  refine ⟨attr.name, leaf.name, shape.named, rfl, type, shaped.mem_nodes.mpr ?_⟩
  exact ⟨attr, inRoot, .inr ⟨leaf, inAttr, rfl, leafShape.type_eq.symm⟩⟩

theorem leafAt?_ne_none (shaped : root.Shaped) {attr name : String} (named : NamesAttribute attr) :
    root.leafAt? attr name ≠ none ↔ join attr name ∈ keysList "" root.children := by
  constructor
  · intro present
    obtain ⟨leaf, found⟩ := Option.ne_none_iff_exists'.mp present
    obtain ⟨parent, parentFound, leafFound⟩ := Option.bind_eq_some_iff.mp found
    refine List.mem_map.mpr ⟨(join attr name, leaf.type), shaped.mem_nodes.mpr ?_, rfl⟩
    refine ⟨parent, findNamed_mem parentFound, .inr ⟨leaf, findNamed_mem leafFound, ?_, rfl⟩⟩
    rw [findNamed_name parentFound, findNamed_name leafFound]
  · intro listed
    obtain ⟨⟨path, type⟩, node, rfl⟩ := List.mem_map.mp listed
    obtain ⟨value, member⟩ := shaped.value_of_node named node
    obtain ⟨other, otherName, otherNamed, same, stored⟩ :=
      shaped.mem_values_iff_leafAt?.mp member
    obtain ⟨rfl, rfl⟩ := join_injective named otherNamed same
    obtain ⟨leaf, found, _⟩ := Option.bind_eq_some_iff.mp stored
    simp [found]

end Shaped

end Property

end AlarmView
