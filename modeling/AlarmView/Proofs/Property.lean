import AlarmView.Property
import Mathlib.Data.List.Nodup

/-!
# Siblings and nodes

Looking up siblings by name, and the nodes of a tree with their paths.  Below properties with unique
sibling names every lookup finds the only property of the name.
-/

namespace AlarmView

theorem find?_of_mem {α κ : Type} [BEq κ] [LawfulBEq κ] (keyOf : α → κ) {items : List α}
    (distinct : (items.map keyOf).Nodup) {item : α} (member : item ∈ items) :
    items.find? (keyOf · == keyOf item) = some item := by
  cases lookup : items.find? (keyOf · == keyOf item) with
  | none =>
      have other := List.find?_eq_none.mp lookup item member
      simp at other
  | some found =>
      have sameKey : keyOf found = keyOf item := by simpa using List.find?_some lookup
      rw [List.inj_on_of_nodup_map distinct (List.mem_of_find?_eq_some lookup) member sameKey]

theorem exists_mem_of_forall₂ {α β : Type} {relation : α → β → Prop} {items : List α}
    {others : List β} (related : List.Forall₂ relation items others) {other : β}
    (member : other ∈ others) : ∃ item ∈ items, relation item other := by
  induction related with
  | nil => exact absurd member List.not_mem_nil
  | cons head _ ih =>
      rcases List.mem_cons.mp member with rfl | later
      · exact ⟨_, List.mem_cons_self, head⟩
      · obtain ⟨item, listed, here⟩ := ih later
        exact ⟨item, List.mem_cons_of_mem _ listed, here⟩

theorem forall₂_trans {α : Type} {relation : α → α → Prop} {items others latest : List α}
    (before : List.Forall₂ relation items others) (after : List.Forall₂ relation others latest)
    (trans : ∀ {first second third}, relation first second → relation second third →
      relation first third) : List.Forall₂ relation items latest := by
  induction before generalizing latest with
  | nil => exact after
  | cons head _ ih =>
      cases after with
      | cons next rest => exact .cons (trans head next) (ih rest)

theorem find?_of_notMem {α : Type} (nameOf : α → String) {items : List α} {name : String}
    (absent : name ∉ items.map nameOf) : items.find? (nameOf · == name) = none := by
  apply List.find?_eq_none.mpr
  intro item member same
  exact absent (List.mem_map.mpr ⟨item, member, by simpa using same⟩)

theorem filter_flatMap_of_names {α β : Type} {nameOf : α → String} {keyOf : β → String}
    {partsOf : α → List β} {items : List α} (distinct : (items.map nameOf).Nodup)
    (keyed : ∀ item ∈ items, ∀ part ∈ partsOf item, keyOf part = nameOf item) (name : String) :
    (items.flatMap partsOf).filter (keyOf · == name) =
      match items.find? (nameOf · == name) with
      | some item => partsOf item
      | none => [] := by
  induction items with
  | nil => rfl
  | cons head rest ih =>
      obtain ⟨absent, restDistinct⟩ := List.nodup_cons.mp distinct
      have headKeyed := keyed head List.mem_cons_self
      rw [List.flatMap_cons, List.filter_append,
        ih restDistinct fun item member => keyed item (List.mem_cons_of_mem _ member)]
      by_cases here : nameOf head = name
      · have whole : (partsOf head).filter (keyOf · == name) = partsOf head :=
          List.filter_eq_self.mpr fun part member => by simp [headKeyed part member, here]
        rw [here] at absent
        simp [whole, find?_of_notMem nameOf absent, here]
      · have nothing : (partsOf head).filter (keyOf · == name) = [] :=
          List.filter_eq_nil_iff.mpr fun part member => by simp [headKeyed part member, here]
        simp [nothing, here]

namespace Property

def names (properties : List Property) : List String :=
  properties.map (·.name)

theorem mem_names {properties : List Property} {name : String} :
    name ∈ names properties ↔ ∃ property ∈ properties, property.name = name :=
  List.mem_map

theorem notMem_names {name : String} {properties : List Property} :
    name ∉ names properties ↔ ∀ property ∈ properties, property.name ≠ name := by
  simp [mem_names]

theorem names_append (first second : List Property) :
    names (first ++ second) = names first ++ names second :=
  List.map_append

theorem findNamed_append (name : String) (first second : List Property) :
    findNamed name (first ++ second) = (findNamed name first).or (findNamed name second) :=
  List.find?_append

theorem findNamed_cons (name : String) (head : Property) (rest : List Property) :
    findNamed name (head :: rest) =
      if head.name = name then some head else findNamed name rest := by
  by_cases here : head.name = name
  · simp [findNamed, here]
  · simp [findNamed, here]

theorem findNamed_eq_none {name : String} {properties : List Property} :
    findNamed name properties = none ↔ name ∉ names properties := by
  simp [findNamed, mem_names]

theorem findNamed_name {name : String} {properties : List Property} {found : Property}
    (lookup : findNamed name properties = some found) : found.name = name := by
  simpa using List.find?_some lookup

theorem findNamed_mem {name : String} {properties : List Property} {found : Property}
    (lookup : findNamed name properties = some found) : found ∈ properties :=
  List.mem_of_find?_eq_some lookup

theorem findNamed_split {name : String} {properties : List Property} {found : Property}
    (lookup : findNamed name properties = some found) :
    ∃ before behind, properties = before ++ found :: behind ∧ name ∉ names before := by
  obtain ⟨_, before, behind, split, others⟩ := List.find?_eq_some_iff_append.mp lookup
  refine ⟨before, behind, split, fun member => ?_⟩
  obtain ⟨property, listed, same⟩ := mem_names.mp member
  simpa [same] using others property listed

theorem findNamed_of_mem {properties : List Property} (unique : (names properties).Nodup)
    {property : Property} (member : property ∈ properties) :
    findNamed property.name properties = some property :=
  find?_of_mem Property.name unique member

theorem updateNamed_split {name : String} (change : Property → Property)
    {before : List Property} (absent : name ∉ names before) {found : Property}
    (named : found.name = name) (behind : List Property) :
    updateNamed name change (before ++ found :: behind) =
      before ++ change found :: behind := by
  induction before with
  | nil => simp [updateNamed, named]
  | cons head rest ih =>
      obtain ⟨different, restAbsent⟩ : name ≠ head.name ∧ name ∉ names rest := by
        simpa [names] using absent
      simp [updateNamed, Ne.symm different, ih restAbsent]

theorem updateNamed_of_absent {name : String} (change : Property → Property)
    {properties : List Property} (absent : name ∉ names properties) :
    updateNamed name change properties = properties := by
  induction properties with
  | nil => rfl
  | cons head rest ih =>
      obtain ⟨different, restAbsent⟩ : name ≠ head.name ∧ name ∉ names rest := by
        simpa [names] using absent
      simp [updateNamed, Ne.symm different, ih restAbsent]

theorem updateNamed_of_found {name : String} {properties : List Property} {found : Property}
    (lookup : findNamed name properties = some found) :
    updateNamed name (fun _ => found) properties = properties := by
  have named := findNamed_name lookup
  obtain ⟨before, behind, rfl, absent⟩ := findNamed_split lookup
  exact updateNamed_split _ absent named behind

theorem updateChild_of_found {property child : Property} {name : String}
    (found : property.child? name = some child) :
    property.updateChild name (fun _ => child) = property := by
  obtain ⟨_, _, _, children⟩ := property
  rw [updateChild, updateNamed_of_found found]

theorem names_updateNamed {name : String} {change : Property → Property}
    (keeps : ∀ property, property.name = name → (change property).name = name)
    (properties : List Property) :
    names (updateNamed name change properties) = names properties := by
  induction properties with
  | nil => rfl
  | cons head rest ih =>
      unfold updateNamed
      split
      · next here =>
          have same := keeps head (by simpa using here)
          simp_all [names]
      · simpa [names] using ih

theorem findNamed_updateNamed {name : String} {change : Property → Property}
    (keeps : ∀ property, property.name = name → (change property).name = name) (other : String)
    (properties : List Property) :
    findNamed other (updateNamed name change properties) =
      if other = name then (findNamed name properties).map change
      else findNamed other properties := by
  cases lookup : findNamed name properties with
  | none =>
      rw [updateNamed_of_absent change (findNamed_eq_none.mp lookup)]
      split
      · next same => rw [same, lookup]; rfl
      · rfl
  | some found =>
      obtain ⟨before, behind, rfl, absent⟩ := findNamed_split lookup
      have named := findNamed_name lookup
      rw [updateNamed_split change absent named, findNamed_append, findNamed_append,
        findNamed_cons, findNamed_cons, keeps found named, named]
      by_cases same : other = name
      · subst same
        simp [findNamed_eq_none.mpr absent]
      · simp [same, Ne.symm same]

theorem mem_updateNamed {name : String} {change : Property → Property}
    {properties : List Property} {property : Property}
    (member : property ∈ updateNamed name change properties) :
    property ∈ properties ∨ ∃ found, findNamed name properties = some found ∧
      property = change found := by
  cases lookup : findNamed name properties with
  | none =>
      rw [updateNamed_of_absent change (findNamed_eq_none.mp lookup)] at member
      exact .inl member
  | some found =>
      obtain ⟨before, behind, rfl, absent⟩ := findNamed_split lookup
      rw [updateNamed_split change absent (findNamed_name lookup)] at member
      simp only [List.mem_append, List.mem_cons] at member ⊢
      rcases member with first | rfl | last
      · exact .inl (.inl first)
      · exact .inr ⟨found, rfl, rfl⟩
      · exact .inl (.inr (.inr last))

private theorem names_removeNamed_sublist (name : String) (properties : List Property) :
    (names (removeNamed name properties)).Sublist (names properties) :=
  List.eraseP_sublist.map _

private theorem findNamed_removeNamed {properties : List Property}
    (distinct : (names properties).Nodup)
    (name other : String) :
    findNamed other (removeNamed name properties) =
      if other = name then none else findNamed other properties := by
  cases lookup : findNamed name properties with
  | none =>
      have absent : removeNamed name properties = properties := by
        apply List.eraseP_of_forall_not
        intro property member
        have others := List.find?_eq_none.mp lookup property member
        simpa using others
      rw [absent]
      split
      · next same => rw [same, lookup]
      · rfl
  | some found =>
      have named := findNamed_name lookup
      obtain ⟨before, behind, rfl, early⟩ := findNamed_split lookup
      have removed : removeNamed name (before ++ found :: behind) = before ++ behind := by
        rw [removeNamed, List.eraseP_append_right, List.eraseP_cons_of_pos (by simp [named])]
        intro property member same
        have sameName : property.name = name := by simpa using same
        exact early (mem_names.mpr ⟨property, member, sameName⟩)
      rw [removed, findNamed_append, findNamed_append, findNamed_cons, named]
      by_cases same : other = name
      · subst same
        have late : other ∉ names behind := by
          have apart : found.name ∉ names (before ++ behind) :=
            (List.nodup_cons.mp ((List.perm_middle.map _).nodup_iff.mp distinct)).1
          rw [named, names_append, List.mem_append, not_or] at apart
          exact apart.2
        simp [findNamed_eq_none.mpr early, findNamed_eq_none.mpr late]
      · simp [same, Ne.symm same]

theorem child?_addChild (property child : Property) (name : String) :
    (property.addChild child).child? name =
      (property.child? name).or (if child.name = name then some child else none) := by
  rw [child?, addChild, findNamed_append, findNamed_cons]
  rfl

theorem child?_removeChild {property : Property} (distinct : (names property.children).Nodup)
    (name other : String) :
    (property.removeChild name).child? other =
      if other = name then none else property.child? other :=
  findNamed_removeNamed distinct name other

theorem child?_updateChild {property : Property} {name : String} {change : Property → Property}
    (keeps : ∀ child, child.name = name → (change child).name = name) (other : String) :
    (property.updateChild name change).child? other =
      if other = name then (property.child? name).map change else property.child? other :=
  findNamed_updateNamed keeps other property.children

theorem hasChild_eq_false {property : Property} {name : String} :
    property.hasChild name = false ↔ name ∉ names property.children := by
  rw [hasChild, child?, Option.isSome_eq_false_iff, Option.isNone_iff_eq_none, findNamed_eq_none]

theorem distinct_addChild {property child : Property} (distinct : (names property.children).Nodup)
    (fresh : child.name ∉ names property.children) :
    (names (property.addChild child).children).Nodup := by
  rw [addChild, names_append]
  refine List.nodup_append'.mpr ⟨distinct, List.nodup_singleton _, ?_⟩
  intro name old new
  obtain rfl := List.mem_singleton.mp new
  exact fresh old

theorem distinct_removeChild {property : Property} (distinct : (names property.children).Nodup)
    (name : String) : (names (property.removeChild name).children).Nodup :=
  distinct.sublist (names_removeNamed_sublist name property.children)

mutual

/-- Whether siblings have different names everywhere below a property. -/
def Unique : Property → Prop
  | ⟨_, _, _, children⟩ => (names children).Nodup ∧ UniqueList children

def UniqueList : List Property → Prop
  | [] => True
  | head :: rest => head.Unique ∧ UniqueList rest

end

mutual

def decideUnique : (property : Property) → Decidable property.Unique
  | ⟨_, _, _, children⟩ =>
      have := decideUniqueList children
      inferInstanceAs (Decidable ((names children).Nodup ∧ UniqueList children))

def decideUniqueList : (properties : List Property) → Decidable (UniqueList properties)
  | [] => isTrue trivial
  | head :: rest =>
      have := decideUnique head
      have := decideUniqueList rest
      inferInstanceAs (Decidable (head.Unique ∧ UniqueList rest))

end

instance : DecidablePred Unique := decideUnique

theorem uniqueList_iff {properties : List Property} :
    UniqueList properties ↔ ∀ property ∈ properties, property.Unique := by
  induction properties with
  | nil => simp [UniqueList]
  | cons head rest ih => simp [UniqueList, ih]

theorem unique_iff {property : Property} :
    property.Unique ↔
      (names property.children).Nodup ∧ ∀ child ∈ property.children, child.Unique := by
  obtain ⟨name, type, value, children⟩ := property
  simp [Unique, uniqueList_iff]

mutual

/-- The path and the type of a property and of all below it; `path` is that of the property
itself. -/
def nodes (path : String) : Property → List (String × PropertyType)
  | ⟨_, type, _, children⟩ => (path, type) :: nodesList path children

/-- List counterpart of `nodes`, for the children of the property at `path`. -/
def nodesList (path : String) : List Property → List (String × PropertyType)
  | [] => []
  | child :: rest => child.nodes (BrowseName.join path child.name) ++ nodesList path rest

end

def keysList (path : String) (properties : List Property) : List String :=
  (nodesList path properties).map (·.1)

/-- The paths of a property at `path` and of all nodes below it. -/
def keys (path : String) (property : Property) : List String :=
  (property.nodes path).map (·.1)

theorem nodes_eq (path : String) (property : Property) :
    property.nodes path = (path, property.type) :: nodesList path property.children := by
  obtain ⟨name, type, value, children⟩ := property
  rfl

theorem keys_eq (path : String) (property : Property) :
    property.keys path = path :: keysList path property.children := by
  rw [keys, nodes_eq]
  rfl

theorem nodesList_eq_flatMap (path : String) (properties : List Property) :
    nodesList path properties =
      properties.flatMap fun child => child.nodes (BrowseName.join path child.name) := by
  induction properties with
  | nil => rfl
  | cons head rest ih => rw [nodesList, ih, List.flatMap_cons]

theorem nodesList_append (path : String) (first second : List Property) :
    nodesList path (first ++ second) = nodesList path first ++ nodesList path second := by
  simp [nodesList_eq_flatMap]

theorem nodesList_updateNamed {path name : String} {change : Property → Property}
    {properties : List Property}
    (keeps : ∀ property, property.name = name → (change property).name = name)
    (same : ∀ found, findNamed name properties = some found →
      (change found).nodes (BrowseName.join path name) = found.nodes (BrowseName.join path name)) :
    nodesList path (updateNamed name change properties) = nodesList path properties := by
  cases lookup : findNamed name properties with
  | none => rw [updateNamed_of_absent change (findNamed_eq_none.mp lookup)]
  | some found =>
      have unchanged := same found lookup
      have named := findNamed_name lookup
      obtain ⟨before, behind, rfl, absent⟩ := findNamed_split lookup
      rw [updateNamed_split change absent named, nodesList_append, nodesList_append, nodesList,
        nodesList, keeps found named, named, unchanged]

theorem keysList_cons (path : String) (head : Property) (rest : List Property) :
    keysList path (head :: rest) =
      head.keys (BrowseName.join path head.name) ++ keysList path rest := by
  simp [keysList, keys, nodesList]

theorem valuesList_eq_flatMap (path : String) (properties : List Property) :
    valuesList path properties = properties.flatMap (values path) := by
  induction properties with
  | nil => rfl
  | cons head rest ih => rw [valuesList, ih, List.flatMap_cons]

mutual

theorem values_keys_sublist (path : String) :
    ∀ property : Property, ((property.values path).map (·.1)).Sublist
      (property.keys (BrowseName.join path property.name))
  | ⟨name, type, value, children⟩ => by
      have below := valuesList_keys_sublist (BrowseName.join path name) children
      cases value with
      | none => simpa [values, keys, nodes, keysList] using below.cons (BrowseName.join path name)
      | some stored =>
          simpa [values, keys, nodes, keysList] using below.cons_cons (BrowseName.join path name)

theorem valuesList_keys_sublist (path : String) :
    ∀ properties : List Property, ((valuesList path properties).map (·.1)).Sublist
      (keysList path properties)
  | [] => .slnil
  | head :: rest => by
      rw [valuesList, List.map_append, keysList_cons]
      exact (values_keys_sublist path head).append (valuesList_keys_sublist path rest)

end

/-- Collects something from every node of a tree. -/
structure Collection (β : Type) where
  /-- What is collected from a property below a path and all below the property. -/
  all : String → Property → List β
  own : String → Property → List β
  all_eq : ∀ path property, all path property =
    own path property ++ property.children.flatMap (all (BrowseName.join path property.name))
  own_eq : ∀ path property children, own path { property with children } = own path property

namespace Collection

def ofNodes : Collection (String × PropertyType) where
  all path property := property.nodes (BrowseName.join path property.name)
  own path property := [(BrowseName.join path property.name, property.type)]
  all_eq path property := by
    obtain ⟨name, type, value, children⟩ := property
    simp [nodes, nodesList_eq_flatMap]
  own_eq _ _ _ := rfl

def ofValues : Collection (String × PropertyValue) where
  all path property := property.values path
  own path property := property.value.toList.map (BrowseName.join path property.name, ·)
  all_eq path property := by
    obtain ⟨name, type, value, children⟩ := property
    simp [values, valuesList_eq_flatMap]
  own_eq _ _ _ := rfl

end Collection

end Property

end AlarmView
