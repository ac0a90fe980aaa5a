import AlarmView.Proofs.EditModel.Mirroring
import AlarmView.Proofs.EditModel.Shape

/-!
# Paths in a tree

A node is found by the names on the way to it.  Where siblings have different names there is one row
in the listing of a tree for each way, and where no name is empty or has a slash the text of the way
tells which one it is, however deep the tree.
-/

namespace AlarmView

open BrowseName Property

namespace BrowseName

/-- The text of a path, with slashes between its steps. -/
def joinAll (path : List String) : String :=
  path.foldl join ""

theorem joinAll_append (path : List String) (name : String) :
    joinAll (path ++ [name]) = join (joinAll path) name :=
  List.foldl_append

theorem join_ne_empty {name : String} (nonempty : name ≠ "") (rest : String) :
    join name rest ≠ "" := by
  rw [join, if_neg (by simpa using nonempty)]
  simp [nonempty]

private theorem join_assoc {second : String} (nonempty : second ≠ "") (first third : String) :
    join (join first second) third = join first (join second third) := by
  by_cases empty : first = ""
  · subst empty
    rfl
  · have between : join second third = second ++ "/" ++ third := by simp [join, nonempty]
    have around (rest : String) : join first rest = first ++ "/" ++ rest := by simp [join, empty]
    have outer : join (join first second) third = join first second ++ "/" ++ third := by
      simp [join, empty]
    rw [outer, around, around, between]
    simp [String.append_assoc]

private theorem foldl_join {start : String} (nonempty : start ≠ "") (first : String)
    (path : List String) :
    path.foldl join (join first start) = join first (path.foldl join start) := by
  induction path generalizing start with
  | nil => rfl
  | cons name rest ih =>
      rw [List.foldl_cons, List.foldl_cons, join_assoc nonempty, ih (join_ne_empty nonempty name)]

theorem joinAll_cons_cons {second : String} (nonempty : second ≠ "") (first : String)
    (path : List String) :
    joinAll (first :: second :: path) = join first (joinAll (second :: path)) :=
  foldl_join nonempty first path

private theorem joinAll_cons_ne_empty {path : List String} {name : String}
    (named : ∀ step ∈ name :: path, NamesAttribute step) : joinAll (name :: path) ≠ "" := by
  obtain ⟨first, others⟩ := List.forall_mem_cons.mp named
  cases path with
  | nil => exact first.1
  | cons second rest =>
      rw [joinAll_cons_cons (others second List.mem_cons_self).1]
      exact join_ne_empty first.1 _

/-- A path can be read back from its text. -/
theorem joinAll_injective {first second : List String}
    (firstNamed : ∀ step ∈ first, NamesAttribute step)
    (secondNamed : ∀ step ∈ second, NamesAttribute step)
    (same : joinAll first = joinAll second) : first = second := by
  induction first generalizing second with
  | nil =>
      cases second with
      | nil => rfl
      | cons name rest => exact absurd same.symm (joinAll_cons_ne_empty secondNamed)
  | cons name rest ih =>
      cases second with
      | nil => exact absurd same (joinAll_cons_ne_empty firstNamed)
      | cons other others =>
          obtain ⟨nameNamed, restNamed⟩ := List.forall_mem_cons.mp firstNamed
          obtain ⟨otherNamed, othersNamed⟩ := List.forall_mem_cons.mp secondNamed
          cases rest with
          | nil =>
              cases others with
              | nil => exact congrArg ([·]) same
              | cons next deeper =>
                  rw [joinAll_cons_cons (othersNamed next List.mem_cons_self).1] at same
                  exact absurd same.symm (join_ne otherNamed nameNamed _)
          | cons step below =>
              rw [joinAll_cons_cons (restNamed step List.mem_cons_self).1] at same
              cases others with
              | nil => exact absurd same (join_ne nameNamed otherNamed _)
              | cons next deeper =>
                  rw [joinAll_cons_cons (othersNamed next List.mem_cons_self).1] at same
                  obtain ⟨rfl, samePath⟩ := join_injective nameNamed otherNamed same
                  rw [ih restNamed othersNamed samePath]

end BrowseName

namespace Property

mutual

theorem nodes_eq_rows (path : List String) :
    ∀ property : Property, property.nodes (joinAll (path ++ [property.name])) =
      (property.listing path).map fun row => (joinAll row.path, row.type)
  | ⟨name, type, value, children⟩ => by
      rw [nodes, listing, List.map_cons, nodesList_eq_rows (path ++ [name]) children]

theorem nodesList_eq_rows (path : List String) :
    ∀ properties : List Property, nodesList (joinAll path) properties =
      (listingList path properties).map fun row => (joinAll row.path, row.type)
  | [] => rfl
  | property :: rest => by
      rw [nodesList, listingList, List.map_append, ← joinAll_append, nodes_eq_rows path property,
        nodesList_eq_rows path rest]

end

mutual

theorem values_eq_rows (path : List String) :
    ∀ property : Property, property.values (joinAll path) =
      (property.listing path).filterMap fun row => row.value.map (joinAll row.path, ·)
  | ⟨name, type, value, children⟩ => by
      have below := valuesList_eq_rows (path ++ [name]) children
      rw [joinAll_append] at below
      cases value with
      | none => simpa [values, listing, joinAll_append] using below
      | some stored => simpa [values, listing, joinAll_append] using below

theorem valuesList_eq_rows (path : List String) :
    ∀ properties : List Property, valuesList (joinAll path) properties =
      (listingList path properties).filterMap fun row => row.value.map (joinAll row.path, ·)
  | [] => rfl
  | property :: rest => by
      rw [valuesList, listingList, List.filterMap_append, values_eq_rows path property,
        valuesList_eq_rows path rest]

end

theorem nodesList_root (property : Property) :
    nodesList "" property.children =
      property.rows.map fun row => (joinAll row.path, row.type) :=
  nodesList_eq_rows [] property.children

private theorem valuesList_root (property : Property) :
    valuesList "" property.children =
      property.rows.filterMap fun row => row.value.map (joinAll row.path, ·) :=
  valuesList_eq_rows [] property.children

theorem descendant?_cons {property node : Property} {name : String} {path : List String} :
    property.descendant? (name :: path) = some node ↔
      ∃ child, property.child? name = some child ∧ child.descendant? path = some node :=
  Option.bind_eq_some_iff

private theorem descendant?_of_mem {property child : Property}
    (distinct : (names property.children).Nodup)
    (member : child ∈ property.children) (path : List String) :
    property.descendant? (child.name :: path) = child.descendant? path := by
  rw [descendant?, child?, findNamed_of_mem distinct member, Option.bind_some]

mutual

/-- The rows below a property are those of the nodes that can be found there. -/
theorem mem_listing_below :
    ∀ property : Property, property.Unique → ∀ (before : List String) (row : Row),
      row ∈ listingList before property.children ↔
        ∃ path node, path ≠ [] ∧ property.descendant? path = some node ∧
          row = { path := before ++ path, type := node.type, value := node.value }
  | ⟨name, type, value, children⟩, ⟨distinct, unique⟩, before, row => by
      have inside := mem_listing_below_of_mem children unique
      rw [mem_listingList]
      constructor
      · intro listed
        obtain ⟨child, member, rfl | deeper⟩ := listed
        · refine ⟨[child.name], child, by simp, ?_, rfl⟩
          rw [descendant?_of_mem distinct member, descendant?]
        · obtain ⟨path, node, _, found, rfl⟩ := (inside child member _ row).mp deeper
          refine ⟨child.name :: path, node, by simp, ?_, by simp⟩
          rw [descendant?_of_mem distinct member, found]
      · intro given
        obtain ⟨path, node, nonempty, found, rfl⟩ := given
        cases path with
        | nil => exact absurd rfl nonempty
        | cons step rest =>
            obtain ⟨child, childFound, below⟩ := descendant?_cons.mp found
            obtain rfl : child.name = step := findNamed_name childFound
            have member := findNamed_mem childFound
            refine ⟨child, member, ?_⟩
            cases rest with
            | nil =>
                obtain rfl : child = node := Option.some.inj below
                exact .inl rfl
            | cons next deeper =>
                exact .inr ((inside child member _ _).mpr
                  ⟨next :: deeper, node, by simp, below, by simp⟩)

theorem mem_listing_below_of_mem :
    ∀ properties : List Property, UniqueList properties → ∀ property ∈ properties,
      ∀ (before : List String) (row : Row), row ∈ listingList before property.children ↔
        ∃ path node, path ≠ [] ∧ property.descendant? path = some node ∧
          row = { path := before ++ path, type := node.type, value := node.value }
  | [], _ => by simp
  | head :: rest, ⟨first, others⟩ =>
      List.forall_mem_cons.mpr
        ⟨mem_listing_below head first, mem_listing_below_of_mem rest others⟩

end

theorem mem_rows {property : Property} (unique : property.Unique) {row : Row} :
    row ∈ property.rows ↔
      ∃ path node, path ≠ [] ∧ property.descendant? path = some node ∧
        row = { path, type := node.type, value := node.value } :=
  mem_listing_below property unique [] row

mutual

theorem prefix_of_mem_listing (before : List String) :
    ∀ property : Property, ∀ row ∈ property.listing before,
      before ++ [property.name] <+: row.path
  | ⟨name, type, value, children⟩, row, member => by
      rw [listing, List.mem_cons] at member
      rcases member with rfl | below
      · exact List.prefix_rfl
      · obtain ⟨child, _, longer⟩ := prefix_of_mem_listingList (before ++ [name]) children row below
        exact (List.prefix_append ..).trans longer

theorem prefix_of_mem_listingList (before : List String) :
    ∀ properties : List Property, ∀ row ∈ listingList before properties,
      ∃ child ∈ properties, before ++ [child.name] <+: row.path
  | [], row, member => by simp [listingList] at member
  | property :: rest, row, member => by
      rw [listingList, List.mem_append] at member
      rcases member with first | later
      · exact ⟨property, List.mem_cons_self, prefix_of_mem_listing before property row first⟩
      · obtain ⟨child, listed, longer⟩ := prefix_of_mem_listingList before rest row later
        exact ⟨child, List.mem_cons_of_mem _ listed, longer⟩

end

mutual

theorem listing_distinct (before : List String) :
    ∀ property : Property, property.Unique → ((property.listing before).map (·.path)).Nodup
  | ⟨name, type, value, children⟩, ⟨distinct, unique⟩ => by
      rw [listing, List.map_cons]
      refine List.nodup_cons.mpr ⟨fun again => ?_,
        listingList_distinct (before ++ [name]) children distinct unique⟩
      -- Every row below has a longer path than the property itself.
      obtain ⟨row, member, same⟩ := List.mem_map.mp again
      obtain ⟨child, _, longer⟩ := prefix_of_mem_listingList _ children row member
      have length := longer.length_le
      rw [same] at length
      simp at length

theorem listingList_distinct (before : List String) :
    ∀ properties : List Property, (names properties).Nodup → UniqueList properties →
      ((listingList before properties).map (·.path)).Nodup
  | [], _, _ => .nil
  | property :: rest, distinct, ⟨first, others⟩ => by
      obtain ⟨absent, restDistinct⟩ := List.nodup_cons.mp distinct
      rw [listingList, List.map_append]
      refine List.nodup_append'.mpr ⟨listing_distinct before property first,
        listingList_distinct before rest restDistinct others, ?_⟩
      intro path inFirst inRest
      obtain ⟨row, member, rfl⟩ := List.mem_map.mp inFirst
      obtain ⟨other, otherMember, same⟩ := List.mem_map.mp inRest
      have firstStep := prefix_of_mem_listing before property row member
      obtain ⟨child, listed, otherStep⟩ := prefix_of_mem_listingList before rest other otherMember
      rw [same] at otherStep
      have steps := List.prefix_of_prefix_length_le firstStep otherStep (by simp)
      have named : property.name = child.name := by simpa using steps.eq_of_length (by simp)
      exact notMem_names.mp absent child listed named.symm

end

/-- Whether all names below a property can be steps of a path. -/
def Named (property : Property) : Prop :=
  ∀ row ∈ property.rows, ∀ step ∈ row.path, NamesAttribute step

instance (property : Property) : Decidable property.Named :=
  inferInstanceAs (Decidable (∀ row ∈ property.rows, ∀ step ∈ row.path, NamesAttribute step))

/-- A tree whose nodes are told apart by the texts of their paths. -/
structure Addressable (property : Property) : Prop where
  unique : property.Unique
  named : property.Named

instance (property : Property) : Decidable property.Addressable :=
  decidable_of_iff (property.Unique ∧ property.Named)
    ⟨fun ⟨unique, named⟩ => ⟨unique, named⟩, fun ⟨unique, named⟩ => ⟨unique, named⟩⟩

variable {property : Property}

namespace Addressable

theorem named_of_found (addressable : property.Addressable) {path : List String} {node : Property}
    (found : property.descendant? path = some node) : ∀ step ∈ path, NamesAttribute step := by
  by_cases empty : path = []
  · simp [empty]
  · exact addressable.named _ ((mem_rows addressable.unique).mpr ⟨path, node, empty, found, rfl⟩)

/-- No two nodes have the same text for their paths. -/
theorem distinct (addressable : property.Addressable) :
    (keysList "" property.children).Nodup := by
  have rows : keysList "" property.children = property.rows.map fun row => joinAll row.path := by
    rw [keysList, nodesList_root, List.map_map]
    rfl
  obtain ⟨distinct, below⟩ := unique_iff.mp addressable.unique
  have paths := listingList_distinct [] property.children distinct (uniqueList_iff.mpr below)
  rw [rows]
  refine List.Nodup.map_on ?_ (List.Nodup.of_map _ paths)
  intro first firstMember second secondMember same
  exact List.inj_on_of_nodup_map paths firstMember secondMember
    (joinAll_injective (addressable.named first firstMember)
      (addressable.named second secondMember) same)

end Addressable

theorem mem_nodesList_iff (unique : property.Unique) {key : String} {type : PropertyType} :
    (key, type) ∈ nodesList "" property.children ↔
      ∃ path node, path ≠ [] ∧ property.descendant? path = some node ∧ key = joinAll path ∧
        type = node.type := by
  rw [nodesList_root, List.mem_map]
  constructor
  · rintro ⟨row, member, same⟩
    obtain ⟨path, node, nonempty, found, rfl⟩ := (mem_rows unique).mp member
    obtain ⟨rfl, rfl⟩ := Prod.mk.inj same
    exact ⟨path, node, nonempty, found, rfl, rfl⟩
  · rintro ⟨path, node, nonempty, found, rfl, rfl⟩
    exact ⟨_, (mem_rows unique).mpr ⟨path, node, nonempty, found, rfl⟩, rfl⟩

theorem mem_keysList_iff (unique : property.Unique) {key : String} :
    key ∈ keysList "" property.children ↔
      ∃ path node, path ≠ [] ∧ property.descendant? path = some node ∧ key = joinAll path := by
  rw [keysList, List.mem_map]
  constructor
  · rintro ⟨⟨_, type⟩, member, rfl⟩
    obtain ⟨path, node, nonempty, found, same, _⟩ := (mem_nodesList_iff unique).mp member
    exact ⟨path, node, nonempty, found, same⟩
  · rintro ⟨path, node, nonempty, found, rfl⟩
    exact ⟨_, (mem_nodesList_iff unique).mpr ⟨path, node, nonempty, found, rfl, rfl⟩, rfl⟩

theorem mem_valuesList_iff (unique : property.Unique) {key : String} {value : PropertyValue} :
    (key, value) ∈ valuesList "" property.children ↔
      ∃ path node, path ≠ [] ∧ property.descendant? path = some node ∧ key = joinAll path ∧
        node.value = some value := by
  rw [valuesList_root, List.mem_filterMap]
  constructor
  · rintro ⟨row, member, stored⟩
    obtain ⟨path, node, nonempty, found, rfl⟩ := (mem_rows unique).mp member
    obtain ⟨kept, known, same⟩ := Option.map_eq_some_iff.mp stored
    obtain ⟨rfl, rfl⟩ := Prod.mk.inj same
    exact ⟨path, node, nonempty, found, rfl, known⟩
  · rintro ⟨path, node, nonempty, found, rfl, known⟩
    exact ⟨_, (mem_rows unique).mpr ⟨path, node, nonempty, found, rfl⟩,
      Option.map_eq_some_iff.mpr ⟨value, known, rfl⟩⟩

end Property

end AlarmView
