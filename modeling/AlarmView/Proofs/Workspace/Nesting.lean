import AlarmView.Proofs.EditModel.Creation
import AlarmView.Proofs.Workspace.Persistence

/-!
# How deep workspaces are nested

A configuration without criteria below criteria, and edit models with leaves below attributes, are
encoded a few levels deep.  A workspace of these can always be loaded again.
-/

namespace AlarmView

open Property

private theorem Table.get?_of_mem {α : Type} {table : Table α} {entry : String × α}
    (member : entry ∈ table.entries) : table.get? entry.1 = some entry.2 := by
  have distinct : (table.entries.map (·.1)).Nodup :=
    List.pairwise_map.mpr (table.sorted.imp String.ne_of_lt)
  rw [get?, find?_of_mem Prod.fst distinct member, Option.map_some]

theorem Flag.depth_of_children {flag : Flag} {limit : Nat}
    (shallow : ∀ child ∈ flag.children, child.toJson.depth ≤ limit) :
    flag.toJson.depth ≤ limit + 2 :=
  depth_toJson (.inr (Json.depth_list.mpr (List.forall_mem_map.mpr shallow)))

namespace Configuration

variable {configuration changed : Configuration}

/-- Whether no criterion of a configuration has criteria below it. -/
def Flat (configuration : Configuration) : Prop :=
  ∀ attr ∈ configuration.attributes, ∀ criterion ∈ attr.children, criterion.children = []

theorem builtin_flat : builtin.Flat := by
  unfold Flat
  decide +kernel

private theorem Flat.updateAttribute (flat : configuration.Flat) {change : Flag → Flag}
    (keeps : ∀ attr : Flag, (∀ criterion ∈ attr.children, criterion.children = []) →
      ∀ criterion ∈ (change attr).children, criterion.children = []) (attr : String) :
    (configuration.updateAttribute attr change).Flat := by
  intro flag member
  rcases Flag.mem_updateNamed member with kept | ⟨found, listed, rfl⟩
  · exact flat flag kept
  · exact keeps found (flat found listed)

theorem Flat.setEnabled (flat : configuration.Flat) {attr : String} {criterion : Option String}
    {enabled : Bool} (edited : configuration.setEnabled attr criterion enabled = .ok changed) :
    changed.Flat := by
  rcases setEnabled_eq_ok edited with rfl | ⟨name, _, _, rfl⟩
  · refine flat.updateAttribute (fun flag leaves => ?_) attr
    exact leaves
  · refine flat.updateAttribute (fun flag leaves => ?_) attr
    rw [Flag.setChild]
    split
    · intro child member
      rcases Flag.mem_updateNamed member with kept | ⟨found, listed, rfl⟩
      · exact leaves child kept
      · exact leaves found listed
    · exact List.forall_mem_append.mpr ⟨leaves, List.forall_mem_singleton.mpr rfl⟩

theorem Flat.depth_toJson (flat : configuration.Flat) : configuration.toJson.depth ≤ 5 := by
  rw [toJson_eq, Json.depth_object, List.forall_mem_singleton, Json.depth_list,
    List.forall_mem_map]
  intro attr member
  apply Flag.depth_of_children
  intro criterion listed
  exact Flag.depth_toJson (.inl (flat attr member criterion listed))

end Configuration

namespace Property

theorem depth_of_children {property : Property} {limit : Nat}
    (shallow : ∀ child ∈ property.children, child.toJson.depth ≤ limit) :
    property.toJson.depth ≤ limit + 2 :=
  depth_toJson (fun stored _ => stored.depth_toJson limit)
    (.inr (Json.depth_list.mpr (List.forall_mem_map.mpr shallow)))

theorem IsLeaf.depth_toJson {leaf : Property} (shaped : leaf.IsLeaf) : leaf.toJson.depth ≤ 2 :=
  depth_of_children (by simp [shaped.children])

theorem Regular.depth_toJson {root : Property} (regular : root.Regular) :
    root.toJson.depth ≤ 6 := by
  refine depth_of_children fun group member => depth_of_children fun leaf listed => ?_
  exact ((regular.groups group member).leaves leaf listed).depth_toJson

end Property

theorem Instance.depth_toJson {model : Instance} (regular : model.root.Regular) :
    model.toJson.depth ≤ 7 := by
  rw [toJson, Json.depth_object, List.forall_mem_cons]
  refine ⟨regular.depth_toJson, ?_⟩
  split
  · exact List.forall_mem_nil _
  · rw [List.forall_mem_singleton]
    exact Table.depth_toJson fun entry _ => entry.2.depth_toJson 4

theorem Store.depth_toJson {store : Store} (each : store.Each Regular (·.root.Regular)) :
    store.toJson.depth ≤ 9 := by
  rw [toJson, Json.depth_object, List.forall_mem_cons, List.forall_mem_singleton]
  constructor
  · refine Table.depth_toJson fun entry member => ?_
    have shallow := (each.schemas _ _ (Table.get?_of_mem member)).depth_toJson
    omega
  · refine Table.depth_toJson fun entry member => ?_
    exact Instance.depth_toJson (each.models _ _ (Table.get?_of_mem member))

/-- A workspace of such parts is not nested too deeply. -/
theorem Workspace.depth_le {workspace : Workspace} (flat : workspace.configuration.Flat)
    (each : workspace.store.Each Regular (·.root.Regular)) :
    workspace.toJson.depth ≤ Json.maxDepth := by
  have shallow : workspace.toJson.depth ≤ 10 := by
    rw [toJson, Json.depth_object, List.forall_mem_cons, List.forall_mem_singleton]
    exact ⟨Nat.le_trans flat.depth_toJson (by decide), Store.depth_toJson each⟩
  exact Nat.le_trans shallow (by decide)

end AlarmView
