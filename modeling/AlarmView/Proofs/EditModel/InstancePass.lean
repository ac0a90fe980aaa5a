import AlarmView.Proofs.EditModel.Skeleton

/-!
# The instance pass

The instance pass loses and invents no value: each one stays under its path, in the instance or
among the retained ones, unless a node of another type takes its place, and new ones are defaults of
the schema.
-/

namespace AlarmView

open Property

namespace Instance

/-- The live value under a path. -/
def live? (model : Instance) (path : String) : Option PropertyValue :=
  (valuesList "" model.root.children).lookup path

/-- The live value under a path, or else the retained one. -/
def logical? (model : Instance) (path : String) : Option PropertyValue :=
  (model.live? path).or (model.retained.get? path)

/-- Whether no path stands for two nodes, or for a live and a retained value. -/
structure Separate (model : Instance) : Prop where
  distinct : (keysList "" model.root.children).Nodup
  apart : ∀ path, model.live? path ≠ none → model.retained.get? path = none

theorem lookup_eq_some {α : Type} {entries : List (String × α)}
    (distinct : (entries.map (·.1)).Nodup) {key : String} {value : α} :
    entries.lookup key = some value ↔ (key, value) ∈ entries := by
  induction entries with
  | nil => simp
  | cons head rest ih =>
      obtain ⟨first, stored⟩ := head
      obtain ⟨absent, restDistinct⟩ := List.nodup_cons.mp distinct
      rw [List.lookup_cons, List.mem_cons, Prod.mk.injEq]
      by_cases same : key = first
      · subst same
        have notLater : (key, value) ∉ rest := fun member =>
          absent (List.mem_map.mpr ⟨_, member, rfl⟩)
        simp [notLater, eq_comm]
      · have other : (key == first) = false := beq_eq_false_iff_ne.mpr same
        simp [other, same, ih restDistinct]

theorem live?_eq_some {model : Instance} (distinct : (keysList "" model.root.children).Nodup)
    {path : String} {value : PropertyValue} :
    model.live? path = some value ↔ (path, value) ∈ valuesList "" model.root.children :=
  lookup_eq_some (distinct.sublist (valuesList_keys_sublist "" model.root.children))

namespace Separate

variable {model : Instance} {path : String} {value : PropertyValue}

theorem live?_eq_some (separate : model.Separate) :
    model.live? path = some value ↔ (path, value) ∈ valuesList "" model.root.children :=
  Instance.live?_eq_some separate.distinct

theorem logical?_eq_some (separate : model.Separate) :
    model.logical? path = some value ↔
      (path, value) ∈ valuesList "" model.root.children ∨
        model.retained.get? path = some value := by
  rw [logical?, Option.or_eq_some_iff, separate.live?_eq_some]
  constructor
  · exact Or.imp_right And.right
  · refine Or.imp_right fun retained => ⟨?_, retained⟩
    by_contra live
    simp [separate.apart path live] at retained

end Separate

def kept (schema : Property) (model : Instance) : List Property :=
  (pruneList schema "" model.root.children).1

/-- The instance after pruning. -/
def keptRoot (schema : Property) (model : Instance) : Property :=
  { model.root with children := kept schema model }

def taken (schema : Property) (model : Instance) : List (String × PropertyValue) :=
  (pruneList schema "" model.root.children).2.values

def offered (schema : Property) (model : Instance) : Table PropertyValue :=
  model.retained.insertAll (taken schema model)

def created (schema : Property) (model : Instance) : List String :=
  (gapsList "" schema.children (kept schema model)).map (·.1)

variable {schema : Property} {model : Instance}

/-- The pass fills what pruning leaves with what it then has on offer. -/
theorem update_fills (distinct : (keysList "" schema.children).Nodup) (model : Instance) :
    (complete "" schema (keptRoot schema model) (offered schema model)).Fills
      (offered schema model).get? (offered schema model)
      (gapsList "" schema.children (kept schema model))
      (fill (offered schema model).get? "" schema (keptRoot schema model)) :=
  complete_fills _ "" schema (keptRoot schema model) _ distinct fun _ _ => rfl

theorem update_eq (distinct : (keysList "" schema.children).Nodup) :
    (update schema model).1 =
      { root := { model.root with
          children := fillList (offered schema model).get? "" schema.children (kept schema model) }
        retained := (offered schema model).eraseAll (created schema model) } := by
  have fills := update_fills distinct model
  have whole := fills.whole_eq
  rw [fill_eq] at whole
  simp only [update, prune_eq]
  exact congr (congrArg Instance.mk whole) fills.left

/-- The paths that are reported as restored are those of the new nodes that got a retained value. -/
theorem update_restored (distinct : (keysList "" schema.children).Nodup) :
    (update schema model).2.restored =
      ((gapsList "" schema.children (kept schema model)).filter
        (restorable (offered schema model).get?)).map (·.1) := by
  simp only [update, prune_eq]
  exact (update_fills distinct model).restored

theorem keptRoot_unique (schema : Property) (unique : model.root.Unique) :
    (keptRoot schema model).Unique := by
  obtain ⟨distinct, below⟩ := unique_iff.mp unique
  have keptBelow := uniqueList_pruneList schema "" model.root.children (uniqueList_iff.mpr below)
  exact unique_iff.mpr
    ⟨distinct.sublist (names_pruneList_sublist schema "" model.root.children),
      uniqueList_iff.mp keptBelow⟩

/-- The nodes that pruning leaves and the gaps make up the schema. -/
theorem nodes_kept (schemaUnique : schema.Unique) (unique : model.root.Unique) :
    (nodesList "" (kept schema model) ++ gapsList "" schema.children (kept schema model)).Perm
      (nodesList "" schema.children) :=
  nodes_within "" schema (keptRoot schema model) schemaUnique (keptRoot_unique schema unique)
    (within_pruneList schema "" model.root.children)

theorem values_conserved (schema : Property) (model : Instance) :
    (valuesList "" (kept schema model) ++ taken schema model).Perm
      (valuesList "" model.root.children) :=
  valuesList_prune schema "" model.root.children

theorem update_nodes (distinct : (keysList "" schema.children).Nodup) (schemaUnique : schema.Unique)
    (unique : model.root.Unique) :
    (nodesList "" (update schema model).1.root.children).Perm (nodesList "" schema.children) := by
  obtain ⟨schemaDistinct, below⟩ := unique_iff.mp schemaUnique
  rw [update_eq distinct]
  exact (nodesList_fillList "" _ schemaDistinct (uniqueList_iff.mpr below)).trans
    (nodes_kept schemaUnique unique)

theorem skeleton_update (look : String → Option PropertyValue) (schema : Property)
    (model : Instance) :
    (update schema model).1.root.skeleton =
      (fill look "" schema (keptRoot schema model)).skeleton := by
  simp only [update, prune_eq]
  exact skeleton_complete look "" schema _ _ _ rfl

/-- After the pass siblings of the instance have different names. -/
theorem update_unique (schemaUnique : schema.Unique) (unique : model.root.Unique) :
    (update schema model).1.root.Unique := by
  refine (unique_congr (skeleton_update (fun _ => none) schema model)).mpr ?_
  apply fill_unique
  · exact uniqueList_iff.mpr (unique_iff.mp schemaUnique).2
  · exact keptRoot_unique schema unique

theorem update_values (distinct : (keysList "" schema.children).Nodup)
    (schemaUnique : schema.Unique) :
    (valuesList "" (update schema model).1.root.children).Perm
      (valuesList "" (kept schema model) ++
        arrivalsList (offered schema model).get? "" schema.children (kept schema model)) := by
  obtain ⟨schemaDistinct, below⟩ := unique_iff.mp schemaUnique
  rw [update_eq distinct]
  exact valuesList_fillList "" _ schemaDistinct (uniqueList_iff.mpr below)

theorem update_retained (distinct : (keysList "" schema.children).Nodup) (path : String) :
    (update schema model).1.retained.get? path =
      if path ∈ created schema model then none else (offered schema model).get? path := by
  rw [update_eq distinct, Table.get?_eraseAll]

def merge (look : String → Option PropertyValue) (path : String) (schema : Property)
    (children : List Property) : List Property :=
  fillList look path schema.children (pruneList schema path children).1

/-- What is found after the pass: a stored property of the type in the schema, or a new one. -/
theorem findNamed_merge {look : String → Option PropertyValue} (path : String)
    {children : List Property} (schemaDistinct : (names schema.children).Nodup)
    (distinct : (names children).Nodup) (name : String) :
    findNamed name (merge look path schema children) =
      (findNamed name schema.children).map fun property =>
        match (findNamed name children).filter (·.type == property.type) with
        | some child =>
            { child with
              children := merge look (BrowseName.join path name) property child.children }
        | none => seed look (BrowseName.join path name) property := by
  rw [merge, findNamed_fillList path name _ schemaDistinct,
    findNamed_pruneList schema path distinct]
  cases stored : findNamed name children with
  | none => cases findNamed name schema.children <;> rfl
  | some child =>
      have named := findNamed_name stored
      have counterpart : counterpart? schema child =
          (findNamed name schema.children).filter (·.type == child.type) := by
        rw [counterpart?, child?, named]
      rw [Option.bind_some, counterpart, named]
      cases findNamed name schema.children with
      | none => rfl
      | some property =>
          by_cases type : property.type = child.type
          · simp [Option.filter, type, fill_eq, merge, named.symm]
          · simp [Option.filter, type, Ne.symm type]

theorem mem_values_iff (schema : Property) (model : Instance) (entry : String × PropertyValue) :
    entry ∈ valuesList "" model.root.children ↔
      entry ∈ valuesList "" (kept schema model) ∨ entry ∈ taken schema model := by
  rw [← (values_conserved schema model).mem_iff, List.mem_append]

theorem taken_distinct (distinct : (keysList "" model.root.children).Nodup) :
    ((valuesList "" (kept schema model)).map (·.1) ++ (taken schema model).map (·.1)).Nodup := by
  have keys := (values_conserved schema model).map (·.1)
  rw [List.map_append] at keys
  exact keys.nodup_iff.mpr
    (distinct.sublist (valuesList_keys_sublist "" model.root.children))

theorem lookup_taken (distinct : (keysList "" model.root.children).Nodup) {key : String}
    {value : PropertyValue} :
    (taken schema model).reverse.lookup key = some value ↔ (key, value) ∈ taken schema model := by
  have takenDistinct : ((taken schema model).reverse.map (·.1)).Nodup := by
    rw [List.map_reverse, List.nodup_reverse]
    exact (List.nodup_append'.mp (taken_distinct distinct)).2.1
  rw [lookup_eq_some takenDistinct, List.mem_reverse]

theorem offered_eq_some (separate : model.Separate) {path : String} {value : PropertyValue} :
    (offered schema model).get? path = some value ↔
      (path, value) ∈ taken schema model ∨ model.retained.get? path = some value := by
  rw [offered, Table.get?_insertAll, Option.or_eq_some_iff, lookup_taken separate.distinct]
  constructor
  · exact Or.imp_right And.right
  · refine Or.imp_right fun retained => ⟨?_, retained⟩
    cases found : (taken schema model).reverse.lookup path with
    | none => rfl
    | some other =>
        rw [lookup_taken separate.distinct] at found
        have live := separate.live?_eq_some.mpr
          ((mem_values_iff schema model _).mpr (.inr found))
        simp [separate.apart path (by simp [live])] at retained

theorem mem_arrivalsList {look : String → Option PropertyValue} {wanted children : List Property}
    {path key : String} {value : PropertyValue}
    (member : (key, value) ∈ arrivalsList look path wanted children) :
    key ∈ (gapsList path wanted children).map (·.1) ∧
      (look key = some value ∨ (key, value) ∈ valuesList path wanted) := by
  obtain ⟨part, missing, arrived⟩ := List.mem_flatMap.mp member
  constructor
  · have listed := (values_keys_sublist part.1 _).subset (List.mem_map_of_mem arrived)
    rw [seed_name, keys, seed_nodes] at listed
    obtain ⟨node, inPart, same⟩ := List.mem_map.mp listed
    exact List.mem_map.mpr ⟨node, List.mem_flatMap.mpr ⟨part, missing, inPart⟩, same⟩
  · apply (mem_seed_values part.2 arrived).imp And.right
    intro own
    rw [valuesList_eq_flatMap]
    exact (missingList_sublist .ofValues path wanted children).subset
      (List.mem_flatMap.mpr ⟨part, missing, own⟩)

private theorem arrivalsList_of_look {look : String → Option PropertyValue}
    {wanted children : List Property} {path key : String} {value : PropertyValue}
    (found : look key = some value) (gap : (key, value.type) ∈ gapsList path wanted children) :
    (key, value) ∈ arrivalsList look path wanted children := by
  obtain ⟨part, missing, node⟩ := List.mem_flatMap.mp gap
  exact List.mem_flatMap.mpr ⟨part, missing, seed_values_of_look found part.2 node⟩

/-- After the pass no path stands for two nodes, or for a live and a retained value. -/
theorem update_separate (distinct : (keysList "" schema.children).Nodup)
    (schemaUnique : schema.Unique) (unique : model.root.Unique) (separate : model.Separate) :
    (update schema model).1.Separate := by
  have distinctAfter : (keysList "" (update schema model).1.root.children).Nodup :=
    ((update_nodes distinct schemaUnique unique).map _).nodup_iff.mpr distinct
  refine ⟨distinctAfter, fun path live => ?_⟩
  obtain ⟨value, found⟩ := Option.ne_none_iff_exists'.mp live
  rw [live?_eq_some distinctAfter, (update_values distinct schemaUnique).mem_iff,
    List.mem_append] at found
  rw [update_retained distinct]
  split
  · rfl
  · next old =>
      rcases found with stays | arrived
      · apply Option.eq_none_iff_forall_ne_some.mpr
        intro other offer
        rcases (offered_eq_some separate).mp offer with lost | retained
        · have lostKey : path ∈ (taken schema model).map (·.1) :=
            List.mem_map.mpr ⟨(path, other), lost, rfl⟩
          exact (List.nodup_append'.mp (taken_distinct separate.distinct)).2.2
            (List.mem_map.mpr ⟨(path, value), stays, rfl⟩) lostKey
        · have liveBefore := separate.live?_eq_some.mpr
            ((mem_values_iff schema model _).mpr (.inl stays))
          simp [separate.apart path (by simp [liveBefore])] at retained
      · exact absurd (mem_arrivalsList arrived).1 old

/-- Every value stays, unless a node of another type takes its place. -/
theorem logical?_update_of_some (distinct : (keysList "" schema.children).Nodup)
    (schemaUnique : schema.Unique) (unique : model.root.Unique) (separate : model.Separate)
    {path : String} {value : PropertyValue} (stored : model.logical? path = some value)
    (fits : ∀ type, (path, type) ∈ nodesList "" schema.children → value.type = type) :
    (update schema model).1.logical? path = some value := by
  have after := update_separate distinct schemaUnique unique separate
  rw [after.logical?_eq_some, (update_values distinct schemaUnique).mem_iff, List.mem_append,
    update_retained distinct]
  have place : (path, value) ∈ valuesList "" (kept schema model) ∨
      (offered schema model).get? path = some value := by
    rw [offered_eq_some separate]
    rcases separate.logical?_eq_some.mp stored with live | retained
    · rcases (mem_values_iff schema model _).mp live with stays | lost
      · exact .inl stays
      · exact .inr (.inl lost)
    · exact .inr (.inr retained)
  rcases place with stays | offer
  · exact .inl (.inl stays)
  · by_cases new : path ∈ created schema model
    · obtain ⟨⟨_, type⟩, gap, rfl⟩ := List.mem_map.mp new
      have node := (gapsList_sublist "" schema.children (kept schema model)).subset gap
      exact .inl (.inr (arrivalsList_of_look offer (fits type node ▸ gap)))
    · rw [if_neg new]
      exact .inr offer

theorem logical?_update_eq_some (distinct : (keysList "" schema.children).Nodup)
    (schemaUnique : schema.Unique) (unique : model.root.Unique) (separate : model.Separate)
    {path : String} {value : PropertyValue}
    (stored : (update schema model).1.logical? path = some value) :
    model.logical? path = some value ∨ (path, value) ∈ valuesList "" schema.children := by
  have after := update_separate distinct schemaUnique unique separate
  rw [after.logical?_eq_some, (update_values distinct schemaUnique).mem_iff, List.mem_append,
    update_retained distinct] at stored
  have offeredBefore : (offered schema model).get? path = some value →
      model.logical? path = some value := by
    intro offer
    refine separate.logical?_eq_some.mpr ?_
    exact ((offered_eq_some separate).mp offer).imp_left fun lost =>
      (mem_values_iff schema model _).mpr (.inr lost)
  rcases stored with (stays | arrived) | retained
  · exact .inl (separate.logical?_eq_some.mpr
      (.inl ((mem_values_iff schema model _).mpr (.inl stays))))
  · exact (mem_arrivalsList arrived).2.imp_left offeredBefore
  · split at retained
    · simp at retained
    · exact .inl (offeredBefore retained)

end Instance

end AlarmView
