import AlarmView.Proofs.EditModel.Paths

/-!
# What the instance pass carries over

The outcome of the instance pass can be read off the schema and the instance path by path.  A node
is lost with everything below it if the schema has no counterpart of its type, and its value joins
the retained ones.  All other nodes keep their values, and what is missing then is made from the
schema, with a retained value where one fits.
-/

namespace AlarmView

open BrowseName Property

namespace Property

/-- Whether a node on the way along a path has no counterpart of its type in the schema. -/
def Rejects (schema root : Property) (path : List String) : Prop :=
  ∃ part stored, part ≠ [] ∧ part <+: path ∧ root.descendant? part = some stored ∧
    ∀ counterpart, schema.descendant? part = some counterpart → counterpart.type ≠ stored.type

/-- A node of the schema that a tree does not have, or has only to lose it. -/
structure Adds (schema root : Property) (path : List String) (wanted : Property) : Prop where
  nonempty : path ≠ []
  found : schema.descendant? path = some wanted
  lacking : ∀ stored, root.descendant? path = some stored → schema.Rejects root path

/-- The node at the end of a path, if the schema has a counterpart for every node on the way. -/
def surviving? : (path : List String) → (schema root : Property) → Option Property
  | [], _, root => some root
  | name :: rest, schema, root =>
      (schema.child? name).bind fun counterpart =>
        ((root.child? name).filter (·.type == counterpart.type)).bind (surviving? rest counterpart)

variable {schema root : Property} {path : List String}

theorem not_rejects_nil : ¬ schema.Rejects root [] :=
  fun ⟨_, _, nonempty, part, _, _⟩ => nonempty (List.prefix_nil.mp part)

private theorem rejects_of_child {name : String} {child : Property}
    (stored : root.child? name = some child)
    (other : ∀ counterpart, schema.child? name = some counterpart → counterpart.type ≠ child.type)
    (rest : List String) : schema.Rejects root (name :: rest) := by
  refine ⟨[name], child, by simp, by simp, descendant?_cons.mpr ⟨child, stored, rfl⟩, ?_⟩
  intro counterpart found
  obtain ⟨wanted, listed, same⟩ := descendant?_cons.mp found
  obtain rfl : wanted = counterpart := Option.some.inj same
  exact other wanted listed

private theorem rejects_cons {name : String} {counterpart child : Property} {rest : List String}
    (wanted : schema.child? name = some counterpart) (stored : root.child? name = some child)
    (type : child.type = counterpart.type) :
    schema.Rejects root (name :: rest) ↔ counterpart.Rejects child rest := by
  constructor
  · rintro ⟨part, lost, nonempty, along, found, other⟩
    obtain rfl | ⟨more, rfl, shorter⟩ := List.prefix_cons_iff.mp along
    · exact absurd rfl nonempty
    · obtain ⟨next, listed, below⟩ := descendant?_cons.mp found
      obtain rfl : child = next := Option.some.inj (stored.symm.trans listed)
      refine ⟨more, lost, ?_, shorter, below, fun deeper reached =>
        other deeper (descendant?_cons.mpr ⟨counterpart, wanted, reached⟩)⟩
      -- The child itself has a counterpart of its type, so the lost node lies below it.
      rintro rfl
      obtain rfl : child = lost := Option.some.inj below
      exact other counterpart (descendant?_cons.mpr ⟨counterpart, wanted, rfl⟩) type.symm
  · rintro ⟨more, lost, _, shorter, below, other⟩
    refine ⟨name :: more, lost, by simp, (List.prefix_cons_inj name).mpr shorter,
      descendant?_cons.mpr ⟨child, stored, below⟩, ?_⟩
    intro deeper found
    obtain ⟨next, listed, reached⟩ := descendant?_cons.mp found
    obtain rfl : counterpart = next := Option.some.inj (wanted.symm.trans listed)
    exact other deeper reached

/-- The nodes that stay are those that are found and not rejected. -/
theorem surviving?_eq_some {node : Property} :
    surviving? path schema root = some node ↔
      root.descendant? path = some node ∧ ¬ schema.Rejects root path := by
  induction path generalizing schema root with
  | nil =>
      rw [surviving?, descendant?]
      exact ⟨fun found => ⟨found, not_rejects_nil⟩, And.left⟩
  | cons name rest ih =>
      rw [surviving?, descendant?]
      cases stored : root.child? name with
      | none => simp
      | some child =>
          rw [Option.bind_some]
          cases wanted : schema.child? name with
          | none =>
              have lost : schema.Rejects root (name :: rest) :=
                rejects_of_child stored (by simp [wanted]) rest
              simp [lost]
          | some counterpart =>
              by_cases type : child.type = counterpart.type
              · rw [rejects_cons wanted stored type]
                simpa [Option.filter, type] using ih
              · have lost : schema.Rejects root (name :: rest) :=
                  rejects_of_child stored (by simpa [wanted] using Ne.symm type) rest
                simp [Option.filter, type, lost]

theorem counterpart_of_surviving {node : Property}
    (survives : surviving? path schema root = some node) :
    ∃ wanted, schema.descendant? path = some wanted ∧ (path ≠ [] → wanted.type = node.type) := by
  obtain ⟨found, stays⟩ := surviving?_eq_some.mp survives
  by_cases nonempty : path = []
  · subst nonempty
    exact ⟨schema, rfl, fun other => absurd rfl other⟩
  · by_contra other
    push Not at other
    exact stays ⟨path, node, nonempty, List.prefix_rfl, found,
      fun counterpart listed => (other counterpart listed).2⟩

private theorem Adds.surviving?_eq_none {wanted : Property} (adds : schema.Adds root path wanted) :
    surviving? path schema root = none := by
  apply Option.eq_none_iff_forall_ne_some.mpr
  intro node survives
  obtain ⟨found, stays⟩ := surviving?_eq_some.mp survives
  exact stays (adds.lacking node found)

end Property

namespace Instance

variable {look : String → Option PropertyValue} {schema root : Property} {path : List String}

private theorem seed_type (look : String → Option PropertyValue) (key : String)
    (property : Property) : (seed look key property).type = property.type := by
  obtain ⟨name, type, value, children⟩ := property
  rfl

theorem seed_value (look : String → Option PropertyValue) (key : String) (property : Property) :
    (seed look key property).value =
      ((look key).filter (·.type == property.type)).or property.value := by
  obtain ⟨name, type, value, children⟩ := property
  rfl

private theorem child?_seed (key name : String) (property : Property) :
    (seed look key property).child? name =
      (property.child? name).map (seed look (join key name)) := by
  obtain ⟨_, type, value, children⟩ := property
  rw [seed, child?, child?, seedList_eq_map, findNamed, findNamed, List.find?_map]
  simp only [Function.comp_def, seed_name]
  refine Option.map_congr fun child found => ?_
  have named : child.name = name := findNamed_name found
  rw [named]

private theorem descendant?_seed (key : String) (path : List String) (property : Property) :
    (seed look key property).descendant? path =
      (property.descendant? path).map (seed look (path.foldl join key)) := by
  induction path generalizing key property with
  | nil => rfl
  | cons name rest ih =>
      rw [descendant?, child?_seed, descendant?, List.foldl_cons]
      cases property.child? name with
      | none => rfl
      | some child => exact ih (join key name) child

/-- What pruning leaves are the nodes that stay, with their values. -/
theorem value_pruned (schema : Property) (key : String) (unique : root.Unique) :
    (({ root with children := (pruneList schema key root.children).1 } : Property).descendant?
        path).map (·.value) = (surviving? path schema root).map (·.value) := by
  induction path generalizing schema root key with
  | nil => rfl
  | cons name rest ih =>
      obtain ⟨distinct, below⟩ := unique_iff.mp unique
      rw [descendant?, child?, findNamed_pruneList schema key distinct, surviving?]
      cases stored : findNamed name root.children with
      | none => simp [child?, stored]
      | some child =>
          obtain rfl := findNamed_name stored
          rw [Option.bind_some, counterpart?]
          cases schema.child? child.name with
          | none => rfl
          | some counterpart =>
              by_cases type : counterpart.type = child.type
              · have inner := ih counterpart (join key child.name)
                  (below child (findNamed_mem stored))
                simpa [Option.filter, type, child?, stored] using inner
              · simp [Option.filter, type, Ne.symm type, child?, stored]

/-- After the pass a node is found where the schema has one: the node that stays there, or a new
one. -/
theorem descendant?_merge (key : String) (schemaUnique : schema.Unique) (unique : root.Unique) :
    ({ root with children := merge look key schema root.children } : Property).descendant? path =
      (schema.descendant? path).map fun wanted =>
        match surviving? path schema root with
        | some stored =>
            { stored with children := merge look (path.foldl join key) wanted stored.children }
        | none => seed look (path.foldl join key) wanted := by
  induction path generalizing schema root key with
  | nil => rfl
  | cons name rest ih =>
      obtain ⟨schemaDistinct, schemaBelow⟩ := unique_iff.mp schemaUnique
      obtain ⟨distinct, below⟩ := unique_iff.mp unique
      rw [descendant?, child?, findNamed_merge key schemaDistinct distinct, descendant?, child?,
        surviving?, child?, child?, List.foldl_cons]
      cases wanted : findNamed name schema.children with
      | none => rfl
      | some counterpart =>
          simp only [Option.map_some, Option.bind_some]
          cases found : (findNamed name root.children).filter (·.type == counterpart.type) with
          | none => exact descendant?_seed (join key name) rest counterpart
          | some child =>
              have stored := (Option.filter_eq_some_iff.mp found).1
              exact ih (join key name) (schemaBelow counterpart (findNamed_mem wanted))
                (below child (findNamed_mem stored))

variable {model : Instance}

private theorem found_kept (unique : model.root.Unique) {value : Option PropertyValue} :
    (∃ left, (keptRoot schema model).descendant? path = some left ∧ left.value = value) ↔
      ∃ node, (model.root.descendant? path = some node ∧ ¬ schema.Rejects model.root path) ∧
        node.value = value := by
  have same : ((keptRoot schema model).descendant? path).map (·.value) =
      (surviving? path schema model.root).map (·.value) := value_pruned schema "" unique
  rw [← Option.map_eq_some_iff, same, Option.map_eq_some_iff]
  simp only [surviving?_eq_some]

/-- What holds of the values of a pruned instance with their paths holds of those that stay. -/
theorem exists_kept (schema : Property) (unique : model.root.Unique)
    (holds : List String → Option PropertyValue → Prop) :
    (∃ path left, path ≠ [] ∧ (keptRoot schema model).descendant? path = some left ∧
        holds path left.value) ↔
      ∃ path node, path ≠ [] ∧ model.root.descendant? path = some node ∧
        ¬ schema.Rejects model.root path ∧ holds path node.value := by
  constructor
  · rintro ⟨path, left, nonempty, there, fits⟩
    obtain ⟨node, ⟨stored, stays⟩, same⟩ := (found_kept unique).mp ⟨left, there, rfl⟩
    exact ⟨path, node, nonempty, stored, stays, same ▸ fits⟩
  · rintro ⟨path, node, nonempty, stored, stays, fits⟩
    obtain ⟨left, there, same⟩ := (found_kept unique).mpr ⟨node, ⟨stored, stays⟩, rfl⟩
    exact ⟨path, left, nonempty, there, same ▸ fits⟩

private theorem mem_keptValues (unique : model.root.Unique) {key : String} {value : PropertyValue} :
    (key, value) ∈ valuesList "" (kept schema model) ↔
      ∃ path node, path ≠ [] ∧ model.root.descendant? path = some node ∧
        ¬ schema.Rejects model.root path ∧ key = joinAll path ∧ node.value = some value :=
  (mem_valuesList_iff (keptRoot_unique schema unique)).trans
    (exists_kept schema unique fun path stored => key = joinAll path ∧ stored = some value)

private theorem mem_keptKeys (unique : model.root.Unique) {key : String} :
    key ∈ keysList "" (kept schema model) ↔
      ∃ path node, path ≠ [] ∧ model.root.descendant? path = some node ∧
        ¬ schema.Rejects model.root path ∧ key = joinAll path :=
  (mem_keysList_iff (keptRoot_unique schema unique)).trans
    (exists_kept schema unique fun path _ => key = joinAll path)

/-- The values that are taken out are those of the rejected nodes. -/
theorem mem_taken (paths : model.root.Addressable) {key : String} {value : PropertyValue} :
    (key, value) ∈ taken schema model ↔
      ∃ path node, model.root.descendant? path = some node ∧ schema.Rejects model.root path ∧
        key = joinAll path ∧ node.value = some value := by
  constructor
  · intro lost
    obtain ⟨path, node, nonempty, found, rfl, valued⟩ :=
      (mem_valuesList_iff paths.unique).mp ((mem_values_iff schema model _).mpr (.inr lost))
    refine ⟨path, node, found, ?_, rfl, valued⟩
    by_contra stays
    have left := (mem_keptValues paths.unique).mpr ⟨path, node, nonempty, found, stays, rfl, valued⟩
    exact (List.nodup_append'.mp (taken_distinct paths.distinct)).2.2
      (List.mem_map_of_mem left) (List.mem_map_of_mem lost)
  · rintro ⟨path, node, found, rejected, rfl, valued⟩
    have nonempty : path ≠ [] := by
      rintro rfl
      exact not_rejects_nil rejected
    have stored := (mem_valuesList_iff paths.unique).mpr ⟨path, node, nonempty, found, rfl, valued⟩
    refine ((mem_values_iff schema model _).mp stored).resolve_left fun left => ?_
    obtain ⟨other, _, _, otherFound, stays, same, _⟩ := (mem_keptValues paths.unique).mp left
    obtain rfl : path = other :=
      joinAll_injective (paths.named_of_found found) (paths.named_of_found otherFound) same
    exact stays rejected

/-- The gaps that are filled are the nodes that the schema adds. -/
theorem mem_gapsList (schemaPaths : schema.Addressable) (paths : model.root.Addressable)
    {key : String} {type : PropertyType} :
    (key, type) ∈ gapsList "" schema.children (kept schema model) ↔
      ∃ path wanted, schema.Adds model.root path wanted ∧ key = joinAll path ∧
        type = wanted.type := by
  have nodes := nodes_kept schemaPaths.unique paths.unique
  have keys : (keysList "" (kept schema model) ++
      (gapsList "" schema.children (kept schema model)).map (·.1)).Nodup := by
    rw [keysList, ← List.map_append]
    exact (nodes.map _).nodup_iff.mpr schemaPaths.distinct
  constructor
  · intro gap
    have listed := (gapsList_sublist "" schema.children (kept schema model)).subset gap
    obtain ⟨path, wanted, nonempty, found, rfl, rfl⟩ :=
      (mem_nodesList_iff schemaPaths.unique).mp listed
    refine ⟨path, wanted, ⟨nonempty, found, fun stored there => ?_⟩, rfl, rfl⟩
    by_contra stays
    exact (List.nodup_append'.mp keys).2.2
      ((mem_keptKeys paths.unique).mpr ⟨path, stored, nonempty, there, stays, rfl⟩)
      (List.mem_map_of_mem gap)
  · rintro ⟨path, wanted, adds, rfl, rfl⟩
    have listed := (mem_nodesList_iff schemaPaths.unique).mpr
      ⟨path, wanted, adds.nonempty, adds.found, rfl, rfl⟩
    refine (List.mem_append.mp (nodes.mem_iff.mpr listed)).resolve_left fun left => ?_
    obtain ⟨other, stored, _, there, stays, same⟩ :=
      (mem_keptKeys paths.unique).mp (List.mem_map_of_mem left)
    obtain rfl : path = other :=
      joinAll_injective (schemaPaths.named_of_found adds.found) (paths.named_of_found there) same
    exact stays (adds.lacking stored there)

theorem descendant?_update (schemaPaths : schema.Addressable) (unique : model.root.Unique)
    (path : List String) :
    (update schema model).1.root.descendant? path =
      (schema.descendant? path).map fun wanted =>
        match surviving? path schema model.root with
        | some stored =>
            { stored with
              children := merge (offered schema model).get? (joinAll path) wanted stored.children }
        | none => seed (offered schema model).get? (joinAll path) wanted := by
  rw [update_eq schemaPaths.distinct]
  exact descendant?_merge "" schemaPaths.unique unique

/-- The values that the pass has for new nodes: the retained ones, overwritten with those of the
rejected nodes. -/
structure Overwritten (schema : Property) (model : Instance) (offers : Table PropertyValue) :
    Prop where
  rejected : ∀ path node value, model.root.descendant? path = some node →
    schema.Rejects model.root path → node.value = some value →
    offers.get? (joinAll path) = some value
  retained : ∀ key,
    (∀ path node, model.root.descendant? path = some node → schema.Rejects model.root path →
      key = joinAll path → node.value = none) →
    offers.get? key = model.retained.get? key

/-- A value that is there for a new node and has its type. -/
def Fits (offers : Table PropertyValue) (path : List String) (wanted : Property)
    (value : PropertyValue) : Prop :=
  offers.get? (joinAll path) = some value ∧ value.type = wanted.type

/-- What the pass makes of an instance and reports, with some values on offer for new nodes. -/
structure Carries (schema : Property) (model : Instance) (offers : Table PropertyValue)
    (after : Instance) (changes : Changes) : Prop where
  unique : after.root.Unique
  nodes : ∀ path, path ≠ [] →
    (after.root.descendant? path).map (·.type) = (schema.descendant? path).map (·.type)
  stays : ∀ path node, model.root.descendant? path = some node →
    ¬ schema.Rejects model.root path →
    ∃ left, after.root.descendant? path = some left ∧ left.value = node.value
  restores : ∀ path wanted value, schema.Adds model.root path wanted →
    Fits offers path wanted value →
    ∃ new, after.root.descendant? path = some new ∧ new.value = some value
  defaults : ∀ path wanted, schema.Adds model.root path wanted →
    (∀ value, ¬ Fits offers path wanted value) →
    ∃ new, after.root.descendant? path = some new ∧ new.value = wanted.value
  restored : ∀ key, key ∈ changes.restored ↔
    ∃ path wanted value, schema.Adds model.root path wanted ∧ Fits offers path wanted value ∧
      key = joinAll path
  used : ∀ path wanted, schema.Adds model.root path wanted →
    after.retained.get? (joinAll path) = none
  unused : ∀ key, (∀ path wanted, schema.Adds model.root path wanted → key ≠ joinAll path) →
    after.retained.get? key = offers.get? key

private theorem overwritten_offered (paths : model.root.Addressable) :
    Overwritten schema model (offered schema model) where
  rejected path node value found rejected valued := by
    have lost := (mem_taken paths).mpr ⟨path, node, found, rejected, rfl, valued⟩
    rw [offered, Table.get?_insertAll, (lookup_taken paths.distinct).mpr lost]
    rfl
  retained key empty := by
    have absent : (taken schema model).reverse.lookup key = none := by
      apply Option.eq_none_iff_forall_ne_some.mpr
      intro value found
      obtain ⟨path, node, there, rejected, same, valued⟩ :=
        (mem_taken paths).mp ((lookup_taken paths.distinct).mp found)
      simp [empty path node there rejected same] at valued
    rw [offered, Table.get?_insertAll, absent, Option.none_or]

private theorem mem_created (schemaPaths : schema.Addressable) (paths : model.root.Addressable)
    {key : String} : key ∈ created schema model ↔
      ∃ path wanted, schema.Adds model.root path wanted ∧ key = joinAll path := by
  rw [created, List.mem_map]
  constructor
  · rintro ⟨⟨_, type⟩, gap, rfl⟩
    obtain ⟨path, wanted, adds, same, _⟩ := (mem_gapsList schemaPaths paths).mp gap
    exact ⟨path, wanted, adds, same⟩
  · rintro ⟨path, wanted, adds, rfl⟩
    have gap := (mem_gapsList schemaPaths paths).mpr ⟨path, wanted, adds, rfl, rfl⟩
    exact ⟨_, gap, rfl⟩

private theorem restorable_iff {offers : Table PropertyValue} {wanted : Property} :
    restorable offers.get? (joinAll path, wanted.type) = true ↔
      ∃ value, Fits offers path wanted value := by
  simp [restorable, Fits, Option.any_eq_true]

private theorem type_update (schemaPaths : schema.Addressable) (unique : model.root.Unique)
    (nonempty : path ≠ []) : ((update schema model).1.root.descendant? path).map (·.type) =
      (schema.descendant? path).map (·.type) := by
  rw [descendant?_update schemaPaths unique, Option.map_map]
  refine Option.map_congr fun wanted found => ?_
  rw [Function.comp_apply]
  cases survives : surviving? path schema model.root with
  | none => exact seed_type _ _ wanted
  | some stored =>
      obtain ⟨counterpart, listed, type⟩ := counterpart_of_surviving survives
      obtain rfl : wanted = counterpart := Option.some.inj (found.symm.trans listed)
      exact (type nonempty).symm

private theorem value_update_of_stays (schemaPaths : schema.Addressable)
    (unique : model.root.Unique)
    {node : Property} (found : model.root.descendant? path = some node)
    (accepted : ¬ schema.Rejects model.root path) :
    ∃ left, (update schema model).1.root.descendant? path = some left ∧
      left.value = node.value := by
  have survives := surviving?_eq_some.mpr ⟨found, accepted⟩
  obtain ⟨wanted, listed, _⟩ := counterpart_of_surviving survives
  rw [descendant?_update schemaPaths unique, listed, survives]
  exact ⟨_, rfl, rfl⟩

/-- A new node is a copy of the one in the schema, with a retained value where one fits. -/
theorem found_of_adds (schemaPaths : schema.Addressable) (unique : model.root.Unique)
    {wanted : Property} (adds : schema.Adds model.root path wanted) :
    (update schema model).1.root.descendant? path =
      some (seed (offered schema model).get? (joinAll path) wanted) := by
  rw [descendant?_update schemaPaths unique, adds.found, adds.surviving?_eq_none]
  rfl

private theorem seed_value_of_fits {offers : Table PropertyValue} {wanted : Property}
    {value : PropertyValue} (fits : Fits offers path wanted value) :
    (seed offers.get? (joinAll path) wanted).value = some value := by
  rw [seed_value, fits.1]
  simp [Option.filter, fits.2]

private theorem seed_value_of_misfits {offers : Table PropertyValue} {wanted : Property}
    (misfits : ∀ value, ¬ Fits offers path wanted value) :
    (seed offers.get? (joinAll path) wanted).value = wanted.value := by
  have nothing : (offers.get? (joinAll path)).filter (·.type == wanted.type) = none := by
    apply Option.eq_none_iff_forall_ne_some.mpr
    intro value found
    obtain ⟨offer, type⟩ := Option.filter_eq_some_iff.mp found
    exact misfits value ⟨offer, by simpa using type⟩
  rw [seed_value, nothing, Option.none_or]

private theorem mem_restored (schemaPaths : schema.Addressable) (paths : model.root.Addressable)
    {key : String} :
    key ∈ (update schema model).2.restored ↔
      ∃ path wanted value, schema.Adds model.root path wanted ∧
        Fits (offered schema model) path wanted value ∧ key = joinAll path := by
  rw [update_restored schemaPaths.distinct, List.mem_map]
  constructor
  · rintro ⟨⟨_, type⟩, member, rfl⟩
    obtain ⟨gap, restored⟩ := List.mem_filter.mp member
    obtain ⟨path, wanted, adds, rfl, rfl⟩ := (mem_gapsList schemaPaths paths).mp gap
    obtain ⟨value, fits⟩ := restorable_iff.mp restored
    exact ⟨path, wanted, value, adds, fits, rfl⟩
  · rintro ⟨path, wanted, value, adds, fits, rfl⟩
    have gap := (mem_gapsList schemaPaths paths).mpr ⟨path, wanted, adds, rfl, rfl⟩
    exact ⟨_, List.mem_filter.mpr ⟨gap, restorable_iff.mpr ⟨value, fits⟩⟩, rfl⟩

private theorem carries_offered (schemaPaths : schema.Addressable)
    (paths : model.root.Addressable) :
    Carries schema model (offered schema model) (update schema model).1
      (update schema model).2 where
  unique := update_unique schemaPaths.unique paths.unique
  nodes _ := type_update schemaPaths paths.unique
  stays _ _ := value_update_of_stays schemaPaths paths.unique
  restores _ _ _ adds fits :=
    ⟨_, found_of_adds schemaPaths paths.unique adds, seed_value_of_fits fits⟩
  defaults _ _ adds misfits :=
    ⟨_, found_of_adds schemaPaths paths.unique adds, seed_value_of_misfits misfits⟩
  restored _ := mem_restored schemaPaths paths
  used path wanted adds := by
    have new := (mem_created schemaPaths paths).mpr ⟨path, wanted, adds, rfl⟩
    rw [update_retained schemaPaths.distinct, if_pos new]
  unused key others := by
    have old : key ∉ created schema model := by
      intro new
      obtain ⟨path, wanted, adds, same⟩ := (mem_created schemaPaths paths).mp new
      exact others path wanted adds same
    rw [update_retained schemaPaths.distinct, if_neg old]

/-- The outcome of the pass is fixed node by node, however deep the trees are. -/
theorem update_carries (schemaPaths : schema.Addressable) (paths : model.root.Addressable) :
    ∃ offers, Overwritten schema model offers ∧
      Carries schema model offers (update schema model).1 (update schema model).2 :=
  ⟨offered schema model, overwritten_offered paths, carries_offered schemaPaths paths⟩

/-- A schema with a level below a level. -/
def leveledSchema : Property :=
  { name := "LevelsWidget", type := .object, value := none
    children :=
      [{ name := "Priority", type := .object, value := none
         children :=
          [.leaf "Urgent" (.boolean false),
            { name := "Level", type := .object, value := none
              children := [.leaf "Depth" (.uint16 5)] }] },
        .leaf "Severity" (.uint16 1)] }

/-- An instance in which the upper level is a checked state. -/
def unleveled : Instance where
  root :=
    { name := "Levels", type := .object, value := none
      children :=
        [{ name := "Priority", type := .object, value := none
           children :=
            [.leaf "Urgent" (.boolean true),
              { name := "Level", type := .boolean, value := some (.boolean true)
                children := [.leaf "Depth" (.uint16 7)] }] },
          .leaf "Old" (.boolean true)] }
  retained := .ofList [("Priority/Level/Depth", .uint16 3), ("Severity", .boolean true)]

/-- The value of the upper level is lost, the one below it comes back instead of an older one, and a
retained severity of another type does not count. -/
theorem update_carries_leveled :
    (leveledSchema.Addressable ∧ unleveled.root.Addressable) ∧
      (unleveled.update leveledSchema).2.restored = ["Priority/Level/Depth"] ∧
      ∃ offers, Overwritten leveledSchema unleveled offers ∧
        Carries leveledSchema unleveled offers (unleveled.update leveledSchema).1
          (unleveled.update leveledSchema).2 := by
  have schemaPaths : leveledSchema.Addressable := by decide +kernel
  have paths : unleveled.root.Addressable := by decide +kernel
  have restored : (unleveled.update leveledSchema).2.restored = ["Priority/Level/Depth"] := by
    decide +kernel
  exact ⟨⟨schemaPaths, paths⟩, restored, update_carries schemaPaths paths⟩

end Instance

end AlarmView
