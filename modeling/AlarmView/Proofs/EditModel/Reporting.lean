import AlarmView.Proofs.EditModel.Mirroring
import AlarmView.Proofs.EditModel.Upkeep

/-!
# Reports of a reconciliation

Every step of the schema pass touches the siblings of one name and reports exactly if it changes
them, so the pass reports nothing exactly if it leaves the schema as it was.  The instance pass may
remove a node and add the same one again only where siblings of the schema share a name; apart from
that an empty report and an unchanged edit model are the same.
-/

namespace AlarmView

open Property

namespace Changes

theorem isEmpty_iff {changes : Changes} :
    changes.isEmpty ↔ changes.added = [] ∧ changes.removed = [] ∧ changes.restored = [] := by
  simp [isEmpty, and_assoc]

theorem append_added (first second : Changes) :
    (first ++ second).added = first.added ++ second.added := rfl

theorem append_removed (first second : Changes) :
    (first ++ second).removed = first.removed ++ second.removed := rfl

theorem append_restored (first second : Changes) :
    (first ++ second).restored = first.restored ++ second.restored := rfl

theorem isEmpty_append {first second : Changes} :
    (first ++ second).isEmpty ↔ first.isEmpty ∧ second.isEmpty := by
  simp only [isEmpty_iff, append_added, append_removed, append_restored, List.append_eq_nil_iff]
  tauto

theorem isEmpty_append_eq_false {first second : Changes}
    (told : first.isEmpty = false ∨ second.isEmpty = false) :
    (first ++ second).isEmpty = false := by
  rw [← Bool.not_eq_true, isEmpty_append]
  rintro ⟨nothing, nothingElse⟩
  rcases told with here | later
  · rw [nothing] at here
    exact absurd here (by decide)
  · rw [nothingElse] at later
    exact absurd later (by decide)

end Changes

namespace Property

/-- The siblings of one name in their order. -/
def namedAs (name : String) (properties : List Property) : List Property :=
  properties.filter (·.name == name)

theorem findNamed_eq_head? (name : String) (properties : List Property) :
    findNamed name properties = (namedAs name properties).head? :=
  List.head?_filter.symm

theorem namedAs_append (name : String) (first second : List Property) :
    namedAs name (first ++ second) = namedAs name first ++ namedAs name second :=
  List.filter_append ..

theorem namedAs_cons (name : String) (head : Property) (rest : List Property) :
    namedAs name (head :: rest) =
      if head.name = name then head :: namedAs name rest else namedAs name rest := by
  by_cases here : head.name = name
  · simp [namedAs, here]
  · simp [namedAs, here]

theorem namedAs_removeNamed (name other : String) (properties : List Property) :
    namedAs other (removeNamed name properties) =
      if name = other then (namedAs other properties).tail else namedAs other properties := by
  induction properties with
  | nil => simp [namedAs, removeNamed]
  | cons head rest ih =>
      by_cases here : head.name = name
      · have gone : removeNamed name (head :: rest) = rest := by simp [removeNamed, here]
        rw [gone, namedAs_cons, here]
        split <;> rfl
      · have stays : removeNamed name (head :: rest) = head :: removeNamed name rest := by
          simp [removeNamed, here]
        rw [stays, namedAs_cons, namedAs_cons, ih]
        split
        · next same => rw [if_neg (same ▸ Ne.symm here), if_neg (same ▸ Ne.symm here)]
        · rfl

private theorem namedAs_updateNamed {name : String} {change : Property → Property}
    (keeps : ∀ property, property.name = name → (change property).name = name) (other : String)
    (properties : List Property) :
    namedAs other (updateNamed name change properties) =
      if name = other then
        match namedAs other properties with
        | [] => []
        | first :: later => change first :: later
      else namedAs other properties := by
  induction properties with
  | nil => simp [namedAs, updateNamed]
  | cons head rest ih =>
      by_cases here : head.name = name
      · have changed : updateNamed name change (head :: rest) = change head :: rest := by
          simp [updateNamed, here]
        rw [changed, namedAs_cons, namedAs_cons, keeps head here, here]
        split <;> rfl
      · have stays : updateNamed name change (head :: rest) =
            head :: updateNamed name change rest := by
          simp [updateNamed, here]
        rw [stays, namedAs_cons, namedAs_cons, ih]
        split
        · next same => rw [if_neg (same ▸ Ne.symm here), if_neg (same ▸ Ne.symm here)]
        · rfl

end Property

namespace Schema

/-- The steps of a pass one after the other, with all that they report. -/
def inTurn {ι : Type} (step : Property → ι → Property × Changes) (property : Property) :
    List ι → Property × Changes
  | [] => (property, .none)
  | item :: rest =>
      let first := step property item
      let others := inTurn step first.1 rest
      (others.1, first.2 ++ others.2)

/-- Whether a step touches siblings of one name only, and either does nothing or changes them and
says so. -/
structure Candid {ι : Type} (nameOf : ι → String) (step : Property → ι → Property × Changes)
    (item : ι) : Prop where
  elsewhere : ∀ property other, nameOf item ≠ other →
    namedAs other (step property item).1.children = namedAs other property.children
  here : ∀ property, step property item = (property, .none) ∨
    namedAs (nameOf item) (step property item).1.children ≠
        namedAs (nameOf item) property.children ∧
      (step property item).2.isEmpty = false

namespace Candid

variable {ι : Type} {nameOf : ι → String} {step : Property → ι → Property × Changes}

private theorem inTurn_elsewhere {items : List ι} (candid : ∀ item ∈ items, Candid nameOf step item)
    {other : String} (absent : other ∉ items.map nameOf) (property : Property) :
    namedAs other (inTurn step property items).1.children = namedAs other property.children := by
  induction items generalizing property with
  | nil => rfl
  | cons item rest ih =>
      obtain ⟨first, later⟩ := List.forall_mem_cons.mp candid
      simp only [List.map_cons, List.mem_cons, not_or] at absent
      exact (ih later absent.2 _).trans (first.elsewhere property other (Ne.symm absent.1))

/-- Candid steps with different names together either do nothing or change something and say so. -/
theorem inTurn_cases {items : List ι} (candid : ∀ item ∈ items, Candid nameOf step item)
    (distinct : (items.map nameOf).Nodup) (property : Property) :
    inTurn step property items = (property, .none) ∨
      (inTurn step property items).1 ≠ property ∧
        (inTurn step property items).2.isEmpty = false := by
  induction items with
  | nil => exact .inl rfl
  | cons item rest ih =>
      obtain ⟨first, later⟩ := List.forall_mem_cons.mp candid
      obtain ⟨absent, restDistinct⟩ := List.nodup_cons.mp distinct
      rw [inTurn]
      rcases first.here property with idle | ⟨changed, told⟩
      · rw [idle]
        rcases ih later restDistinct with nothing | ⟨changed, told⟩
        · exact .inl (by rw [nothing]; rfl)
        · exact .inr ⟨changed, Changes.isEmpty_append_eq_false (.inr told)⟩
      · refine .inr ⟨fun same => changed ?_, Changes.isEmpty_append_eq_false (.inl told)⟩
        -- No later step touches the siblings of this name, so they have changed for good.
        have untouched := inTurn_elsewhere later absent (step property item).1
        exact untouched.symm.trans (congrArg (namedAs _ ·.children) same)

end Candid

private theorem syncLeaves_eq_inTurn (parent : Property) (leaves : List Leaf) :
    syncLeaves parent leaves = inTurn syncLeaf parent leaves := by
  induction leaves generalizing parent with
  | nil => rfl
  | cons leaf rest ih => rw [inTurn, ← ih]; rfl

private theorem syncAttributes_eq_inTurn (now : Instant) (schema : Property) (attrs : List Flag) :
    syncAttributes now schema attrs = inTurn (syncAttribute now) schema attrs := by
  induction attrs generalizing schema with
  | nil => rfl
  | cons attr rest ih => rw [inTurn, ← ih]; rfl

private theorem syncLeaf_cases (parent : Property) (leaf : Leaf) :
    let path := BrowseName.join parent.name leaf.name
    syncLeaf parent leaf = (parent, .none) ∨
      parent.hasChild leaf.name = false ∧ syncLeaf parent leaf =
        (parent.addChild (.leaf leaf.name leaf.default), { Changes.none with added := [path] }) ∨
      parent.hasChild leaf.name = true ∧ syncLeaf parent leaf =
        (parent.removeChild leaf.name, { Changes.none with removed := [path] }) := by
  intro path
  unfold syncLeaf
  cases leaf.visible <;> cases parent.hasChild leaf.name
  · exact .inl rfl
  · exact .inr (.inr ⟨rfl, rfl⟩)
  · exact .inr (.inl ⟨rfl, rfl⟩)
  · exact .inl rfl

theorem namedAs_addChild_ne (parent child : Property) :
    namedAs child.name (parent.addChild child).children ≠ namedAs child.name parent.children := by
  intro same
  rw [addChild, namedAs_append] at same
  exact absurd (congrArg List.length same) (by simp [namedAs])

theorem namedAs_removeChild_ne {parent : Property} {name : String} (known : parent.hasChild name) :
    namedAs name (parent.removeChild name).children ≠ namedAs name parent.children := by
  intro same
  rw [removeChild, namedAs_removeNamed, if_pos rfl] at same
  rw [hasChild, child?, findNamed_eq_head?] at known
  cases siblings : namedAs name parent.children with
  | nil => simp [siblings] at known
  | cons first later =>
      rw [siblings] at same
      exact absurd (congrArg List.length same) (by simp)

theorem namedAs_addChild_of_ne {parent child : Property} {name : String}
    (different : child.name ≠ name) :
    namedAs name (parent.addChild child).children = namedAs name parent.children := by
  rw [addChild, namedAs_append, namedAs_cons, if_neg different]
  exact List.append_nil _

private theorem syncLeaf_candid (leaf : Leaf) : Candid Leaf.name syncLeaf leaf where
  elsewhere parent other different := by
    rcases syncLeaf_cases parent leaf with idle | ⟨_, added⟩ | ⟨_, removed⟩
    · rw [idle]
    · rw [added]
      exact namedAs_addChild_of_ne different
    · rw [removed]
      exact (namedAs_removeNamed ..).trans (if_neg different)
  here parent := by
    rcases syncLeaf_cases parent leaf with idle | ⟨_, added⟩ | ⟨known, removed⟩
    · exact .inl idle
    · rw [added]
      exact .inr ⟨namedAs_addChild_ne parent (.leaf leaf.name leaf.default), rfl⟩
    · rw [removed]
      exact .inr ⟨namedAs_removeChild_ne known, rfl⟩

private theorem syncLeaves_cases {leaves : List Leaf} (distinct : (leaves.map (·.name)).Nodup)
    (parent : Property) : syncLeaves parent leaves = (parent, .none) ∨
      (syncLeaves parent leaves).1 ≠ parent ∧ (syncLeaves parent leaves).2.isEmpty = false := by
  rw [syncLeaves_eq_inTurn]
  exact Candid.inTurn_cases (fun leaf _ => syncLeaf_candid leaf) distinct parent

private theorem syncLeaves_name (parent : Property) (leaves : List Leaf) :
    (syncLeaves parent leaves).1.name = parent.name := by
  rw [syncLeaves_frame]

private theorem syncAttribute_cases (now : Instant) (schema : Property) (attr : Flag) :
    let leaves := Leaf.ofAttribute now attr
    let fresh := syncLeaves (.object attr.name) leaves
    syncAttribute now schema attr = (schema, .none) ∨
      syncAttribute now schema attr =
        (schema.addChild fresh.1, { Changes.none with added := [attr.name] } ++ fresh.2) ∨
      schema.hasChild attr.name = true ∧ syncAttribute now schema attr =
        (schema.removeChild attr.name, { Changes.none with removed := [attr.name] }) ∨
      ∃ parent, schema.child? attr.name = some parent ∧ syncAttribute now schema attr =
        (schema.updateChild attr.name fun _ => (syncLeaves parent leaves).1,
          (syncLeaves parent leaves).2) := by
  intro leaves fresh
  unfold syncAttribute hasChild
  cases attr.enabled <;> cases schema.child? attr.name
  · exact .inl rfl
  · exact .inr (.inr (.inl ⟨rfl, rfl⟩))
  · exact .inr (.inl rfl)
  · exact .inr (.inr (.inr ⟨_, rfl, rfl⟩))

private theorem syncAttribute_candid (now : Instant) {attr : Flag}
    (criteria : (attr.children.map (·.name)).Nodup) :
    Candid Flag.name (syncAttribute now) attr where
  elsewhere schema other different := by
    rcases syncAttribute_cases now schema attr with idle | added | ⟨_, removed⟩ |
      ⟨parent, found, synced⟩
    · rw [idle]
    · rw [added]
      refine namedAs_addChild_of_ne ?_
      rwa [syncLeaves_name]
    · rw [removed]
      exact (namedAs_removeNamed ..).trans (if_neg different)
    · rw [synced]
      refine (namedAs_updateNamed (fun _ _ => ?_) ..).trans (if_neg different)
      rw [syncLeaves_name, findNamed_name found]
  here schema := by
    rcases syncAttribute_cases now schema attr with idle | added | ⟨known, removed⟩ |
      ⟨parent, found, synced⟩
    · exact .inl idle
    · rw [added]
      refine .inr ⟨?_, Changes.isEmpty_append_eq_false (.inl rfl)⟩
      have changed := namedAs_addChild_ne schema
        (syncLeaves (.object attr.name) (Leaf.ofAttribute now attr)).1
      rwa [syncLeaves_name] at changed
    · rw [removed]
      exact .inr ⟨namedAs_removeChild_ne known, rfl⟩
    · rw [synced]
      rcases syncLeaves_cases (Leaf.ofAttribute_distinct now criteria) parent with
        nothing | ⟨changed, told⟩
      · rw [nothing]
        exact .inl (by rw [updateChild_of_found found])
      · refine .inr ⟨fun same => changed ?_, told⟩
        have named := findNamed_name found
        rw [child?, findNamed_eq_head?] at found
        obtain ⟨later, siblings⟩ := List.head?_eq_some_iff.mp found
        rw [updateChild, namedAs_updateNamed (fun _ _ => by rw [syncLeaves_name, named]),
          if_pos rfl, siblings] at same
        exact (List.cons.inj same).1

/-- The schema pass reports nothing exactly if it leaves the schema as it was. -/
theorem syncAttributes_isEmpty_iff {configuration : Configuration}
    (siblings : configuration.Distinct) (now : Instant) (schema : Property) :
    (syncAttributes now schema configuration.attributes).2.isEmpty ↔
      (syncAttributes now schema configuration.attributes).1 = schema := by
  rw [syncAttributes_eq_inTurn]
  rcases Candid.inTurn_cases
    (fun attr member => syncAttribute_candid now (siblings.criteria attr member))
    siblings.attributes schema with nothing | ⟨changed, told⟩
  · simp [nothing, Changes.isEmpty, Changes.none]
  · simp [changed, told]

end Schema

namespace Instance

theorem pruned_paths_append (first second : Pruned) :
    (first ++ second).paths = first.paths ++ second.paths :=
  rfl

mutual

/-- Pruning that reports no path takes nothing away. -/
theorem prune_of_paths (schema : Property) (path : String) :
    ∀ property : Property, (pruneList schema path property.children).2.paths = [] →
      pruneList schema path property.children = (property.children, .none)
  | ⟨_, _, _, children⟩, nothing => pruneList_of_paths schema path children nothing

theorem pruneList_of_paths (schema : Property) (path : String) :
    ∀ children : List Property, (pruneList schema path children).2.paths = [] →
      pruneList schema path children = (children, .none)
  | [], _ => rfl
  | child :: rest, nothing => by
      rw [pruneList_cons] at nothing ⊢
      cases found : counterpart? schema child with
      | none => simp [found, pruned_paths_append] at nothing
      | some counterpart =>
          simp only [found, pruned_paths_append, List.append_eq_nil_iff] at nothing ⊢
          obtain ⟨below, others⟩ := nothing
          rw [prune_of_paths counterpart _ child below, pruneList_of_paths schema path rest others]
          obtain ⟨_, _, _, _⟩ := child
          rfl

end

mutual

/-- A schema that adds no node to a property finds it as it wants it. -/
theorem complete_of_added (path : String) :
    ∀ (schema property : Property) (retained : Table PropertyValue),
      (complete path schema property retained).changes.added = [] →
      complete path schema property retained = { whole := property, retained, changes := .none }
  | ⟨_, _, _, wanted⟩, ⟨_, _, _, children⟩, retained, nothing => by
      rw [complete, completeList_of_added path wanted children retained nothing]

theorem completeList_of_added (path : String) :
    ∀ (wanted children : List Property) (retained : Table PropertyValue),
      (completeList path wanted children retained).changes.added = [] →
      completeList path wanted children retained =
        { whole := children, retained, changes := .none }
  | [], _, _, _ => rfl
  | property :: rest, children, retained, nothing => by
      cases found : findNamed property.name children with
      | none =>
          simp only [completeList, found, Changes.append_added] at nothing
          simp at nothing
      | some child =>
          simp only [completeList, found, Changes.append_added, List.append_eq_nil_iff]
            at nothing ⊢
          obtain ⟨below, others⟩ := nothing
          rw [complete_of_added _ property child retained below] at others ⊢
          simp only [updateNamed_of_found found] at others ⊢
          rw [completeList_of_added path rest children retained others]
          rfl

end

mutual

/-- Completing never loses a node, and every node that it adds is one more. -/
theorem complete_grows (path : String) :
    ∀ (schema property : Property) (retained : Table PropertyValue),
      let completed := complete path schema property retained
      (nodesList path property.children).length + completed.changes.added.length ≤
        (nodesList path completed.whole.children).length
  | ⟨_, _, _, wanted⟩, ⟨_, _, _, children⟩, retained =>
      completeList_grows path wanted children retained

theorem completeList_grows (path : String) :
    ∀ (wanted children : List Property) (retained : Table PropertyValue),
      let completed := completeList path wanted children retained
      (nodesList path children).length + completed.changes.added.length ≤
        (nodesList path completed.whole).length
  | [], _, _ => Nat.le_refl _
  | property :: rest, children, retained => by
      cases found : findNamed property.name children with
      | none =>
          simp only [completeList, found, Changes.append_added, List.length_append,
            List.length_singleton]
          generalize adopt (BrowseName.join path property.name) property retained = fresh
          have others := completeList_grows path rest (children ++ [fresh.copy]) fresh.retained
          simp only [nodesList_append, List.length_append, nodesList, nodes_eq, List.length_cons]
            at others
          omega
      | some child =>
          have named := findNamed_name found
          have inner := complete_grows (BrowseName.join path property.name) property child retained
          have frame := complete_frame (BrowseName.join path property.name) property child retained
          simp only [completeList, found, Changes.append_added, List.length_append]
          generalize complete (BrowseName.join path property.name) property child retained =
            completed at inner frame ⊢
          have others := completeList_grows path rest
            (updateNamed property.name (fun _ => completed.whole) children) completed.retained
          have wholeNamed : completed.whole.name = property.name := by rw [frame, named]
          obtain ⟨before, behind, rfl, absent⟩ := findNamed_split found
          rw [updateNamed_split _ absent named] at others ⊢
          simp only [nodesList_append, nodesList, nodes_eq, List.length_append, List.length_cons,
            wholeNamed, named] at inner others ⊢
          omega

end

variable {schema : Property} {model : Instance}

private theorem paths_of_removed (nothing : (model.update schema).2.removed = []) :
    (pruneList schema "" model.root.children).2.paths = [] := by
  simp only [update, prune_eq, Changes.append_removed, List.append_eq_nil_iff] at nothing
  exact nothing.1

/-- Where nothing is pruned the pass only completes. -/
theorem update_of_paths (nothing : (pruneList schema "" model.root.children).2.paths = []) :
    let completed := complete "" schema model.root model.retained
    model.update schema =
      ({ root := completed.whole, retained := completed.retained },
        Changes.none ++ completed.changes) := by
  have pruned := prune_eq schema "" model.root
  rw [pruneList_of_paths schema "" model.root.children nothing] at pruned
  obtain ⟨⟨name, type, value, children⟩, retained⟩ := model
  simp only [update, pruned]
  rfl

/-- The instance pass reports nothing exactly if it changes nothing and removes nothing. -/
theorem update_isEmpty_iff :
    (model.update schema).2.isEmpty ↔
      (model.update schema).1 = model ∧ (model.update schema).2.removed = [] := by
  constructor
  · intro nothing
    have removed := (Changes.isEmpty_iff.mp nothing).2.1
    have completes := update_of_paths (paths_of_removed removed)
    rw [completes] at nothing
    have added := (Changes.isEmpty_iff.mp (Changes.isEmpty_append.mp nothing).2).1
    refine ⟨?_, removed⟩
    rw [completes, complete_of_added "" schema model.root model.retained added]
  · rintro ⟨same, removed⟩
    have completes := update_of_paths (paths_of_removed removed)
    rw [completes] at same ⊢
    have grows := complete_grows "" schema model.root model.retained
    have whole : (complete "" schema model.root model.retained).whole = model.root :=
      congrArg (·.root) same
    have added : (complete "" schema model.root model.retained).changes.added = [] := by
      dsimp only at grows
      rw [whole] at grows
      exact List.length_eq_zero_iff.mp (by omega)
    rw [complete_of_added "" schema model.root model.retained added]
    rfl

/-- Where siblings of the schema have different names, the instance pass reports nothing exactly if
it changes nothing. -/
theorem update_isEmpty_iff_of_unique (unique : schema.Unique) :
    (model.update schema).2.isEmpty ↔ (model.update schema).1 = model := by
  rw [update_isEmpty_iff, and_iff_left_iff_imp]
  intro same
  have mirrors := update_mirrors unique model
  rw [same] at mirrors
  rw [update_of_mirrors unique mirrors]
  rfl

end Instance

/-- An empty report means that nothing has changed, and the report of the schema is empty exactly if
the schema has not changed.  Conversely the report is empty if nothing has changed and no node was
removed; where siblings of the schema have different names, an unchanged edit model is enough. -/
theorem report_isEmpty_iff {configuration : Configuration} (siblings : configuration.Distinct)
    {now : Instant} {schema : Property} {model : Instance} {after : Reconciled}
    (accepted : reconcile now configuration schema model = .ok after) :
    (after.report.schema.isEmpty ↔ after.schema = schema) ∧
      (after.report.isEmpty ↔
        after.schema = schema ∧ after.model = model ∧ after.report.stored.removed = []) ∧
      (schema.Unique → (after.report.isEmpty ↔ after.schema = schema ∧ after.model = model)) := by
  rw [reconcile_eq] at accepted
  cases usable : configuration.rangeGates with
  | error error => simp [usable, Except.map] at accepted
  | ok gates =>
      rw [usable] at accepted
      obtain rfl := Except.ok.inj accepted
      have ofSchema := Schema.syncAttributes_isEmpty_iff siblings now schema
      refine ⟨ofSchema, ?_, fun unique => ?_⟩
      · rw [ReconcileReport.isEmpty, Bool.and_eq_true]
        exact and_congr ofSchema Instance.update_isEmpty_iff
      · rw [ReconcileReport.isEmpty, Bool.and_eq_true]
        have synced := Schema.unique_syncAttributes unique now siblings
        exact and_congr ofSchema (Instance.update_isEmpty_iff_of_unique synced)

/-- A node of another type is removed and added again, and of two equal siblings only one is
completed. -/
theorem report_isEmpty_iff_mistyped :
    let schema : Property :=
      { object "Schema" with
        children := [{ object "Stale" with children := [leaf "Seen" (.boolean false)] }] }
    let model : Instance :=
      { root :=
          { object "Instance" with
            children :=
              [{ object "Stale" with children := [leaf "Seen" (.uint16 7)] }, object "Stale"] }
        retained := .empty }
    Configuration.builtin.Distinct ∧ schema.Unique ∧
      ∃ after, reconcile .unixEpoch .builtin schema model = .ok after ∧
        "Stale/Seen" ∈ after.report.stored.removed ∧ "Stale/Seen" ∈ after.report.stored.added ∧
        ¬ (after.schema = schema ∧ after.model = model) := by
  intro schema model
  have siblings := Configuration.builtin_wellFormed.siblings
  have unique : schema.Unique := by decide +kernel
  have usable : Configuration.builtin.rangeGates = .ok ⟨⟨true, true⟩, true⟩ := rfl
  have accepted := reconcile_eq .unixEpoch .builtin schema model
  rw [usable] at accepted
  refine ⟨siblings, unique, _, accepted, by decide +kernel, by decide +kernel, ?_⟩
  rw [← (report_isEmpty_iff siblings accepted).2.2 unique]
  decide +kernel

/-- A schema in which two siblings share a name: pruning goes by the first of them, completing by
both, so that a node is removed and added again with its value. -/
theorem not_report_isEmpty_iff_equalSiblings :
    let configuration : Configuration :=
      { attributes := [.single "EventTime" false, .ofChildren "Severity" false ["Severity"]] }
    let schema : Property :=
      { object "Type" with
        children :=
          [object "Priority",
            { object "Priority" with children := [leaf "Urgent" (.boolean false)] }] }
    let model : Instance :=
      { root :=
          { object "Instance" with
            children :=
              [{ object "Priority" with children := [leaf "Urgent" (.boolean true)] }] }
        retained := .empty }
    configuration.Distinct ∧ ∃ after, reconcile .unixEpoch configuration schema model = .ok after ∧
      ¬ (after.report.isEmpty ↔ after.schema = schema ∧ after.model = model) := by
  intro configuration schema model
  have usable : configuration.rangeGates = .ok ⟨⟨false, false⟩, false⟩ := rfl
  have accepted := reconcile_eq .unixEpoch configuration schema model
  rw [usable] at accepted
  exact ⟨by decide +kernel, _, accepted, by decide +kernel⟩

end AlarmView
