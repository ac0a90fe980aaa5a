import AlarmView.Proofs.EditModel.Mirroring
import AlarmView.Proofs.EditModel.Upkeep

/-!
# Settled edit models

After the schema pass the schema has exactly what the configuration offers, and neither pass finds
anything left to do.
-/

namespace AlarmView

open BrowseName Property

def Leaf.namesOf (attr criterion : String) : List String :=
  if isRangeValue criterion then []
  else
    criterion ::
      if attr = eventTime then
        if criterion = fromEventTime then [fromEventTimeValue]
        else if criterion = toEventTime then [toEventTimeValue]
        else []
      else if attr = BrowseName.severity ∧ criterion = BrowseName.severity then
        [fromSeverity, toSeverity]
      else []

theorem Leaf.mem_namesOf {attr criterion name : String} :
    name ∈ namesOf attr criterion ↔ isRangeValue criterion = false ∧
      (name = criterion ∨
        attr = eventTime ∧ criterion = fromEventTime ∧ name = fromEventTimeValue ∨
        attr = eventTime ∧ criterion = toEventTime ∧ name = toEventTimeValue ∨
        attr = severity ∧ criterion = severity ∧ (name = fromSeverity ∨ name = toSeverity)) := by
  have apart : fromEventTime ≠ toEventTime := by decide
  have other : eventTime ≠ severity := by decide
  unfold namesOf
  cases isRangeValue criterion with
  | true => simp
  | false =>
      rw [if_neg Bool.false_ne_true, List.mem_cons]
      rw [eq_self, true_and]
      refine or_congr_right ?_
      split_ifs with time lower upper limits
      · simp [time, lower, apart, other]
      · simp [time, upper, apart.symm, other]
      · simp [time, lower, upper, other]
      · simp [limits, other.symm]
      · simp_all

theorem Leaf.eq_of_mem_namesOf {attr criterion name : String}
    (called : name ∈ namesOf attr criterion) (free : isRangeValue name = false) :
    name = criterion := by
  obtain ⟨_, own | lower | upper | limit⟩ := mem_namesOf.mp called
  · exact own
  · obtain ⟨_, _, rfl⟩ := lower
    exact absurd free (by decide)
  · obtain ⟨_, _, rfl⟩ := upper
    exact absurd free (by decide)
  · obtain ⟨_, _, rfl | rfl⟩ := limit
    · exact absurd free (by decide)
    · exact absurd free (by decide)

private theorem Leaf.ofCriterion_names (now : Instant) (attr : String) (criterion : Flag) :
    (ofCriterion now attr criterion).map (fun leaf => (leaf.name, leaf.visible)) =
      (namesOf attr criterion.name).map (·, criterion.enabled) := by
  unfold ofCriterion namesOf
  split
  · rfl
  · unfold ofRange
    split
    · split
      · rfl
      · split <;> rfl
    · split <;> rfl

namespace Flag

/-- Whether the flag of an attribute has a criterion that calls for a leaf. -/
def Lists (flag : Flag) (name : String) : Prop :=
  ∃ criterion ∈ flag.children, name ∈ Leaf.namesOf flag.name criterion.name

/-- Whether the flag of an attribute has an enabled criterion that calls for a leaf. -/
def Offers (flag : Flag) (name : String) : Prop :=
  ∃ criterion ∈ flag.children, criterion.enabled ∧ name ∈ Leaf.namesOf flag.name criterion.name

theorem Extends.lists {base flag : Flag} (larger : Extends base flag) {name : String}
    (listed : base.Lists name) : flag.Lists name := by
  obtain ⟨criterion, member, called⟩ := listed
  have known : criterion.name ∈ base.children.map (·.name) := List.mem_map_of_mem member
  obtain ⟨other, otherMember, same⟩ := List.mem_map.mp (larger.criteria.subset known)
  exact ⟨other, otherMember, by rw [larger.name, same]; exact called⟩

theorem mem_ofAttribute (now : Instant) {flag : Flag} {name : String} {visible : Bool} :
    (∃ leaf ∈ Leaf.ofAttribute now flag, leaf.name = name ∧ leaf.visible = visible) ↔
      ∃ criterion ∈ flag.children, criterion.enabled = visible ∧
        name ∈ Leaf.namesOf flag.name criterion.name := by
  have atCriterion (criterion : Flag) :
      (∃ leaf ∈ Leaf.ofCriterion now flag.name criterion,
        leaf.name = name ∧ leaf.visible = visible) ↔
      criterion.enabled = visible ∧ name ∈ Leaf.namesOf flag.name criterion.name := by
    have pairs : (name, visible) ∈
          (Leaf.ofCriterion now flag.name criterion).map (fun leaf => (leaf.name, leaf.visible)) ↔
        (name, visible) ∈
          (Leaf.namesOf flag.name criterion.name).map (·, criterion.enabled) := by
      rw [Leaf.ofCriterion_names]
    simpa [and_comm] using pairs
  constructor
  · intro given
    obtain ⟨leaf, member, same⟩ := given
    obtain ⟨criterion, listed, leafMember⟩ := List.mem_flatMap.mp member
    exact ⟨criterion, listed, (atCriterion criterion).mp ⟨leaf, leafMember, same⟩⟩
  · intro given
    obtain ⟨criterion, listed, called⟩ := given
    obtain ⟨leaf, leafMember, same⟩ := (atCriterion criterion).mpr called
    exact ⟨leaf, List.mem_flatMap.mpr ⟨criterion, listed, leafMember⟩, same⟩

end Flag

namespace Configuration

def Lists (configuration : Configuration) (attr name : String) : Prop :=
  ∃ flag ∈ configuration.attributes, flag.name = attr ∧ flag.Lists name

/-- Whether some enabled attribute of a configuration has an enabled criterion that calls for a
leaf. -/
def Offers (configuration : Configuration) (attr name : String) : Prop :=
  ∃ flag ∈ configuration.attributes, flag.name = attr ∧ flag.enabled ∧ flag.Offers name

theorem Extends.lists {base configuration : Configuration} (larger : base.Extends configuration)
    {attr name : String} (listed : base.Lists attr name) : configuration.Lists attr name := by
  obtain ⟨flag, member, named, called⟩ := listed
  obtain ⟨other, otherMember, extended⟩ := larger.larger_of_mem member
  exact ⟨other, otherMember, extended.name.trans named, extended.lists called⟩

private theorem lists_of_mem {configuration : Configuration} (distinct : configuration.Distinct)
    {flag : Flag} (member : flag ∈ configuration.attributes) {name : String} :
    configuration.Lists flag.name name ↔ flag.Lists name := by
  constructor
  · intro given
    obtain ⟨other, otherMember, named, listed⟩ := given
    exact List.inj_on_of_nodup_map distinct.attributes otherMember member named ▸ listed
  · exact fun listed => ⟨flag, member, rfl, listed⟩

private theorem offers_of_mem {configuration : Configuration} (distinct : configuration.Distinct)
    {flag : Flag} (member : flag ∈ configuration.attributes) {name : String} :
    configuration.Offers flag.name name ↔ flag.enabled ∧ flag.Offers name := by
  constructor
  · intro given
    obtain ⟨other, otherMember, named, offered⟩ := given
    exact List.inj_on_of_nodup_map distinct.attributes otherMember member named ▸ offered
  · exact fun offered => ⟨flag, member, rfl, offered⟩

theorem offers_iff {configuration : Configuration} (siblings : configuration.Distinct)
    {attr name : String} :
    configuration.Offers attr name ↔
      ∃ criterion, configuration.Enables attr criterion ∧ name ∈ Leaf.namesOf attr criterion := by
  simp only [enables_iff siblings]
  constructor
  · intro offered
    obtain ⟨flag, member, rfl, enabled, criterion, listed, shown, called⟩ := offered
    exact ⟨criterion.name, ⟨flag, member, rfl, enabled, criterion, listed, rfl, shown⟩, called⟩
  · intro given
    obtain ⟨_, ⟨flag, member, rfl, enabled, criterion, listed, rfl, shown⟩, called⟩ := given
    exact ⟨flag, member, rfl, enabled, criterion, listed, shown, called⟩

theorem Offers.lists {configuration : Configuration} {attr name : String}
    (offered : configuration.Offers attr name) : configuration.Lists attr name := by
  obtain ⟨flag, member, named, _, criterion, listed, _, called⟩ := offered
  exact ⟨flag, member, named, criterion, listed, called⟩

end Configuration

namespace Schema

variable {now : Instant} {flag : Flag} {stored : Option Property}

/-- A synchronized attribute has a leaf of the configuration exactly if it is visible. -/
theorem synced_hasChild
    (distinct : ∀ property, stored = some property → (names property.children).Nodup)
    (criteria : (flag.children.map (·.name)).Nodup) {later : Instant} {leaf : Leaf}
    (member : leaf ∈ Leaf.ofAttribute later flag) :
    (synced now flag stored).hasChild leaf.name = leaf.visible := by
  have leavesDistinct := Leaf.ofAttribute_distinct now criteria
  obtain ⟨same, sameMember, sameName, sameVisible⟩ :=
    (Flag.mem_ofAttribute now).mpr
      ((Flag.mem_ofAttribute later).mp ⟨leaf, member, rfl, rfl⟩)
  have found := find?_of_mem Leaf.name leavesDistinct sameMember
  rw [sameName] at found
  rw [hasChild, synced, syncLeaves_child? (distinct_start distinct) leavesDistinct, found,
    ← sameVisible]
  cases shown : same.visible <;> simp [shown]

private theorem synced_child?_of_unlisted
    (distinct : ∀ property, stored = some property → (names property.children).Nodup)
    (criteria : (flag.children.map (·.name)).Nodup) {name : String} (unlisted : ¬ flag.Lists name) :
    (synced now flag stored).child? name = stored.bind (·.child? name) := by
  have absent : (Leaf.ofAttribute now flag).find? (·.name == name) = none := by
    refine List.find?_eq_none.mpr fun leaf member named => unlisted ?_
    obtain ⟨criterion, listed, _, called⟩ := (Flag.mem_ofAttribute now).mp ⟨leaf, member, rfl, rfl⟩
    exact ⟨criterion, listed, by rwa [beq_iff_eq.mp named] at called⟩
  rw [synced, syncLeaves_child? (distinct_start distinct) (Leaf.ofAttribute_distinct now criteria),
    absent]
  cases stored <;> rfl

/-- An attribute of the schema has after its synchronization what the configuration offers, if it
had nothing that the configuration does not list. -/
theorem synced_offers
    (distinct : ∀ property, stored = some property → (names property.children).Nodup)
    (criteria : (flag.children.map (·.name)).Nodup) {name : String}
    (listed : ∀ property, stored = some property → property.child? name ≠ none → flag.Lists name) :
    (synced now flag stored).child? name ≠ none ↔ flag.Offers name := by
  by_cases known : flag.Lists name
  · obtain ⟨criterion, member, called⟩ := known
    obtain ⟨leaf, leafMember, rfl, shown⟩ :=
      (Flag.mem_ofAttribute now).mpr ⟨criterion, member, rfl, called⟩
    have child : (synced now flag stored).hasChild leaf.name = leaf.visible :=
      synced_hasChild distinct criteria leafMember
    have present : (synced now flag stored).child? leaf.name ≠ none ↔ leaf.visible = true := by
      rw [← child, hasChild, Option.isSome_iff_ne_none]
    rw [present]
    constructor
    · intro visible
      exact ⟨criterion, member, shown.symm.trans visible, called⟩
    · intro given
      obtain ⟨other, otherMember, enabled, otherCalled⟩ := given
      obtain ⟨twin, twinMember, twinName, twinVisible⟩ :=
        (Flag.mem_ofAttribute now).mpr ⟨other, otherMember, enabled, otherCalled⟩
      have same : twin = leaf :=
        List.inj_on_of_nodup_map (Leaf.ofAttribute_distinct now criteria) twinMember leafMember
          twinName
      exact same ▸ twinVisible
  · have absent : stored.bind (·.child? name) = none := by
      cases stored with
      | none => rfl
      | some property =>
          by_contra present
          exact known (listed property rfl present)
    have notOffered : ¬ flag.Offers name := by
      intro offered
      obtain ⟨criterion, member, _, called⟩ := offered
      exact known ⟨criterion, member, called⟩
    simp [synced_child?_of_unlisted distinct criteria known, absent, notOffered]

theorem syncAttributes_child?_of_mem {schema : Property} (now : Instant)
    (distinct : (names schema.children).Nodup)
    {configuration : Configuration} (siblings : configuration.Distinct)
    (member : flag ∈ configuration.attributes) :
    (syncAttributes now schema configuration.attributes).1.child? flag.name =
      if flag.enabled then some (synced now flag (schema.child? flag.name)) else none := by
  have found : configuration.attributes.find? (·.name == flag.name) = some flag :=
    Configuration.attribute?_of_mem siblings.attributes member
  rw [syncAttributes_child? distinct now siblings.attributes, found]

/-- Whether the schema pass has nothing to do. -/
def Settled (flags : List Flag) (schema : Property) : Prop :=
  ∀ flag ∈ flags,
    if flag.enabled then
      ∃ parent, schema.child? flag.name = some parent ∧
        ∀ now, ∀ leaf ∈ Leaf.ofAttribute now flag, parent.hasChild leaf.name = leaf.visible
    else schema.child? flag.name = none

private theorem syncLeaves_of_settled {parent : Property} {leaves : List Leaf}
    (settled : ∀ leaf ∈ leaves, parent.hasChild leaf.name = leaf.visible) :
    syncLeaves parent leaves = (parent, .none) := by
  induction leaves with
  | nil => rfl
  | cons leaf rest ih =>
      have here := settled leaf List.mem_cons_self
      have alone : syncLeaf parent leaf = (parent, .none) := by
        simp only [syncLeaf, here]
        cases leaf.visible <;> rfl
      rw [syncLeaves, alone]
      simp only [ih fun other member => settled other (List.mem_cons_of_mem _ member)]
      rfl

private theorem syncAttributes_of_settled {flags : List Flag} {schema : Property}
    (settled : Settled flags schema) (now : Instant) :
    syncAttributes now schema flags = (schema, .none) := by
  induction flags with
  | nil => rfl
  | cons flag rest ih =>
      have here := settled flag List.mem_cons_self
      have alone : syncAttribute now schema flag = (schema, .none) := by
        cases enabled : flag.enabled with
        | false =>
            have absent : schema.child? flag.name = none := by simpa [enabled] using here
            simp only [syncAttribute, enabled, absent]
        | true =>
            rw [if_pos enabled] at here
            obtain ⟨parent, found, leaves⟩ := here
            simp only [syncAttribute, enabled, found, syncLeaves_of_settled (leaves now),
              updateChild_of_found found]
      rw [syncAttributes, alone]
      simp only [ih fun other member => settled other (List.mem_cons_of_mem _ member)]
      rfl

theorem settled_syncAttributes {schema : Property} (unique : schema.Unique)
    {configuration : Configuration} (siblings : configuration.Distinct) (now : Instant) :
    Settled configuration.attributes (syncAttributes now schema configuration.attributes).1 := by
  obtain ⟨distinct, below⟩ := unique_iff.mp unique
  intro flag member
  have child := syncAttributes_child?_of_mem now distinct siblings member
  have parents (property : Property) (found : schema.child? flag.name = some property) :
      (names property.children).Nodup :=
    (unique_iff.mp (below property (findNamed_mem found))).1
  split
  · next enabled =>
      rw [if_pos enabled] at child
      exact ⟨_, child, fun later leaf leafMember =>
        synced_hasChild parents (siblings.criteria flag member) leafMember⟩
  · next disabled => rwa [if_neg disabled] at child

/-- After the schema pass the schema has exactly the leaves that the configuration offers, if it had
none that the configuration does not list. -/
theorem syncAttributes_offers {schema : Property} (unique : schema.Unique)
    {configuration : Configuration} (siblings : configuration.Distinct)
    (listed : ∀ attr name, schema.leafAt? attr name ≠ none → configuration.Lists attr name)
    (attr name : String) :
    (syncAttributes now schema configuration.attributes).1.leafAt? attr name ≠ none ↔
      configuration.Offers attr name := by
  obtain ⟨schemaDistinct, below⟩ := unique_iff.mp unique
  by_cases known : ∃ flag ∈ configuration.attributes, flag.name = attr
  · obtain ⟨flag, member, rfl⟩ := known
    rw [Configuration.offers_of_mem siblings member, leafAt?,
      syncAttributes_child?_of_mem now schemaDistinct siblings member]
    cases enabled : flag.enabled with
    | false => simp
    | true =>
        have distinct (property : Property) (found : schema.child? flag.name = some property) :
            (names property.children).Nodup :=
          (unique_iff.mp (below property (findNamed_mem found))).1
        have known (property : Property) (found : schema.child? flag.name = some property)
            (present : property.child? name ≠ none) : flag.Lists name := by
          refine (Configuration.lists_of_mem siblings member).mp (listed flag.name name ?_)
          rwa [leafAt?, found]
        have offers : (synced now flag (schema.child? flag.name)).child? name ≠ none ↔
            flag.Offers name := synced_offers distinct (siblings.criteria flag member) known
        simpa using offers
  · have unknown : configuration.attributes.find? (·.name == attr) = none :=
      List.find?_eq_none.mpr fun flag member named => known ⟨flag, member, by simpa using named⟩
    have unlisted : ¬ configuration.Lists attr name := by
      intro listed
      obtain ⟨flag, member, named, _⟩ := listed
      exact known ⟨flag, member, named⟩
    rw [leafAt?, syncAttributes_child? schemaDistinct now siblings.attributes, unknown]
    constructor
    · intro present
      exact absurd (listed attr name present) unlisted
    · intro offered
      exact absurd offered.lists unlisted

end Schema

namespace Instance

variable {schema root : Property}

theorem within_of_nodes (schemaShaped : schema.Shaped) (shaped : root.Shaped)
    (nodes : (nodesList "" root.children).Perm (nodesList "" schema.children)) :
    Within schema.children root.children := by
  apply Within.iff_forall.mpr
  intro attr member
  have attrShaped := shaped.attributes attr member
  have attrNode : (attr.name, PropertyType.object) ∈ nodesList "" schema.children :=
    nodes.subset (shaped.mem_nodes.mpr ⟨attr, member, .inl ⟨rfl, rfl⟩⟩)
  obtain ⟨wanted, listed, ⟨name, _⟩ | ⟨leaf, leafMember, path, _⟩⟩ :=
    schemaShaped.mem_nodes.mp attrNode
  · have wantedShaped := schemaShaped.attributes wanted listed
    refine ⟨wanted, listed, name.symm, wantedShaped.type.trans attrShaped.type.symm, ?_⟩
    apply Within.iff_forall.mpr
    intro leaf leafMember
    have leafNode : (join attr.name leaf.name, leaf.type) ∈ nodesList "" schema.children :=
      nodes.subset (shaped.mem_nodes.mpr ⟨attr, member, .inr ⟨leaf, leafMember, rfl, rfl⟩⟩)
    obtain ⟨other, otherListed, ⟨path, _⟩ | ⟨twin, twinMember, path, type⟩⟩ :=
      schemaShaped.mem_nodes.mp leafNode
    · have otherNamed := (schemaShaped.attributes other otherListed).named
      exact absurd path (join_ne attrShaped.named otherNamed _)
    · obtain ⟨sameAttr, sameLeaf⟩ :=
        join_injective attrShaped.named (schemaShaped.attributes other otherListed).named path
      have same : other = wanted :=
        List.inj_on_of_nodup_map schemaShaped.distinct otherListed listed (sameAttr.symm.trans name)
      subst same
      refine ⟨twin, twinMember, sameLeaf.symm, type.symm, ?_⟩
      rw [(attrShaped.leaves leaf leafMember).children]
      exact .nil _
  · exact absurd path.symm
      (join_ne (schemaShaped.attributes wanted listed).named attrShaped.named _)

private theorem missing_of_nodes (schemaShaped : schema.Shaped) (shaped : root.Shaped)
    (nodes : (nodesList "" root.children).Perm (nodesList "" schema.children)) :
    missing "" schema root = [] := by
  obtain ⟨distinct, below⟩ := unique_iff.mp schemaShaped.unique
  obtain ⟨rootDistinct, rootBelow⟩ := unique_iff.mp shaped.unique
  have conserved := nodesList_within "" schema.children root.children distinct
    (uniqueList_iff.mpr below) rootDistinct (uniqueList_iff.mpr rootBelow)
    (within_of_nodes schemaShaped shaped nodes)
  have sizes := conserved.length_eq
  rw [List.length_append, nodes.length_eq] at sizes
  have nothing : gapsList "" schema.children root.children = [] :=
    List.length_eq_zero_iff.mp (by omega)
  rw [missing_eq]
  cases parts : missingList "" schema.children root.children with
  | nil => rfl
  | cons part rest => simp [gapsList, parts, nodes_eq] at nothing

theorem mirrors_of_nodes (schemaShaped : schema.Shaped) (shaped : root.Shaped)
    (nodes : (nodesList "" root.children).Perm (nodesList "" schema.children)) :
    schema.Mirrors root where
  within := within_of_nodes schemaShaped shaped nodes
  complete := missing_of_nodes schemaShaped shaped nodes

end Instance

/-- An edit model that is in line with a configuration stays as it is. -/
theorem reconcile_of_settled {configuration : Configuration} {gates : RangeGates}
    (usable : configuration.rangeGates = .ok gates) {schema : Property} (unique : schema.Unique)
    (settled : Schema.Settled configuration.attributes schema) {model : Instance}
    (mirrors : schema.Mirrors model.root) (now : Instant) :
    reconcile now configuration schema model =
      .ok { schema, model, report := { schema := .none, stored := .none } } := by
  rw [reconcile_eq, usable]
  simp only [Except.map, Schema.syncAttributes_of_settled settled,
    Instance.update_of_mirrors unique mirrors]

end AlarmView
