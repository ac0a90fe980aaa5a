import AlarmView.EditModel.Schema
import AlarmView.Proofs.Visibility

/-!
# The schema pass

Each attribute and each leaf is synchronized on its own, so that with different names in the
configuration the schema has afterwards what the configuration shows and keeps what it does not
mention.
-/

namespace AlarmView

open BrowseName Property

/-- Whether a configuration shows a leaf under a path, with the value with which it comes into
being. -/
def Configuration.Shows (configuration : Configuration) (now : Instant) (path : String)
    (default : PropertyValue) : Prop :=
  ∃ attr ∈ configuration.attributes, attr.enabled ∧ ∃ leaf ∈ Leaf.ofAttribute now attr,
    leaf.visible ∧ path = join attr.name leaf.name ∧ default = leaf.default

namespace Leaf

/-- The name of the criterion that a leaf belongs to. -/
def criterionOf (name : String) : String :=
  if name = fromEventTimeValue then fromEventTime
  else if name = toEventTimeValue then toEventTime
  else if name = fromSeverity ∨ name = toSeverity then severity
  else name

/-- A leaf is the checked state of its criterion or one of the range values that it gates. -/
theorem mem_ofCriterion {now : Instant} {attr : String} {criterion : Flag} {leaf : Leaf}
    (member : leaf ∈ ofCriterion now attr criterion) :
    criterionOf leaf.name = criterion.name ∧ leaf.visible = criterion.enabled ∧
      leaf.default = defaultValue now leaf.name := by
  unfold ofCriterion at member
  split at member
  · simp at member
  · next free =>
      rcases List.mem_cons.mp member with rfl | range
      · simp only [isRangeValue, Bool.or_eq_true, beq_iff_eq, not_or] at free
        obtain ⟨⟨⟨notFrom, notTo⟩, notLower⟩, notUpper⟩ := free
        simp [criterionOf, defaultValue, notFrom, notTo, notLower, notUpper]
      · unfold ofRange at range
        split at range
        · split at range
          · next same =>
              obtain rfl := List.mem_singleton.mp range
              exact ⟨same.symm, rfl, rfl⟩
          · split at range
            · next same =>
                obtain rfl := List.mem_singleton.mp range
                exact ⟨same.symm, rfl, rfl⟩
            · simp at range
        · split at range
          · next same =>
              simp only [List.mem_cons, List.not_mem_nil, or_false] at range
              rcases range with rfl | rfl
              · exact ⟨same.2.symm, rfl, rfl⟩
              · exact ⟨same.2.symm, rfl, rfl⟩
          · simp at range

private theorem ofCriterion_distinct (now : Instant) (attr : String) (criterion : Flag) :
    ((ofCriterion now attr criterion).map (·.name)).Nodup := by
  unfold ofCriterion
  split
  · exact .nil
  · next free =>
      simp only [isRangeValue, Bool.or_eq_true, beq_iff_eq, not_or] at free
      obtain ⟨⟨⟨notFrom, notTo⟩, notLower⟩, notUpper⟩ := free
      unfold ofRange
      split
      · split
        · simp [notFrom]
        · split
          · simp [notTo]
          · simp
      · split
        · have different : fromSeverity ≠ toSeverity := by decide
          simp [notLower, notUpper, different]
        · simp

theorem ofAttribute_distinct (now : Instant) {attr : Flag}
    (distinct : (attr.children.map (·.name)).Nodup) :
    ((ofAttribute now attr).map (·.name)).Nodup := by
  rw [ofAttribute, List.map_flatMap, List.nodup_flatMap]
  refine ⟨fun criterion _ => ofCriterion_distinct now attr.name criterion, ?_⟩
  refine (List.pairwise_map.mp distinct).imp fun {first second} apart name inFirst inSecond => ?_
  obtain ⟨left, leftMember, rfl⟩ := List.mem_map.mp inFirst
  obtain ⟨right, rightMember, same⟩ := List.mem_map.mp inSecond
  have leftOwner := (mem_ofCriterion leftMember).1
  have rightOwner := (mem_ofCriterion rightMember).1
  exact apart (by rw [← leftOwner, ← rightOwner, same])

theorem ofAttribute_default {now : Instant} {attr : Flag} {leaf : Leaf}
    (member : leaf ∈ ofAttribute now attr) : leaf.default = defaultValue now leaf.name := by
  obtain ⟨criterion, _, called⟩ := List.mem_flatMap.mp member
  exact (mem_ofCriterion called).2.2

end Leaf

namespace Schema

private theorem syncLeaf_frame (parent : Property) (leaf : Leaf) :
    (syncLeaf parent leaf).1 = { parent with children := (syncLeaf parent leaf).1.children } := by
  obtain ⟨name, type, value, children⟩ := parent
  unfold syncLeaf
  cases leaf.visible <;> cases Property.hasChild _ leaf.name <;> rfl

theorem syncLeaves_frame (parent : Property) (leaves : List Leaf) :
    (syncLeaves parent leaves).1 =
      { parent with children := (syncLeaves parent leaves).1.children } := by
  induction leaves generalizing parent with
  | nil => obtain ⟨name, type, value, children⟩ := parent; rfl
  | cons leaf rest ih =>
      have step : (syncLeaves parent (leaf :: rest)).1 =
          (syncLeaves (syncLeaf parent leaf).1 rest).1 := rfl
      rw [step, ih, syncLeaf_frame parent leaf]

theorem syncLeaf_distinct {parent : Property} (distinct : (names parent.children).Nodup)
    (leaf : Leaf) : (names (syncLeaf parent leaf).1.children).Nodup := by
  unfold syncLeaf
  cases leaf.visible with
  | false =>
      cases parent.hasChild leaf.name with
      | false => exact distinct
      | true => exact distinct_removeChild distinct leaf.name
  | true =>
      cases known : parent.hasChild leaf.name with
      | true => exact distinct
      | false => exact distinct_addChild distinct (hasChild_eq_false.mp known)

/-- The leaf is there exactly if it is visible, and no other child is touched. -/
theorem syncLeaf_child? {parent : Property} (distinct : (names parent.children).Nodup)
    (leaf : Leaf) (name : String) :
    (syncLeaf parent leaf).1.child? name =
      if leaf.name = name then
        if leaf.visible then some ((parent.child? name).getD (.leaf leaf.name leaf.default))
        else none
      else parent.child? name := by
  have known : parent.hasChild leaf.name = (parent.child? leaf.name).isSome := rfl
  unfold syncLeaf
  rw [known]
  by_cases here : leaf.name = name
  · subst here
    cases leaf.visible <;> cases found : parent.child? leaf.name <;>
      simp [found, child?_addChild, child?_removeChild distinct, Property.leaf]
  · have other : ¬ name = leaf.name := Ne.symm here
    cases leaf.visible <;> cases parent.child? leaf.name <;>
      simp [child?_addChild, child?_removeChild distinct, Property.leaf, here, other]

theorem syncLeaves_distinct {parent : Property} (distinct : (names parent.children).Nodup)
    (leaves : List Leaf) : (names (syncLeaves parent leaves).1.children).Nodup := by
  induction leaves generalizing parent with
  | nil => exact distinct
  | cons leaf rest ih => exact ih (syncLeaf_distinct distinct leaf)

theorem syncLeaves_child? {parent : Property} (distinct : (names parent.children).Nodup)
    {leaves : List Leaf} (leavesDistinct : (leaves.map (·.name)).Nodup) (name : String) :
    (syncLeaves parent leaves).1.child? name =
      match leaves.find? (·.name == name) with
      | some leaf =>
          if leaf.visible then some ((parent.child? name).getD (.leaf leaf.name leaf.default))
          else none
      | none => parent.child? name := by
  induction leaves generalizing parent with
  | nil => rfl
  | cons leaf rest ih =>
      obtain ⟨absent, restDistinct⟩ := List.nodup_cons.mp leavesDistinct
      have step : (syncLeaves parent (leaf :: rest)).1 =
          (syncLeaves (syncLeaf parent leaf).1 rest).1 := rfl
      rw [step, ih (syncLeaf_distinct distinct leaf) restDistinct,
        syncLeaf_child? distinct leaf name]
      by_cases here : leaf.name = name
      · subst here
        simp [find?_of_notMem Leaf.name absent]
      · have skipped : (leaf.name == name) = false := beq_eq_false_iff_ne.mpr here
        simp [skipped, here]

/-- The property of an enabled attribute, made from the one that the schema had. -/
def synced (now : Instant) (attr : Flag) (stored : Option Property) : Property :=
  (syncLeaves (stored.getD (.object attr.name)) (Leaf.ofAttribute now attr)).1

theorem synced_name {now : Instant} {attr : Flag} {schema : Property} :
    (synced now attr (schema.child? attr.name)).name = attr.name := by
  rw [synced, syncLeaves_frame]
  cases found : schema.child? attr.name with
  | none => rfl
  | some property =>
      have named : property.name = attr.name := findNamed_name found
      exact named

theorem syncAttribute_enabled {now : Instant} {schema : Property} {attr : Flag}
    (enabled : attr.enabled) :
    (syncAttribute now schema attr).1 =
      if schema.hasChild attr.name then
        schema.updateChild attr.name fun _ => synced now attr (schema.child? attr.name)
      else schema.addChild (synced now attr (schema.child? attr.name)) := by
  unfold syncAttribute hasChild
  rw [enabled]
  cases schema.child? attr.name <;> rfl

theorem syncAttribute_disabled {now : Instant} {schema : Property} {attr : Flag}
    (disabled : attr.enabled = false) :
    (syncAttribute now schema attr).1 =
      if schema.hasChild attr.name then schema.removeChild attr.name else schema := by
  unfold syncAttribute hasChild
  rw [disabled]
  cases schema.child? attr.name <;> rfl

theorem syncAttribute_distinct {schema : Property} (distinct : (names schema.children).Nodup)
    (now : Instant) (attr : Flag) : (names (syncAttribute now schema attr).1.children).Nodup := by
  cases enabled : attr.enabled with
  | false =>
      rw [syncAttribute_disabled enabled]
      split
      · exact distinct_removeChild distinct attr.name
      · exact distinct
  | true =>
      rw [syncAttribute_enabled enabled]
      split
      · rw [updateChild, names_updateNamed fun _ _ => synced_name]
        exact distinct
      · next unknown =>
          apply distinct_addChild distinct
          rw [synced_name]
          exact hasChild_eq_false.mp (by simpa using unknown)

/-- The attribute is there exactly if it is enabled, and no other one is touched. -/
theorem syncAttribute_child? {schema : Property} (distinct : (names schema.children).Nodup)
    (now : Instant) (attr : Flag) (name : String) :
    (syncAttribute now schema attr).1.child? name =
      if attr.name = name then
        if attr.enabled then some (synced now attr (schema.child? name)) else none
      else schema.child? name := by
  have known : schema.hasChild attr.name = (schema.child? attr.name).isSome := rfl
  by_cases here : attr.name = name
  · subst here
    cases enabled : attr.enabled with
    | false =>
        rw [syncAttribute_disabled enabled, known]
        cases found : schema.child? attr.name <;> simp [found, child?_removeChild distinct]
    | true =>
        rw [syncAttribute_enabled enabled, known]
        have named : (synced now attr (schema.child? attr.name)).name = attr.name := synced_name
        cases found : schema.child? attr.name with
        | none =>
            rw [found] at named
            simp [found, child?_addChild, named]
        | some property =>
            rw [found] at named
            simp [child?_updateChild (fun _ _ => named), found]
  · have other : ¬ name = attr.name := Ne.symm here
    cases enabled : attr.enabled with
    | false =>
        rw [syncAttribute_disabled enabled, known]
        cases schema.child? attr.name <;> simp [child?_removeChild distinct, here, other]
    | true =>
        rw [syncAttribute_enabled enabled, known]
        have named : (synced now attr (schema.child? attr.name)).name = attr.name := synced_name
        cases found : schema.child? attr.name with
        | none =>
            rw [found] at named
            simp [child?_addChild, named, here]
        | some property =>
            rw [found] at named
            simp [child?_updateChild (fun _ _ => named), here, other]

theorem syncAttributes_distinct {schema : Property} (distinct : (names schema.children).Nodup)
    (now : Instant) (attrs : List Flag) :
    (names (syncAttributes now schema attrs).1.children).Nodup := by
  induction attrs generalizing schema with
  | nil => exact distinct
  | cons attr rest ih => exact ih (syncAttribute_distinct distinct now attr)

theorem syncAttributes_child? {schema : Property} (distinct : (names schema.children).Nodup)
    (now : Instant) {attrs : List Flag} (attrsDistinct : (attrs.map (·.name)).Nodup)
    (name : String) :
    (syncAttributes now schema attrs).1.child? name =
      match attrs.find? (·.name == name) with
      | some attr => if attr.enabled then some (synced now attr (schema.child? name)) else none
      | none => schema.child? name := by
  induction attrs generalizing schema with
  | nil => rfl
  | cons attr rest ih =>
      obtain ⟨absent, restDistinct⟩ := List.nodup_cons.mp attrsDistinct
      have step : (syncAttributes now schema (attr :: rest)).1 =
          (syncAttributes now (syncAttribute now schema attr).1 rest).1 := rfl
      rw [step, ih (syncAttribute_distinct distinct now attr) restDistinct,
        syncAttribute_child? distinct now attr name]
      by_cases here : attr.name = name
      · subst here
        simp [find?_of_notMem Flag.name absent]
      · have skipped : (attr.name == name) = false := beq_eq_false_iff_ne.mpr here
        simp [skipped, here]

theorem distinct_start {attr : Flag} {stored : Option Property}
    (distinct : ∀ property, stored = some property → (names property.children).Nodup) :
    (names (stored.getD (.object attr.name)).children).Nodup := by
  cases stored with
  | none => exact .nil
  | some property => exact distinct property rfl

/-- Every leaf of a synchronized attribute was there or is one that the configuration shows. -/
theorem mem_synced {now : Instant} {attr : Flag} {stored : Option Property}
    (distinct : ∀ property, stored = some property → (names property.children).Nodup)
    (criteria : (attr.children.map (·.name)).Nodup) {leaf : Property}
    (member : leaf ∈ (synced now attr stored).children) :
    (∃ property, stored = some property ∧ leaf ∈ property.children) ∨
      ∃ wanted ∈ Leaf.ofAttribute now attr, wanted.visible ∧
        leaf = .leaf wanted.name wanted.default := by
  have before : (names (stored.getD (.object attr.name)).children).Nodup :=
    distinct_start distinct
  have old : ∀ name found, (stored.getD (.object attr.name)).child? name = some found →
      ∃ property, stored = some property ∧ found ∈ property.children := by
    intro name found lookup
    cases stored with
    | none => simp [child?, findNamed, Property.object] at lookup
    | some property => exact ⟨property, rfl, findNamed_mem lookup⟩
  have found : (synced now attr stored).child? leaf.name = some leaf :=
    findNamed_of_mem (syncLeaves_distinct before _) member
  rw [synced, syncLeaves_child? before (Leaf.ofAttribute_distinct now criteria)] at found
  split at found
  · next wanted called =>
      split at found
      · next visible =>
          cases lookup : (stored.getD (.object attr.name)).child? leaf.name with
          | some kept =>
              obtain rfl : kept = leaf := by simpa [lookup] using found
              exact .inl (old _ _ lookup)
          | none =>
              obtain rfl : Property.leaf wanted.name wanted.default = leaf := by
                simpa [lookup] using found
              exact .inr ⟨wanted, List.mem_of_find?_eq_some called, visible, rfl⟩
      · simp at found
  · exact .inl (old _ _ found)

private theorem synced_isGroup {now : Instant} {attr : Flag} {stored : Option Property}
    (criteria : (attr.children.map (·.name)).Nodup)
    (shaped : ∀ property, stored = some property → property.IsGroup) :
    (synced now attr stored).IsGroup := by
  have before : (stored.getD (.object attr.name)).IsGroup := by
    cases stored with
    | none =>
        exact { type := rfl, value := rfl, distinct := .nil, leaves := by simp [Property.object] }
    | some property => exact shaped property rfl
  have frame := syncLeaves_frame (stored.getD (.object attr.name)) (Leaf.ofAttribute now attr)
  constructor
  · rw [synced, frame]
    exact before.type
  · rw [synced, frame]
    exact before.value
  · exact syncLeaves_distinct before.distinct _
  · intro leaf member
    have distinct : ∀ property, stored = some property → (names property.children).Nodup :=
      fun property same => (shaped property same).distinct
    rcases mem_synced distinct criteria member with ⟨property, same, old⟩ | ⟨wanted, called, _, rfl⟩
    · exact (shaped property same).leaves leaf old
    · apply isLeaf_leaf
      rw [Leaf.ofAttribute_default called, defaultValue_type]

theorem synced_of_mem {schema : Property} (distinct : (names schema.children).Nodup)
    {now : Instant} {configuration : Configuration} (siblings : configuration.Distinct)
    {property : Property}
    (member : property ∈ (syncAttributes now schema configuration.attributes).1.children) :
    property ∈ schema.children ∨ ∃ attr ∈ configuration.attributes, attr.enabled ∧
      attr.name = property.name ∧ property = synced now attr (schema.child? attr.name) := by
  have found : (syncAttributes now schema configuration.attributes).1.child? property.name =
      some property :=
    findNamed_of_mem (syncAttributes_distinct distinct now _) member
  rw [syncAttributes_child? distinct now siblings.attributes] at found
  split at found
  · next attr called =>
      split at found
      · next enabled =>
          have sameName : attr.name = property.name := by simpa using List.find?_some called
          refine .inr ⟨attr, List.mem_of_find?_eq_some called, enabled, sameName, ?_⟩
          rw [sameName]
          exact (Option.some.inj found).symm
      · simp at found
  · exact .inl (findNamed_mem found)

private theorem mem_syncLeaf {parent child : Property} {leaf : Leaf}
    (member : child ∈ (syncLeaf parent leaf).1.children) :
    child ∈ parent.children ∨ child = .leaf leaf.name leaf.default := by
  unfold syncLeaf at member
  cases visible : leaf.visible <;> cases known : parent.hasChild leaf.name <;>
    simp only [visible, known] at member
  · exact .inl member
  · exact .inl (List.mem_of_mem_eraseP member)
  · simpa [addChild] using member
  · exact .inl member

private theorem syncLeaf_unique {parent : Property} (unique : parent.Unique) (leaf : Leaf) :
    (syncLeaf parent leaf).1.Unique := by
  obtain ⟨distinct, below⟩ := unique_iff.mp unique
  refine unique_iff.mpr ⟨syncLeaf_distinct distinct leaf, fun child member => ?_⟩
  rcases mem_syncLeaf member with old | rfl
  · exact below child old
  · exact ⟨.nil, trivial⟩

private theorem syncLeaves_unique {parent : Property} (unique : parent.Unique)
    (leaves : List Leaf) : (syncLeaves parent leaves).1.Unique := by
  induction leaves generalizing parent with
  | nil => exact unique
  | cons leaf rest ih => exact ih (syncLeaf_unique unique leaf)

private theorem synced_unique {now : Instant} {attr : Flag} {stored : Option Property}
    (unique : ∀ property, stored = some property → property.Unique) :
    (synced now attr stored).Unique := by
  apply syncLeaves_unique
  cases stored with
  | none => exact ⟨.nil, trivial⟩
  | some property => exact unique property rfl

private theorem mem_syncAttribute {now : Instant} {schema property : Property} {attr : Flag}
    (member : property ∈ (syncAttribute now schema attr).1.children) :
    property ∈ schema.children ∨ property = synced now attr (schema.child? attr.name) := by
  cases enabled : attr.enabled with
  | false =>
      rw [syncAttribute_disabled enabled] at member
      split at member
      · exact .inl (List.mem_of_mem_eraseP member)
      · exact .inl member
  | true =>
      rw [syncAttribute_enabled enabled] at member
      split at member
      · exact (mem_updateNamed member).imp_right fun ⟨_, _, same⟩ => same
      · simpa [addChild] using member

private theorem syncAttribute_unique {schema : Property} (unique : schema.Unique) (now : Instant)
    (attr : Flag) : (syncAttribute now schema attr).1.Unique := by
  obtain ⟨distinct, below⟩ := unique_iff.mp unique
  refine unique_iff.mpr ⟨syncAttribute_distinct distinct now attr, fun property member => ?_⟩
  rcases mem_syncAttribute member with old | rfl
  · exact below property old
  · exact synced_unique fun stored lookup => below stored (findNamed_mem lookup)

/-- The schema pass keeps siblings different at every level, also where the configuration has equal
names. -/
theorem syncAttributes_unique {schema : Property} (unique : schema.Unique) (now : Instant)
    (attrs : List Flag) : (syncAttributes now schema attrs).1.Unique := by
  induction attrs generalizing schema with
  | nil => exact unique
  | cons attr rest ih => exact ih (syncAttribute_unique unique now attr)

theorem unique_syncAttributes {schema : Property} (unique : schema.Unique) (now : Instant)
    {configuration : Configuration} (_ : configuration.Distinct) :
    (syncAttributes now schema configuration.attributes).1.Unique :=
  syncAttributes_unique unique now configuration.attributes

theorem regular_syncAttributes {schema : Property} (regular : schema.Regular) (now : Instant)
    {configuration : Configuration} (siblings : configuration.Distinct) :
    (syncAttributes now schema configuration.attributes).1.Regular where
  distinct := syncAttributes_distinct regular.distinct now configuration.attributes
  groups property member := by
    rcases synced_of_mem regular.distinct siblings member with old | ⟨attr, listed, _, _, same⟩
    · exact regular.groups property old
    · rw [same]
      exact synced_isGroup (siblings.criteria attr listed) fun _ lookup =>
        regular.child_isGroup lookup

/-- The schema pass keeps the shape of the schema. -/
theorem shaped_syncAttributes {schema : Property} (shaped : schema.Shaped) (now : Instant)
    {configuration : Configuration} (wellFormed : configuration.WellFormed) :
    (syncAttributes now schema configuration.attributes).1.Shaped := by
  have regular := regular_syncAttributes shaped.regular now wellFormed.siblings
  refine ⟨regular.distinct, fun property member => ⟨regular.groups property member, ?_⟩⟩
  rcases synced_of_mem shaped.distinct wellFormed.siblings member with
    old | ⟨attr, listed, _, named, _⟩
  · exact (shaped.attributes property old).named
  · exact named ▸ wellFormed.named attr listed

/-- Every value of the schema was there before or is a default of the configuration. -/
theorem values_syncAttributes {schema : Property} (regular : schema.Regular) {now : Instant}
    {configuration : Configuration} (siblings : configuration.Distinct) {path : String}
    {value : PropertyValue}
    (member : (path, value) ∈
      valuesList "" (syncAttributes now schema configuration.attributes).1.children) :
    (path, value) ∈ valuesList "" schema.children ∨ configuration.Shows now path value := by
  obtain ⟨property, inSchema, leaf, inProperty, rfl, stored⟩ :=
    (regular_syncAttributes regular now siblings).mem_values.mp member
  rcases synced_of_mem regular.distinct siblings inSchema with
    old | ⟨attr, listed, enabled, named, same⟩
  · exact .inl (regular.mem_values.mpr ⟨property, old, leaf, inProperty, rfl, stored⟩)
  · rw [same] at inProperty
    have distinct : ∀ property, schema.child? attr.name = some property →
        (names property.children).Nodup :=
      fun property lookup => (regular.child_isGroup lookup).distinct
    rcases mem_synced distinct (siblings.criteria attr listed) inProperty with
      ⟨before, lookup, old⟩ | ⟨wanted, called, visible, rfl⟩
    · refine .inl (regular.mem_values.mpr
        ⟨before, findNamed_mem lookup, leaf, old, ?_, stored⟩)
      rw [← named, findNamed_name lookup]
    · have default : wanted.default = value := Option.some.inj stored
      exact .inr ⟨attr, listed, enabled, wanted, called, visible, by rw [← named]; rfl,
        default.symm⟩

theorem key_of_shows {schema : Property} (shaped : schema.Shaped) {now : Instant}
    {configuration : Configuration} (wellFormed : configuration.WellFormed) {path : String}
    {default : PropertyValue} (shows : configuration.Shows now path default) :
    ∃ value, (path, value) ∈
      valuesList "" (syncAttributes now schema configuration.attributes).1.children := by
  obtain ⟨attr, listed, enabled, leaf, called, visible, rfl, rfl⟩ := shows
  have attrFound : (syncAttributes now schema configuration.attributes).1.child? attr.name =
      some (synced now attr (schema.child? attr.name)) := by
    rw [syncAttributes_child? shaped.distinct now wellFormed.distinct,
      find?_of_mem Flag.name wellFormed.distinct listed]
    exact if_pos enabled
  have before : (names ((schema.child? attr.name).getD (.object attr.name)).children).Nodup :=
    distinct_start fun property lookup => (shaped.child_isAttribute lookup).distinct
  obtain ⟨found, leafFound⟩ :
      ∃ found, (synced now attr (schema.child? attr.name)).child? leaf.name = some found := by
    have distinct := Leaf.ofAttribute_distinct now (wellFormed.criteria attr listed)
    rw [synced, syncLeaves_child? before distinct, find?_of_mem Leaf.name distinct called]
    exact ⟨_, if_pos visible⟩
  have after := shaped_syncAttributes shaped now wellFormed
  have inAttr := findNamed_mem leafFound
  obtain ⟨value, stored, _⟩ :=
    ((after.child_isAttribute attrFound).leaves found inAttr).value_ne_none
  refine ⟨value, after.mem_values.mpr ⟨_, findNamed_mem attrFound, found, inAttr, ?_, stored⟩⟩
  rw [synced_name, findNamed_name leafFound]

end Schema

end AlarmView
