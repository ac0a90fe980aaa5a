import AlarmView.Proofs.EditModel.Shape

/-!
# Editing the visibility

Names stay different among siblings, so a switch is found by its name.  An edit sets one switch or
appends one criterion, so configurations only grow.
-/

namespace AlarmView

open BrowseName

namespace Flag

variable {name : String} {change : Flag → Flag}

private theorem names_updateNamed (keeps : ∀ flag, (change flag).name = flag.name)
    (flags : List Flag) : (updateNamed name change flags).map (·.name) = flags.map (·.name) := by
  induction flags with
  | nil => rfl
  | cons head rest ih =>
      rw [updateNamed]
      split
      · simp [keeps]
      · simp [ih]

theorem mem_updateNamed {flags : List Flag} {flag : Flag}
    (member : flag ∈ updateNamed name change flags) :
    flag ∈ flags ∨ ∃ found ∈ flags, flag = change found := by
  induction flags with
  | nil => exact absurd member List.not_mem_nil
  | cons head rest ih =>
      rw [updateNamed] at member
      split at member
      · rcases List.mem_cons.mp member with rfl | old
        · exact .inr ⟨head, List.mem_cons_self, rfl⟩
        · exact .inl (List.mem_cons_of_mem _ old)
      · rcases List.mem_cons.mp member with rfl | old
        · exact .inl List.mem_cons_self
        · rcases ih old with kept | ⟨found, listed, changed⟩
          · exact .inl (List.mem_cons_of_mem _ kept)
          · exact .inr ⟨found, List.mem_cons_of_mem _ listed, changed⟩

/-- The flag with its own switch set, or the one of a criterion. -/
def setAt (criterion : Option String) (enabled : Bool) : Flag → Flag :=
  match criterion with
  | none => set enabled
  | some name => setChild name enabled

theorem child?_eq_none {flag : Flag} :
    flag.child? name = none ↔ name ∉ flag.children.map (·.name) := by
  simp [child?]

private theorem child?_of_mem {flag child : Flag} (distinct : (flag.children.map (·.name)).Nodup)
    (member : child ∈ flag.children) : flag.child? child.name = some child :=
  find?_of_mem Flag.name distinct member

theorem setChild_name (enabled : Bool) (flag : Flag) :
    (setChild name enabled flag).name = flag.name := by
  rw [setChild]
  split <;> rfl

theorem names_setChild (enabled : Bool) (flag : Flag) :
    (setChild name enabled flag).children.map (·.name) =
      if name ∈ flag.children.map (·.name) then flag.children.map (·.name)
      else flag.children.map (·.name) ++ [name] := by
  rw [setChild]
  split
  · next known =>
      have listed : name ∈ flag.children.map (·.name) := by
        by_contra absent
        rw [child?_eq_none.mpr absent] at known
        exact absurd known (by simp)
      rw [if_pos listed]
      exact names_updateNamed (fun flag => show (set enabled flag).name = flag.name from rfl)
        flag.children
  · next unknown =>
      have absent : name ∉ flag.children.map (·.name) :=
        child?_eq_none.mp (Option.not_isSome_iff_eq_none.mp unknown)
      rw [if_neg absent, List.map_append]
      rfl

/-- Whether a flag has the criteria of another one and perhaps more behind them. -/
structure Extends (base flag : Flag) : Prop where
  name : flag.name = base.name
  criteria : base.children.map (·.name) <+: flag.children.map (·.name)

namespace Extends

variable {base flag later : Flag}

theorem refl (flag : Flag) : Extends flag flag := ⟨rfl, List.prefix_refl _⟩

private theorem trans (first : Extends base flag) (second : Extends flag later) :
    Extends base later :=
  ⟨second.name.trans first.name, first.criteria.trans second.criteria⟩

private theorem set (enabled : Bool) (flag : Flag) : Extends flag (flag.set enabled) :=
  ⟨rfl, List.prefix_refl _⟩

private theorem setChild (name : String) (enabled : Bool) (flag : Flag) :
    Extends flag (flag.setChild name enabled) := by
  refine ⟨setChild_name enabled flag, ?_⟩
  rw [names_setChild]
  split
  · exact List.prefix_refl _
  · exact List.prefix_append _ _

end Extends

private theorem distinct_setChild {flag : Flag} (distinct : (flag.children.map (·.name)).Nodup)
    (name : String) (enabled : Bool) :
    ((flag.setChild name enabled).children.map (·.name)).Nodup := by
  rw [names_setChild]
  split
  · exact distinct
  · next absent =>
      refine List.nodup_append'.mpr ⟨distinct, List.nodup_singleton _, ?_⟩
      simpa using absent

theorem forall₂_updateNamed {relation : Flag → Flag → Prop} (keeps : ∀ flag, relation flag flag)
    (changes : ∀ flag, relation flag (change flag)) (flags : List Flag) :
    List.Forall₂ relation flags (updateNamed name change flags) := by
  induction flags with
  | nil => exact .nil
  | cons head rest ih =>
      rw [updateNamed]
      split
      · exact .cons (changes head) (List.forall₂_same.mpr fun flag _ => keeps flag)
      · exact .cons (keeps head) ih

end Flag

namespace Configuration

/-- Whether different attributes of a configuration, and different criteria of one attribute, have
different names. -/
structure Distinct (configuration : Configuration) : Prop where
  attributes : (configuration.attributes.map (·.name)).Nodup
  criteria : ∀ attr ∈ configuration.attributes, (attr.children.map (·.name)).Nodup

private theorem distinct_iff {configuration : Configuration} :
    configuration.Distinct ↔ (configuration.attributes.map (·.name)).Nodup ∧
      ∀ attr ∈ configuration.attributes, (attr.children.map (·.name)).Nodup := by
  constructor
  · exact fun distinct => ⟨distinct.attributes, distinct.criteria⟩
  · exact fun given => ⟨given.1, given.2⟩

instance : DecidablePred Distinct := fun _ => decidable_of_iff' _ distinct_iff

/-- A usable configuration without equal names among siblings, with attributes that paths can
name. -/
structure WellFormed (configuration : Configuration) : Prop where
  usable : ∃ gates, configuration.rangeGates = .ok gates
  distinct : (configuration.attributes.map (·.name)).Nodup
  named : ∀ attr ∈ configuration.attributes, NamesAttribute attr.name
  criteria : ∀ attr ∈ configuration.attributes, (attr.children.map (·.name)).Nodup

theorem WellFormed.siblings {configuration : Configuration}
    (wellFormed : configuration.WellFormed) : configuration.Distinct :=
  ⟨wellFormed.distinct, wellFormed.criteria⟩

theorem builtin_wellFormed : builtin.WellFormed where
  usable := ⟨_, rfl⟩
  distinct := by decide +kernel
  named := by decide +kernel
  criteria := by decide +kernel

variable {configuration changed : Configuration}

theorem attribute?_of_mem (distinct : (configuration.attributes.map (·.name)).Nodup) {flag : Flag}
    (member : flag ∈ configuration.attributes) : configuration.attribute? flag.name = some flag :=
  find?_of_mem Flag.name distinct member

theorem attributeEnabled_of_mem (distinct : (configuration.attributes.map (·.name)).Nodup)
    {flag : Flag} (member : flag ∈ configuration.attributes) :
    configuration.attributeEnabled flag.name = flag.enabled := by
  simp [attributeEnabled, attribute?_of_mem distinct member]

theorem criterionEnabled_of_mem (distinct : configuration.Distinct) {flag criterion : Flag}
    (member : flag ∈ configuration.attributes) (listed : criterion ∈ flag.children) :
    configuration.criterionEnabled flag.name criterion.name = criterion.enabled := by
  have found := attribute?_of_mem distinct.attributes member
  have child := Flag.child?_of_mem (distinct.criteria flag member) listed
  simp [criterionEnabled, criterion?, found, child]

theorem attributeEnabled_iff (siblings : configuration.Distinct) {attr : String} :
    configuration.attributeEnabled attr ↔
      ∃ flag ∈ configuration.attributes, flag.name = attr ∧ flag.enabled := by
  constructor
  · intro enabled
    cases found : configuration.attribute? attr with
    | none => simp [attributeEnabled, found] at enabled
    | some flag =>
        refine ⟨flag, List.mem_of_find?_eq_some found, by simpa using List.find?_some found, ?_⟩
        simpa [attributeEnabled, found] using enabled
  · intro given
    obtain ⟨flag, member, rfl, enabled⟩ := given
    rwa [attributeEnabled_of_mem siblings.attributes member]

private theorem criterionEnabled_iff (siblings : configuration.Distinct) {attr name : String} :
    configuration.criterionEnabled attr name ↔
      ∃ flag ∈ configuration.attributes, flag.name = attr ∧
        ∃ criterion ∈ flag.children, criterion.name = name ∧ criterion.enabled := by
  constructor
  · intro enabled
    cases found : configuration.criterion? attr name with
    | none => simp [criterionEnabled, found] at enabled
    | some criterion =>
        obtain ⟨flag, flagFound, below⟩ := Option.bind_eq_some_iff.mp found
        refine ⟨flag, List.mem_of_find?_eq_some flagFound, by simpa using List.find?_some flagFound,
          criterion, List.mem_of_find?_eq_some below, by simpa using List.find?_some below, ?_⟩
        simpa [criterionEnabled, found] using enabled
  · intro given
    obtain ⟨flag, member, rfl, criterion, listed, rfl, enabled⟩ := given
    rwa [criterionEnabled_of_mem siblings member listed]

/-- Whether an attribute and one of its criteria are both enabled. -/
def Enables (configuration : Configuration) (attr name : String) : Prop :=
  configuration.attributeEnabled attr ∧ configuration.criterionEnabled attr name

theorem enables_iff (siblings : configuration.Distinct) {attr name : String} :
    configuration.Enables attr name ↔
      ∃ flag ∈ configuration.attributes, flag.name = attr ∧ flag.enabled ∧
        ∃ criterion ∈ flag.children, criterion.name = name ∧ criterion.enabled := by
  rw [Enables, attributeEnabled_iff siblings, criterionEnabled_iff siblings]
  constructor
  · intro given
    obtain ⟨⟨flag, member, rfl, enabled⟩, other, otherMember, same, below⟩ := given
    obtain rfl := List.inj_on_of_nodup_map siblings.attributes otherMember member same
    exact ⟨other, member, rfl, enabled, below⟩
  · intro given
    obtain ⟨flag, member, named, enabled, below⟩ := given
    exact ⟨⟨flag, member, named, enabled⟩, flag, member, named, below⟩

/-- Whether a configuration has the attributes of another one and only more criteria. -/
def Extends (base configuration : Configuration) : Prop :=
  List.Forall₂ Flag.Extends base.attributes configuration.attributes

namespace Extends

variable {base : Configuration}

theorem refl (configuration : Configuration) : Extends configuration configuration :=
  List.forall₂_same.mpr fun flag _ => .refl flag

private theorem trans (first : Extends base configuration)
    (second : Extends configuration changed) : Extends base changed :=
  forall₂_trans first second Flag.Extends.trans

theorem names (larger : Extends base configuration) :
    configuration.attributes.map (·.name) = base.attributes.map (·.name) := by
  unfold Extends at larger
  generalize base.attributes = flags at larger
  generalize configuration.attributes = others at larger
  induction larger with
  | nil => rfl
  | cons head _ ih => rw [List.map_cons, List.map_cons, head.name, ih]

theorem of_mem (larger : Extends base configuration) {flag : Flag}
    (member : flag ∈ configuration.attributes) :
    ∃ smaller ∈ base.attributes, Flag.Extends smaller flag :=
  exists_mem_of_forall₂ larger member

theorem larger_of_mem (larger : Extends base configuration) {flag : Flag}
    (member : flag ∈ base.attributes) :
    ∃ other ∈ configuration.attributes, Flag.Extends flag other :=
  exists_mem_of_forall₂ (List.Forall₂.flip larger) member

end Extends

variable {attr : String} {criterion : Option String} {enabled : Bool}

theorem attribute?_isSome :
    (configuration.attribute? attr).isSome ↔ attr ∈ configuration.attributes.map (·.name) := by
  simp [attribute?]

theorem setEnabled_eq (configuration : Configuration) (attr : String) (criterion : Option String)
    (enabled : Bool) :
    configuration.setEnabled attr criterion enabled =
      if attr ∈ configuration.attributes.map (·.name) then
        match criterion.filter isRangeValue with
        | some name => .error (.reservedName attr name)
        | none => .ok (configuration.updateAttribute attr (Flag.setAt criterion enabled))
      else .error (.missingAttribute attr) := by
  simp only [← attribute?_isSome]
  cases found : configuration.attribute? attr with
  | none => simp [setEnabled, requireAttribute, found, bind, Except.bind]
  | some flag =>
      simp only [Option.isSome_some, if_true]
      cases criterion with
      | none => simp [setEnabled, requireAttribute, found, bind, Except.bind, Flag.setAt]
      | some name =>
          rw [Option.filter_some]
          cases reserved : isRangeValue name with
          | true => simp [setEnabled, requireAttribute, found, bind, Except.bind, reserved]
          | false =>
              simp [setEnabled, requireAttribute, found, bind, Except.bind, reserved, Flag.setAt]

theorem setEnabled_eq_ok_iff :
    configuration.setEnabled attr criterion enabled = .ok changed ↔
      attr ∈ configuration.attributes.map (·.name) ∧
        (∀ name, criterion = some name → isRangeValue name = false) ∧
        changed = configuration.updateAttribute attr (Flag.setAt criterion enabled) := by
  rw [setEnabled_eq]
  split
  · next known =>
      cases refused : criterion.filter isRangeValue with
      | some name =>
          obtain ⟨same, reserved⟩ := Option.filter_eq_some_iff.mp refused
          simp [same, reserved]
      | none =>
          have allowed : ∀ name, criterion = some name → isRangeValue name = false := by
            simpa using Option.filter_eq_none_iff.mp refused
          simp only [known, true_and, Except.ok.injEq]
          exact ⟨fun same => ⟨allowed, same.symm⟩, fun given => given.2.symm⟩
  · next unknown => simp [unknown]

theorem setEnabled_eq_error_iff {error : VisibilityError} :
    configuration.setEnabled attr criterion enabled = .error error ↔
      attr ∉ configuration.attributes.map (·.name) ∧ error = .missingAttribute attr ∨
        attr ∈ configuration.attributes.map (·.name) ∧ ∃ name, criterion = some name ∧
          isRangeValue name = true ∧ error = .reservedName attr name := by
  rw [setEnabled_eq]
  split
  · next known =>
      simp only [known, not_true_eq_false, false_and, true_and, false_or]
      cases refused : criterion.filter isRangeValue with
      | some name =>
          obtain ⟨rfl, reserved⟩ := Option.filter_eq_some_iff.mp refused
          simp only [Except.error.injEq, Option.some.injEq]
          constructor
          · rintro rfl
            exact ⟨name, rfl, reserved, rfl⟩
          · rintro ⟨_, rfl, _, rfl⟩
            rfl
      | none =>
          simp only [reduceCtorEq, false_iff]
          rintro ⟨name, rfl, reserved, -⟩
          exact Option.filter_eq_none_iff.mp refused name rfl reserved
  · next unknown =>
      simp only [unknown, not_false_eq_true, true_and, false_and, or_false, Except.error.injEq]
      exact eq_comm

theorem setEnabled_eq_ok (edited : configuration.setEnabled attr criterion enabled = .ok changed) :
    changed = configuration.updateAttribute attr (Flag.set enabled) ∨
      ∃ name, criterion = some name ∧ isRangeValue name = false ∧
        changed = configuration.updateAttribute attr (Flag.setChild name enabled) := by
  obtain ⟨_, allowed, rfl⟩ := setEnabled_eq_ok_iff.mp edited
  cases criterion with
  | none => exact .inl rfl
  | some name => exact .inr ⟨name, rfl, allowed name rfl, rfl⟩

theorem extends_setEnabled
    (edited : configuration.setEnabled attr criterion enabled = .ok changed) :
    configuration.Extends changed := by
  rcases setEnabled_eq_ok edited with rfl | ⟨name, _, _, rfl⟩
  · exact Flag.forall₂_updateNamed .refl (.set enabled) configuration.attributes
  · exact Flag.forall₂_updateNamed .refl (.setChild name enabled) configuration.attributes

theorem Distinct.setEnabled (distinct : configuration.Distinct)
    (edited : configuration.setEnabled attr criterion enabled = .ok changed) :
    changed.Distinct where
  attributes := (extends_setEnabled edited).names ▸ distinct.attributes
  criteria := by
    intro flag member
    rcases setEnabled_eq_ok edited with rfl | ⟨name, _, _, rfl⟩
    · rcases Flag.mem_updateNamed member with kept | ⟨found, listed, rfl⟩
      · exact distinct.criteria flag kept
      · exact distinct.criteria found listed
    · rcases Flag.mem_updateNamed member with kept | ⟨found, listed, rfl⟩
      · exact distinct.criteria flag kept
      · exact Flag.distinct_setChild (distinct.criteria found listed) name enabled

/-- Whether a configuration can come from the builtin one through edits. -/
structure Grown (configuration : Configuration) : Prop where
  larger : builtin.Extends configuration
  criteria : ∀ flag ∈ configuration.attributes, (flag.children.map (·.name)).Nodup

theorem builtin_grown : builtin.Grown where
  larger := .refl builtin
  criteria := builtin_wellFormed.criteria

namespace Grown

theorem names (grown : configuration.Grown) :
    configuration.attributes.map (·.name) = Attribute.all.map (·.browseName) :=
  grown.larger.names

theorem distinct (grown : configuration.Grown) : (configuration.attributes.map (·.name)).Nodup := by
  rw [grown.names]
  decide +kernel

theorem siblings (grown : configuration.Grown) : configuration.Distinct :=
  ⟨grown.distinct, grown.criteria⟩

theorem setEnabled (grown : configuration.Grown)
    (edited : configuration.setEnabled attr criterion enabled = .ok changed) :
    changed.Grown where
  larger := grown.larger.trans (extends_setEnabled edited)
  criteria := (grown.siblings.setEnabled edited).criteria

private theorem exists_attr (grown : configuration.Grown) {flag : Flag}
    (member : flag ∈ configuration.attributes) :
    ∃ attr : Attribute, attr.browseName = flag.name := by
  have listed : flag.name ∈ configuration.attributes.map (·.name) := List.mem_map_of_mem member
  rw [grown.names] at listed
  obtain ⟨attr, _, named⟩ := List.mem_map.mp listed
  exact ⟨attr, named⟩

theorem exists_flag (grown : configuration.Grown) (attr : Attribute) :
    ∃ flag ∈ configuration.attributes, flag.name = attr.browseName := by
  have listed : attr.browseName ∈ Attribute.all.map (·.browseName) :=
    List.mem_map_of_mem (Attribute.mem_all attr)
  rw [← grown.names] at listed
  exact List.mem_map.mp listed

/-- The bounds of the event time stand in front of its other criteria, the lower one first. -/
theorem bounds (grown : configuration.Grown) {flag : Flag}
    (member : flag ∈ configuration.attributes) (named : flag.name = BrowseName.eventTime) :
    [fromEventTime, toEventTime] <+: flag.children.map (·.name) := by
  have builtinBounds : ∀ base ∈ builtin.attributes, base.name = BrowseName.eventTime →
      base.children.map (·.name) = [fromEventTime, toEventTime] := by decide +kernel
  obtain ⟨base, listed, larger⟩ := grown.larger.of_mem member
  rw [← builtinBounds base listed (larger.name ▸ named)]
  exact larger.criteria

private theorem severity_mem (grown : configuration.Grown) {flag : Flag}
    (member : flag ∈ configuration.attributes) (named : flag.name = severity) :
    severity ∈ flag.children.map (·.name) := by
  have builtinSeverity : ∀ base ∈ builtin.attributes, base.name = severity →
      severity ∈ base.children.map (·.name) := by decide +kernel
  obtain ⟨base, listed, larger⟩ := grown.larger.of_mem member
  exact larger.criteria.subset (builtinSeverity base listed (larger.name ▸ named))

theorem usable (grown : configuration.Grown) :
    ∃ gates, configuration.rangeGates = .ok gates := by
  obtain ⟨times, timesMember, timesNamed⟩ := grown.exists_flag .eventTime
  obtain ⟨levels, levelsMember, levelsNamed⟩ := grown.exists_flag .severity
  have timesFound := attribute?_of_mem grown.distinct timesMember
  have levelsFound := attribute?_of_mem grown.distinct levelsMember
  have bounds := (grown.bounds timesMember timesNamed).subset
  have known (name : String) (flag : Flag) (listed : name ∈ flag.children.map (·.name)) :
      ∃ child, flag.getChild name = .ok child := by
    cases found : flag.child? name with
    | none => exact absurd listed (Flag.child?_eq_none.mp found)
    | some child => exact ⟨child, by simp [Flag.getChild, found]⟩
  obtain ⟨lower, lowerKnown⟩ := known fromEventTime times (bounds (by simp))
  obtain ⟨upper, upperKnown⟩ := known toEventTime times (bounds (by simp))
  obtain ⟨range, rangeKnown⟩ := known severity levels (grown.severity_mem levelsMember levelsNamed)
  rw [timesNamed] at timesFound
  rw [levelsNamed] at levelsFound
  have timesRequired : configuration.requireAttribute BrowseName.eventTime = .ok times := by
    simp only [requireAttribute]
    rw [show BrowseName.eventTime = Attribute.eventTime.browseName from rfl, timesFound]
  have levelsRequired : configuration.requireAttribute BrowseName.severity = .ok levels := by
    simp only [requireAttribute]
    rw [show BrowseName.severity = Attribute.severity.browseName from rfl, levelsFound]
  have severityKnown : ∃ shows, configuration.showsSeverity = .ok shows :=
    ⟨_, by simp only [showsSeverity, levelsRequired, rangeKnown, bind, Except.bind]; rfl⟩
  have timesKnown : ∃ flags, configuration.eventTime = .ok flags := by
    simp only [Configuration.eventTime, timesRequired, lowerKnown, upperKnown, bind, Except.bind]
    cases times.enabled with
    | true => exact ⟨_, rfl⟩
    | false => exact ⟨_, rfl⟩
  obtain ⟨flags, flagsKnown⟩ := timesKnown
  obtain ⟨shows, showsKnown⟩ := severityKnown
  exact ⟨⟨flags, shows⟩, by simp only [rangeGates, flagsKnown, showsKnown, bind, Except.bind]; rfl⟩

theorem wellFormed (grown : configuration.Grown) : configuration.WellFormed where
  usable := grown.usable
  distinct := grown.distinct
  named := by
    have builtinNamed : ∀ attr : Attribute, NamesAttribute attr.browseName := by
      intro attr
      cases attr <;> decide +kernel
    intro flag member
    obtain ⟨attr, named⟩ := grown.exists_attr member
    exact named ▸ builtinNamed attr
  criteria := grown.criteria

end Grown

end Configuration

end AlarmView
