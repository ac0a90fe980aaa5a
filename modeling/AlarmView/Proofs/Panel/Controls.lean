import AlarmView.Panel
import AlarmView.Proofs.FilterSet
import AlarmView.Proofs.Table
import AlarmView.Proofs.Visibility

/-!
# The controls of a panel

A panel has one control for each enabled criterion of an enabled attribute that is no range value;
below the severity only its own criterion has one.  Behind each control stands one filter, so the
keys of the filters are those that the configuration gives, in its order.
-/

namespace AlarmView

open BrowseName

theorem bind_eq_ok {ε α β : Type} {first : Except ε α} {next : α → Except ε β} {result : β} :
    (first >>= next) = .ok result ↔ ∃ value, first = .ok value ∧ next value = .ok result := by
  cases first with
  | error error => simp [bind, Except.bind]
  | ok value => simp [bind, Except.bind]

theorem mapError_eq_ok {ε δ α : Type} {change : ε → δ} {first : Except ε α} {result : α} :
    first.mapError change = .ok result ↔ first = .ok result := by
  cases first with
  | error error => simp [Except.mapError]
  | ok value => simp [Except.mapError]

theorem forall₂_of_mapM {ε α β : Type} {step : α → Except ε β} {items : List α} {results : List β}
    (accepted : items.mapM step = .ok results) :
    List.Forall₂ (fun item result => step item = .ok result) items results := by
  induction items generalizing results with
  | nil =>
      obtain rfl : [] = results := by simpa [pure, Except.pure] using accepted
      exact .nil
  | cons item rest ih =>
      rw [List.mapM_cons] at accepted
      obtain ⟨first, firstOk, accepted⟩ := bind_eq_ok.mp accepted
      obtain ⟨others, othersOk, accepted⟩ := bind_eq_ok.mp accepted
      obtain rfl : first :: others = results := by simpa [pure, Except.pure] using accepted
      exact .cons firstOk (ih othersOk)

theorem mapM_ok {ε α β : Type} {step : α → Except ε β} {items : List α}
    (accepted : ∀ item ∈ items, ∃ result, step item = .ok result) :
    ∃ results, items.mapM step = .ok results := by
  induction items with
  | nil => exact ⟨[], rfl⟩
  | cons item rest ih =>
      obtain ⟨first, firstOk⟩ := accepted item List.mem_cons_self
      obtain ⟨others, othersOk⟩ := ih fun other member => accepted other (.tail _ member)
      exact ⟨first :: others, by rw [List.mapM_cons, firstOk, othersOk]; rfl⟩

/-- The attribute whose criterion gates a range. -/
def RangeBound.attr : RangeBound → Attribute
  | fromEventTime | toEventTime => .eventTime
  | severity => .severity

/-- The names under which the limits of a range are stored. -/
def RangeBound.valueNames : RangeBound → List String
  | fromEventTime => [fromEventTimeValue]
  | toEventTime => [toEventTimeValue]
  | severity => [fromSeverity, toSeverity]

def RangeGates.opens (gates : RangeGates) : RangeBound → Bool
  | .fromEventTime => gates.eventTime.lower
  | .toEventTime => gates.eventTime.upper
  | .severity => gates.severity

theorem Flag.getChild_eq_ok {flag child : Flag} {name : String} :
    flag.getChild name = .ok child ↔ flag.child? name = some child := by
  rw [getChild]
  cases flag.child? name <;> simp

namespace Configuration

variable {configuration : Configuration} {gates : RangeGates}

theorem requireAttribute_eq_ok {name : String} {flag : Flag} :
    configuration.requireAttribute name = .ok flag ↔ configuration.attribute? name = some flag := by
  rw [requireAttribute]
  cases configuration.attribute? name <;> simp

private theorem enables_of_found {attr name : String} {flag criterion : Flag}
    (found : configuration.attribute? attr = some flag)
    (below : flag.child? name = some criterion) :
    configuration.Enables attr name ↔ flag.enabled ∧ criterion.enabled := by
  simp [Enables, attributeEnabled, criterionEnabled, criterion?, found, below]

theorem rangeGates_eq_ok :
    configuration.rangeGates = .ok gates ↔
      configuration.eventTime = .ok gates.eventTime ∧
        configuration.showsSeverity = .ok gates.severity := by
  simp only [rangeGates, bind_eq_ok, pure, Except.pure, Except.ok.injEq]
  constructor
  · rintro ⟨flags, flagsKnown, shows, showsKnown, rfl⟩
    exact ⟨flagsKnown, showsKnown⟩
  · exact fun given => ⟨_, given.1, _, given.2, rfl⟩

/-- A range can be used exactly if its criterion is enabled. -/
theorem opens_iff (usable : configuration.rangeGates = .ok gates) (bound : RangeBound) :
    gates.opens bound ↔ configuration.Enables bound.attr.browseName bound.browseName := by
  obtain ⟨times, levels⟩ := rangeGates_eq_ok.mp usable
  have ofTimes :
      (gates.eventTime.lower ↔ configuration.Enables BrowseName.eventTime fromEventTime) ∧
        (gates.eventTime.upper ↔ configuration.Enables BrowseName.eventTime toEventTime) := by
    obtain ⟨flag, required, known⟩ := bind_eq_ok.mp times
    have found := requireAttribute_eq_ok.mp required
    split at known
    · next enabled =>
        obtain ⟨lower, lowerFound, known⟩ := bind_eq_ok.mp known
        obtain ⟨upper, upperFound, known⟩ := bind_eq_ok.mp known
        rw [enables_of_found found (Flag.getChild_eq_ok.mp lowerFound),
          enables_of_found found (Flag.getChild_eq_ok.mp upperFound), ← Except.ok.inj known]
        simp [enabled]
    · next disabled =>
        rw [← Except.ok.inj known]
        simp [Enables, attributeEnabled, found, disabled]
  cases bound with
  | fromEventTime => exact ofTimes.1
  | toEventTime => exact ofTimes.2
  | severity =>
      obtain ⟨flag, required, known⟩ := bind_eq_ok.mp levels
      obtain ⟨criterion, criterionFound, known⟩ := bind_eq_ok.mp known
      have enabled := enables_of_found (requireAttribute_eq_ok.mp required)
        (Flag.getChild_eq_ok.mp criterionFound)
      rw [RangeGates.opens, ← Except.ok.inj known, Bool.and_eq_true]
      exact enabled.symm

end Configuration

/-- Whether the panel has a control for a criterion of the flag of an attribute. -/
def Flag.hasControl (flag criterion : Flag) : Bool :=
  criterion.enabled && !isRangeValue criterion.name &&
    (flag.name != BrowseName.severity || criterion.name == BrowseName.severity)

def Flag.controlNames (flag : Flag) : List String :=
  (flag.children.filter flag.hasControl).map (·.name)

/-- The controls of one attribute by the attribute and their names. -/
def Flag.controlKeys (flag : Flag) : List (Attribute × String) :=
  match Attribute.ofBrowseName? flag.name with
  | some attr => if flag.enabled then flag.controlNames.map (attr, ·) else []
  | none => []

/-- The controls of a panel by their attributes and names. -/
def Configuration.controlKeys (configuration : Configuration) : List (Attribute × String) :=
  configuration.attributes.flatMap Flag.controlKeys

variable {configuration : Configuration} {lexicon : Lexicon}

namespace Layout

private theorem enabledCriteria_eq (siblings : configuration.Distinct) {flag : Flag}
    (member : flag ∈ configuration.attributes) (other : flag.name ≠ BrowseName.severity) :
    enabledCriteria configuration flag = flag.controlNames := by
  rw [enabledCriteria, candidates, Flag.controlNames, List.filter_map, List.filter_filter]
  congr 1
  apply List.filter_congr
  intro criterion listed
  simp [Flag.hasControl, other, Bool.and_comm,
    Configuration.criterionEnabled_of_mem siblings member listed]

theorem mem_of_getChild {flag criterion : Flag} {name : String}
    (found : flag.getChild name = .ok criterion) :
    criterion ∈ flag.children ∧ criterion.name = name := by
  rw [Flag.getChild] at found
  split at found
  · next lookup =>
      obtain rfl := Except.ok.inj found
      exact ⟨List.mem_of_find?_eq_some lookup, by simpa using List.find?_some lookup⟩
  · exact absurd found (by simp)

private theorem filter_hasControl_eq_nil {flag : Flag} (named : flag.name = BrowseName.severity)
    {criteria : List Flag} (absent : BrowseName.severity ∉ criteria.map (·.name)) :
    criteria.filter flag.hasControl = [] := by
  apply List.filter_eq_nil_iff.mpr
  intro criterion listed shown
  have criterionNamed : criterion.name = BrowseName.severity := by
    simpa [Flag.hasControl, named] using (Bool.and_eq_true_iff.mp shown).2
  exact absent (criterionNamed ▸ List.mem_map_of_mem listed)

private theorem controlNames_severity (siblings : configuration.Distinct) {flag criterion : Flag}
    (member : flag ∈ configuration.attributes) (named : flag.name = BrowseName.severity)
    (found : flag.getChild BrowseName.severity = .ok criterion) :
    flag.controlNames = if criterion.enabled then [criterion.name] else [] := by
  obtain ⟨listed, criterionNamed⟩ := mem_of_getChild found
  have distinct := siblings.criteria flag member
  obtain ⟨before, behind, parts⟩ := List.append_of_mem listed
  have alone : criterion.name ∉ (before ++ behind).map (·.name) := by
    rw [parts] at distinct
    exact (List.nodup_cons.mp ((List.perm_middle.map _).nodup_iff.mp distinct)).1
  rw [criterionNamed, List.map_append, List.mem_append, not_or] at alone
  have shown : flag.hasControl criterion = criterion.enabled := by
    have free : isRangeValue BrowseName.severity = false := by decide
    simp [Flag.hasControl, named, criterionNamed, free]
  rw [Flag.controlNames, parts, List.filter_append, filter_hasControl_eq_nil named alone.1,
    List.filter_cons, filter_hasControl_eq_nil named alone.2, shown]
  cases criterion.enabled <;> rfl

private theorem names_controlsOf (siblings : configuration.Distinct) {flag : Flag}
    (member : flag ∈ configuration.attributes) {controls : List Control}
    (generated : controlsOf lexicon configuration flag = .ok controls) :
    controls.map Control.name = flag.controlNames := by
  rw [controlsOf] at generated
  split at generated
  · next named =>
      obtain rfl := Except.ok.inj generated
      have other : flag.name ≠ BrowseName.severity := by
        rw [named]
        decide
      rw [enabledCriteria_eq siblings member other]
      simp [Function.comp_def, Control.name]
  · split at generated
    · next named =>
        obtain ⟨criterion, found, generated⟩ := bind_eq_ok.mp generated
        rw [controlNames_severity siblings member named found]
        have listed := (mem_of_getChild found).1
        rw [Configuration.criterionEnabled_of_mem siblings member listed] at generated
        split at generated
        · next enabled =>
            obtain rfl := Except.ok.inj generated
            rw [if_pos enabled]
            rfl
        · next disabled =>
            obtain rfl := Except.ok.inj generated
            rw [if_neg disabled]
            rfl
    · next other =>
        obtain rfl := Except.ok.inj generated
        rw [enabledCriteria_eq siblings member other]
        simp [Function.comp_def, Control.name]

/-- The controls of a layout by their attributes and names. -/
def keys (layout : Layout) : List (Attribute × String) :=
  layout.controls.map fun (attr, control) => (attr, control.name)

private theorem keys_accordion (siblings : configuration.Distinct) {flag : Flag}
    (member : flag ∈ configuration.attributes) {accordion : Option Accordion}
    (generated : accordion? lexicon configuration flag = .ok accordion) :
    (accordion.toList.flatMap fun accordion =>
      accordion.controls.map fun control => (accordion.attr, control.name)) = flag.controlKeys := by
  rw [accordion?, Configuration.attributeEnabled_of_mem siblings.attributes member] at generated
  rw [Flag.controlKeys]
  split at generated
  · next enabled =>
      cases named : Attribute.ofBrowseName? flag.name with
      | none =>
          rw [named] at generated
          obtain rfl := Except.ok.inj generated
          rfl
      | some attr =>
          rw [named] at generated
          obtain ⟨controls, controlsOk, generated⟩ := bind_eq_ok.mp generated
          obtain rfl := Except.ok.inj generated
          simp [enabled, ← names_controlsOf siblings member controlsOk]
  · next disabled =>
      obtain rfl := Except.ok.inj generated
      cases Attribute.ofBrowseName? flag.name <;> simp [disabled]

private theorem keys_accordions (siblings : configuration.Distinct) {flags : List Flag}
    {accordions : List (Option Accordion)} (known : ∀ flag ∈ flags, flag ∈ configuration.attributes)
    (generated : List.Forall₂
      (fun flag accordion => accordion? lexicon configuration flag = .ok accordion) flags
      accordions) :
    ((accordions.filterMap id).flatMap fun accordion =>
      accordion.controls.map fun control => (accordion.attr, control.name)) =
        flags.flatMap Flag.controlKeys := by
  induction generated with
  | nil => rfl
  | @cons flag accordion _ _ head _ ih =>
      have here := keys_accordion siblings (known flag List.mem_cons_self) head
      have rest := ih fun other member => known other (List.mem_cons_of_mem _ member)
      rw [List.flatMap_cons, ← here, ← rest]
      cases accordion <;> simp

/-- A layout has the controls that the configuration gives, in its order. -/
theorem keys_generate (siblings : configuration.Distinct) {layout : Layout}
    (generated : generate lexicon configuration = .ok layout) :
    layout.keys = configuration.controlKeys := by
  obtain ⟨accordions, accordionsOk, generated⟩ := bind_eq_ok.mp generated
  obtain rfl := Except.ok.inj generated
  rw [Configuration.controlKeys, ← keys_accordions siblings (fun _ member => member)
    (forall₂_of_mapM accordionsOk)]
  simp [keys, controls, List.map_flatMap, Function.comp_def]

/-- The event time has rows with a picker, and the severity has a row with two text boxes. -/
theorem row_of_controlsOf {flag : Flag} {attr : Attribute} (named : attr.browseName = flag.name)
    {controls : List Control} (generated : controlsOf lexicon configuration flag = .ok controls)
    {control : Control} (member : control ∈ controls) :
    (attr = .eventTime → ∃ name label, control = .dateTimeRow name label) ∧
      (attr = .severity → ∃ name lower upper, control = .severityRow name lower upper) := by
  rw [controlsOf, ← named] at generated
  constructor
  · intro own
    subst own
    rw [if_pos (show Attribute.eventTime.browseName = eventTime from rfl)] at generated
    obtain rfl := Except.ok.inj generated
    obtain ⟨name, _, rfl⟩ := List.mem_map.mp member
    exact ⟨_, _, rfl⟩
  · intro own
    subst own
    rw [if_neg (show Attribute.severity.browseName ≠ eventTime by decide),
      if_pos (show Attribute.severity.browseName = severity from rfl)] at generated
    obtain ⟨criterion, _, generated⟩ := bind_eq_ok.mp generated
    split at generated
    · obtain rfl := Except.ok.inj generated
      exact ⟨_, _, _, List.mem_singleton.mp member⟩
    · obtain rfl := Except.ok.inj generated
      exact absurd member List.not_mem_nil

theorem exists_of_mem_controls {layout : Layout}
    (generated : generate lexicon configuration = .ok layout) {attr : Attribute}
    {control : Control} (member : (attr, control) ∈ layout.controls) :
    ∃ flag controls, attr.browseName = flag.name ∧
      controlsOf lexicon configuration flag = .ok controls ∧ control ∈ controls := by
  obtain ⟨accordions, accordionsOk, generated⟩ := bind_eq_ok.mp generated
  obtain rfl := Except.ok.inj generated
  obtain ⟨accordion, listed, below⟩ := List.mem_flatMap.mp member
  obtain ⟨inside, inAccordion, same⟩ := List.mem_map.mp below
  obtain ⟨rfl, rfl⟩ := Prod.mk.inj same
  obtain ⟨_, made, rfl⟩ := List.mem_filterMap.mp listed
  obtain ⟨flag, _, here⟩ := exists_mem_of_forall₂ (forall₂_of_mapM accordionsOk) made
  rw [accordion?] at here
  split at here
  · cases named : Attribute.ofBrowseName? flag.name with
    | none =>
        rw [named] at here
        exact absurd (Except.ok.inj here) (by simp)
    | some attr =>
        rw [named] at here
        obtain ⟨controls, controlsOk, here⟩ := bind_eq_ok.mp here
        obtain rfl := Option.some.inj (Except.ok.inj here)
        exact ⟨flag, controls, Attribute.ofBrowseName?_eq_some.mp named, controlsOk, inAccordion⟩
  · exact absurd (Except.ok.inj here) (by simp)

/-- A layout can be made if the severity has its criterion. -/
theorem generate_ok (siblings : configuration.Distinct) {shows : Bool}
    (known : configuration.showsSeverity = .ok shows) (lexicon : Lexicon) :
    ∃ layout, generate lexicon configuration = .ok layout := by
  obtain ⟨severity, required, known⟩ := bind_eq_ok.mp known
  obtain ⟨criterion, criterionFound, _⟩ := bind_eq_ok.mp known
  have severityFound := Configuration.requireAttribute_eq_ok.mp required
  have controls (flag : Flag) (member : flag ∈ configuration.attributes) :
      ∃ controls, controlsOf lexicon configuration flag = .ok controls := by
    rw [controlsOf]
    split
    · exact ⟨_, rfl⟩
    · split
      · next named =>
          have found := Configuration.attribute?_of_mem siblings.attributes member
          rw [named, severityFound] at found
          obtain rfl := Option.some.inj found
          rw [criterionFound]
          simp only [bind, Except.bind]
          split
          · exact ⟨_, rfl⟩
          · exact ⟨_, rfl⟩
      · exact ⟨_, rfl⟩
  have accordions (flag : Flag) (member : flag ∈ configuration.attributes) :
      ∃ accordion, accordion? lexicon configuration flag = .ok accordion := by
    obtain ⟨shown, shownOk⟩ := controls flag member
    rw [accordion?, shownOk]
    split
    · cases Attribute.ofBrowseName? flag.name with
      | none => exact ⟨_, rfl⟩
      | some attr => exact ⟨_, rfl⟩
    · exact ⟨_, rfl⟩
  obtain ⟨made, madeOk⟩ := mapM_ok accordions
  exact ⟨_, by rw [generate, madeOk]; rfl⟩

end Layout

theorem Flag.mem_controlKeys {flag : Flag} {attr : Attribute} {name : String} :
    (attr, name) ∈ flag.controlKeys ↔
      flag.name = attr.browseName ∧ flag.enabled ∧ name ∈ flag.controlNames := by
  rw [Flag.controlKeys, eq_comm (a := flag.name), ← Attribute.ofBrowseName?_eq_some]
  cases Attribute.ofBrowseName? flag.name with
  | none => simp
  | some other => cases flag.enabled <;> simp [and_comm, eq_comm]

theorem Flag.mem_controlNames {flag : Flag} {name : String} :
    name ∈ flag.controlNames ↔
      ∃ criterion ∈ flag.children, criterion.name = name ∧ criterion.enabled ∧
        isRangeValue name = false ∧
          (flag.name = BrowseName.severity → name = BrowseName.severity) := by
  rw [Flag.controlNames]
  constructor
  · intro member
    obtain ⟨criterion, kept, rfl⟩ := List.mem_map.mp member
    obtain ⟨listed, shown⟩ := List.mem_filter.mp kept
    refine ⟨criterion, listed, rfl, ?_⟩
    simpa [Flag.hasControl, and_assoc, imp_iff_not_or] using shown
  · intro given
    obtain ⟨criterion, listed, rfl, shown⟩ := given
    refine List.mem_map_of_mem (List.mem_filter.mpr ⟨listed, ?_⟩)
    simpa [Flag.hasControl, and_assoc, imp_iff_not_or] using shown

theorem Flag.controlNames_sublist (flag : Flag) :
    flag.controlNames.Sublist (flag.children.map (·.name)) :=
  List.filter_sublist.map _

/-- Whether a name is that of a bound of the event time. -/
def BrowseName.isBoundName (name : String) : Bool :=
  name == fromEventTime || name == toEventTime

namespace Configuration

theorem mem_controlKeys {attr : Attribute} {name : String} :
    (attr, name) ∈ configuration.controlKeys ↔
      ∃ flag ∈ configuration.attributes, flag.name = attr.browseName ∧ flag.enabled ∧
        name ∈ flag.controlNames := by
  simp only [controlKeys, List.mem_flatMap, Flag.mem_controlKeys]

theorem mem_controlKeys_iff (siblings : configuration.Distinct) {attr : Attribute}
    {name : String} :
    (attr, name) ∈ configuration.controlKeys ↔
      configuration.Enables attr.browseName name ∧ isRangeValue name = false ∧
        (attr = .severity → name = BrowseName.severity) := by
  have own : attr = .severity ↔ attr.browseName = BrowseName.severity :=
    (Attribute.browseName_injective.eq_iff (b := Attribute.severity)).symm
  rw [mem_controlKeys, enables_iff siblings, own]
  constructor
  · intro given
    obtain ⟨flag, member, named, enabled, controlled⟩ := given
    obtain ⟨criterion, listed, called, shown, free, limited⟩ := Flag.mem_controlNames.mp controlled
    exact ⟨⟨flag, member, named, enabled, criterion, listed, called, shown⟩, free,
      named ▸ limited⟩
  · intro given
    obtain ⟨⟨flag, member, named, enabled, criterion, listed, called, shown⟩, free, limited⟩ :=
      given
    exact ⟨flag, member, named, enabled, Flag.mem_controlNames.mpr
      ⟨criterion, listed, called, shown, free, named.symm ▸ limited⟩⟩

theorem mem_controlKeys_of_opens (siblings : configuration.Distinct) {gates : RangeGates}
    (usable : configuration.rangeGates = .ok gates) (bound : RangeBound)
    (opened : gates.opens bound) : (bound.attr, bound.browseName) ∈ configuration.controlKeys := by
  have free : isRangeValue bound.browseName = false ∧
      (bound.attr = .severity → bound.browseName = BrowseName.severity) := by
    cases bound <;> decide
  exact (mem_controlKeys_iff siblings).mpr ⟨(opens_iff usable bound).mp opened, free⟩

private theorem controlKeys_of_attr (siblings : configuration.Distinct) {flag : Flag}
    (member : flag ∈ configuration.attributes) {attr : Attribute}
    (named : flag.name = attr.browseName) :
    configuration.controlKeys.filter (·.1 == attr) = flag.controlKeys := by
  have byName : (configuration.controlKeys.filter fun key => key.1 == attr) =
      configuration.controlKeys.filter fun key => key.1.browseName == flag.name :=
    List.filter_congr fun key _ => by simp [named, Attribute.browseName_injective.eq_iff]
  rw [byName, controlKeys, filter_flatMap_of_names siblings.attributes]
  · rw [find?_of_mem Flag.name siblings.attributes member]
  · rintro other _ ⟨key, name⟩ shown
    exact (Flag.mem_controlKeys.mp shown).1.symm

theorem nodup_controlKeys (siblings : configuration.Distinct) :
    configuration.controlKeys.Nodup := by
  refine List.nodup_flatMap.mpr ⟨?_, ?_⟩
  · intro flag member
    rw [Flag.controlKeys]
    have distinct := (siblings.criteria flag member).sublist flag.controlNames_sublist
    cases Attribute.ofBrowseName? flag.name with
    | none => exact .nil
    | some attr => cases flag.enabled <;> simp [distinct.map (Prod.mk_right_injective attr)]
  · apply (List.pairwise_map.mp siblings.attributes).imp
    intro first second different
    rintro ⟨attr, name⟩ inFirst inSecond
    exact different ((Flag.mem_controlKeys.mp inFirst).1.trans
      (Flag.mem_controlKeys.mp inSecond).1.symm)

/-- Whether the names of ranges are used for criteria only below the range attributes. -/
def RangesInPlace (configuration : Configuration) : Prop :=
  ∀ flag ∈ configuration.attributes, ∀ criterion ∈ flag.children,
    (RangeBound.ofBrowseName? criterion.name).isSome →
      flag.name = BrowseName.eventTime ∨ flag.name = BrowseName.severity

theorem eventTime_of_bound (inPlace : configuration.RangesInPlace) {attr : Attribute}
    {name : String} (shown : (attr, name) ∈ configuration.controlKeys) (bound : isBoundName name) :
    attr = .eventTime := by
  obtain ⟨flag, member, named, _, listed⟩ := mem_controlKeys.mp shown
  obtain ⟨criterion, criterionMember, rfl, _, _, own⟩ := Flag.mem_controlNames.mp listed
  have isRange : (RangeBound.ofBrowseName? criterion.name).isSome := by
    simp only [isBoundName, Bool.or_eq_true, beq_iff_eq] at bound
    rcases bound with lower | upper
    · rw [lower]
      decide
    · rw [upper]
      decide
  apply Attribute.browseName_injective
  rcases inPlace flag member criterion criterionMember isRange with eventTime | severity
  · exact named.symm.trans eventTime
  · rw [own severity] at bound
    exact absurd bound (by decide)

private theorem bounds_children (grown : configuration.Grown) {flag : Flag}
    (member : flag ∈ configuration.attributes) (named : flag.name = BrowseName.eventTime) :
    (flag.children.map (·.name)).filter isBoundName = [fromEventTime, toEventTime] := by
  obtain ⟨rest, names⟩ := grown.bounds member named
  have distinct := grown.criteria flag member
  rw [← names] at distinct ⊢
  have others : rest.filter isBoundName = [] := by
    apply List.filter_eq_nil_iff.mpr
    intro name listed bound
    simp only [isBoundName, Bool.or_eq_true, beq_iff_eq] at bound
    have inFront : name ∈ [fromEventTime, toEventTime] := by simpa using bound
    exact (List.nodup_append'.mp distinct).2.2 inFront listed
  rw [List.filter_append, others]
  rfl

/-- The controls of the bounds stand below the event time, the lower bound first. -/
theorem bounds_controlKeys (grown : configuration.Grown) (inPlace : configuration.RangesInPlace) :
    (configuration.controlKeys.filter fun key => isBoundName key.2).Sublist
      [(.eventTime, fromEventTime), (.eventTime, toEventTime)] := by
  obtain ⟨flag, member, named⟩ := grown.exists_flag .eventTime
  have belowEventTime : (configuration.controlKeys.filter fun key => isBoundName key.2) =
      (configuration.controlKeys.filter (·.1 == .eventTime)).filter fun key =>
        isBoundName key.2 := by
    rw [List.filter_filter]
    apply List.filter_congr
    rintro ⟨attr, name⟩ shown
    by_cases bound : isBoundName name
    · simp [bound, eventTime_of_bound inPlace shown bound]
    · simp [bound]
  have ordered := flag.controlNames_sublist.filter isBoundName
  rw [bounds_children grown member named] at ordered
  rw [belowEventTime, controlKeys_of_attr grown.siblings member named, Flag.controlKeys,
    Attribute.ofBrowseName?_eq_some.mpr named.symm]
  cases flag.enabled with
  | false => simp
  | true => simpa [List.filter_map, Function.comp_def] using ordered.map (Attribute.eventTime, ·)

end Configuration

namespace Controls

variable {now : Instant} {layout : Layout}

/-- What one kind of control establishes and no other one touches holds of the controls of a list
exactly if it has one of that kind. -/
theorem foldl_register_iff (holds : Controls → Prop) {establishes : Control → Prop}
    (step : ∀ controls control,
      holds (register now controls control) ↔ establishes control ∨ holds controls)
    (list : List Control) (start : Controls) :
    holds (list.foldl (register now) start) ↔
      (∃ control ∈ list, establishes control) ∨ holds start := by
  induction list generalizing start with
  | nil => simp
  | cons control rest ih =>
      rw [List.foldl_cons, ih, step, List.exists_mem_cons_iff, or_assoc, or_left_comm]

theorem instant?_ofLayout_iff {name : String} :
    ((ofLayout now layout).instant? name).isSome ↔
      ∃ label attr, (attr, .dateTimeRow name label) ∈ layout.controls := by
  have step (controls : Controls) (control : Control) :
      ((register now controls control).instant? name).isSome ↔
        (∃ label, control = .dateTimeRow name label) ∨ (controls.instant? name).isSome := by
    cases control with
    | dateTimeRow other label =>
        rw [register, instant?, Table.get?_insert]
        by_cases same : name = other
        · simp [same]
        · simp [same, Ne.symm same, instant?]
    | checkBox | severityRow => simp [register, instant?]
  rw [ofLayout, foldl_register_iff (fun controls => (controls.instant? name).isSome) step]
  simp [empty, instant?]

/-- Setting a picker reaches the picker of its name, if there is one, and no other one. -/
theorem instant?_setInstant? (controls : Controls) (name : String) (value : Instant)
    (other : String) :
    ((controls.setInstant? name value).getD controls).instant? other =
      (controls.instant? other).map fun shown => if other = name then value else shown := by
  rw [instant?, instant?, ← Table.get?_insert_if_contains, setInstant?]
  split <;> rfl

theorem setInstant?_textBoxes (controls : Controls) (name : String) (value : Instant) :
    ((controls.setInstant? name value).getD controls).textBoxes = controls.textBoxes := by
  rw [setInstant?]
  split <;> rfl

/-- Setting a text box reaches the text box of its name, if there is one, and no other one. -/
theorem text?_setText? (controls : Controls) (name text other : String) :
    ((controls.setText? name text).getD controls).text? other =
      (controls.text? other).map fun shown => if other = name then text else shown := by
  rw [text?, text?, ← Table.get?_insert_if_contains, setText?]
  split <;> rfl

theorem setText?_pickers (controls : Controls) (name text : String) :
    ((controls.setText? name text).getD controls).pickers = controls.pickers := by
  rw [setText?]
  split <;> rfl

end Controls

end AlarmView
