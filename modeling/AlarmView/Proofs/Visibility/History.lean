import AlarmView.Proofs.Visibility

/-!
# Histories of edits

A configuration is a map from attributes, and from attributes with a criterion, to switches.  After
any history of edits a switch is where the last edit of it that succeeded left it, and only new
criteria stand behind the old ones.
-/

namespace AlarmView

open BrowseName

namespace Flag

variable {name : String} {change : Flag → Flag} {base flag later : Flag}

theorem find?_updateNamed (keeps : ∀ flag, (change flag).name = flag.name) (other : String)
    (flags : List Flag) :
    (updateNamed name change flags).find? (·.name == other) =
      if other = name then (flags.find? (·.name == name)).map change
      else flags.find? (·.name == other) := by
  induction flags with
  | nil => simp [updateNamed]
  | cons head rest ih =>
      rw [updateNamed]
      by_cases here : head.name = name
      · subst here
        by_cases same : other = head.name
        · simp [keeps, same]
        · simp [keeps, same, Ne.symm same]
      · by_cases same : head.name = other
        · subst same
          simp [here]
        · simp [here, same, ih]

private theorem child?_setChild (enabled : Bool) (flag : Flag) (other : String) :
    ((setChild name enabled flag).child? other).map (·.enabled) =
      if other = name then some enabled else (flag.child? other).map (·.enabled) := by
  rw [setChild]
  split
  · next known =>
      obtain ⟨child, found⟩ := Option.isSome_iff_exists.mp known
      rw [child?] at found
      simp only [child?]
      rw [find?_updateNamed (fun flag => show (set enabled flag).name = flag.name from rfl), found]
      split
      · rfl
      · rfl
  · next unknown =>
      have absent : flag.children.find? (·.name == name) = none := by simpa [child?] using unknown
      simp only [child?, List.find?_append]
      by_cases same : other = name
      · subst same
        simp [absent, single]
      · simp [same, Ne.symm same, single]

/-- The switch of a flag itself, or of one of its criteria. -/
def switch? (flag : Flag) : Option String → Option Bool
  | none => some flag.enabled
  | some name => (flag.child? name).map (·.enabled)

theorem setAt_name (criterion : Option String) (enabled : Bool) (flag : Flag) :
    (setAt criterion enabled flag).name = flag.name := by
  cases criterion with
  | none => rfl
  | some name => exact setChild_name enabled flag

private theorem switch?_setAt (criterion other : Option String) (enabled : Bool) (flag : Flag) :
    (setAt criterion enabled flag).switch? other =
      if other = criterion then some enabled else flag.switch? other := by
  cases criterion with
  | none =>
      cases other with
      | none => rfl
      | some _ => rfl
  | some name =>
      cases other with
      | none =>
          rw [if_neg (by simp)]
          simp only [setAt, setChild]
          split
          · rfl
          · rfl
      | some other =>
          simp only [setAt, switch?, Option.some.injEq]
          exact child?_setChild enabled flag other

/-- Whether a flag can be a criterion that an edit introduced. -/
structure Fresh (flag : Flag) : Prop where
  children : flag.children = []
  criterion : isRangeValue flag.name = false

/-- Whether flags are others in the same order, up to their switches, with only fresh ones behind
them. -/
inductive Continues : List Flag → List Flag → Prop where
  | added {flags : List Flag} (fresh : ∀ flag ∈ flags, flag.Fresh) : Continues [] flags
  | kept {base flag : Flag} {before after : List Flag} (name : flag.name = base.name)
      (children : flag.children = base.children) (rest : Continues before after) :
      Continues (base :: before) (flag :: after)

namespace Continues

variable {before between after : List Flag}

theorem append (flags : List Flag) {added : List Flag} (fresh : ∀ flag ∈ added, flag.Fresh) :
    Continues flags (flags ++ added) := by
  induction flags with
  | nil => exact .added fresh
  | cons head rest ih => exact .kept rfl rfl ih

theorem refl (flags : List Flag) : Continues flags flags := by
  simpa using append flags (List.forall_mem_nil Fresh)

private theorem updateNamed_set (name : String) (enabled : Bool) (flags : List Flag) :
    Continues flags (updateNamed name (set enabled) flags) := by
  induction flags with
  | nil => exact .refl []
  | cons head rest ih =>
      rw [updateNamed]
      split
      · exact .kept rfl rfl (.refl rest)
      · exact .kept rfl rfl ih

private theorem fresh (continued : Continues before after) (start : ∀ flag ∈ before, flag.Fresh) :
    ∀ flag ∈ after, flag.Fresh := by
  induction continued with
  | added fresh => exact fresh
  | @kept base flag _ _ name children _ ih =>
      have startHead := start base List.mem_cons_self
      have head : flag.Fresh := ⟨children.trans startHead.children, name ▸ startHead.criterion⟩
      have tail := ih fun other member => start other (List.mem_cons_of_mem _ member)
      exact List.forall_mem_cons.mpr ⟨head, tail⟩

private theorem trans (first : Continues before between) (second : Continues between after) :
    Continues before after := by
  induction first generalizing after with
  | added fresh => exact .added (second.fresh fresh)
  | kept name children _ ih =>
      cases second with
      | kept nextName nextChildren rest =>
          exact .kept (nextName.trans name) (nextChildren.trans children) (ih rest)

end Continues

/-- Whether a flag is another one, up to its switches, with only fresh criteria behind the old
ones. -/
structure Grows (base flag : Flag) : Prop where
  name : flag.name = base.name
  criteria : Continues base.children flag.children

namespace Grows

theorem refl (flag : Flag) : Grows flag flag := ⟨rfl, .refl _⟩

private theorem trans (first : Grows base flag) (second : Grows flag later) : Grows base later :=
  ⟨second.name.trans first.name, first.criteria.trans second.criteria⟩

private theorem setAt {criterion : Option String}
    (allowed : ∀ name, criterion = some name → isRangeValue name = false) (enabled : Bool)
    (flag : Flag) : Grows flag (flag.setAt criterion enabled) := by
  refine ⟨setAt_name criterion enabled flag, ?_⟩
  cases criterion with
  | none => exact .refl _
  | some name =>
      simp only [Flag.setAt, setChild]
      split
      · exact .updateNamed_set name enabled flag.children
      · have fresh : (single name enabled).Fresh := ⟨rfl, allowed name rfl⟩
        exact .append flag.children (List.forall_mem_singleton.mpr fresh)

end Grows

end Flag

/-- One call that sets the switch of an attribute, or of one of its criteria. -/
structure FlagEdit where
  attr : String
  criterion : Option String
  enabled : Bool

/-- What the last of some edits of one switch sets it to, if there is one. -/
def FlagEdit.last? (edits : List FlagEdit) (attr : String) (criterion : Option String) :
    Option Bool :=
  (edits.reverse.find? fun edit => edit.attr == attr && edit.criterion == criterion).map (·.enabled)

private theorem FlagEdit.last?_cons (edit : FlagEdit) (edits : List FlagEdit) (attr : String)
    (criterion : Option String) : last? (edit :: edits) attr criterion =
      (last? edits attr criterion).or
        (if attr = edit.attr ∧ criterion = edit.criterion then some edit.enabled else none) := by
  simp only [last?, List.reverse_cons, List.find?_append, Option.map_or]
  congr 1
  by_cases same : attr = edit.attr ∧ criterion = edit.criterion
  · obtain ⟨rfl, rfl⟩ := same
    simp
  · have other : ¬(edit.attr = attr ∧ edit.criterion = criterion) :=
      fun given => same ⟨given.1.symm, given.2.symm⟩
    simp [same, other]

namespace Configuration

variable {configuration changed : Configuration} {attr : String} {criterion : Option String}
  {enabled : Bool} {edit : FlagEdit} {edits : List FlagEdit}

/-- The switch of an attribute, or of one of its criteria. -/
def switch? (configuration : Configuration) (attr : String) (criterion : Option String) :
    Option Bool :=
  (configuration.attribute? attr).bind (·.switch? criterion)

/-- Whether a configuration is another one, up to its switches, with only fresh criteria behind the
old ones of each attribute. -/
def Grows (base configuration : Configuration) : Prop :=
  List.Forall₂ Flag.Grows base.attributes configuration.attributes

private theorem switch?_setEnabled
    (edited : configuration.setEnabled attr criterion enabled = .ok changed) (other : String)
    (place : Option String) :
    changed.switch? other place =
      if other = attr ∧ place = criterion then some enabled
      else configuration.switch? other place := by
  obtain ⟨known, _, rfl⟩ := setEnabled_eq_ok_iff.mp edited
  obtain ⟨flag, found⟩ := Option.isSome_iff_exists.mp (attribute?_isSome.mpr known)
  rw [attribute?] at found
  simp only [switch?, attribute?, updateAttribute]
  rw [Flag.find?_updateNamed (Flag.setAt_name criterion enabled), found]
  by_cases same : other = attr
  · simp [same, found, Flag.switch?_setAt]
  · simp [same]

private theorem grows_setEnabled
    (edited : configuration.setEnabled attr criterion enabled = .ok changed) :
    configuration.Grows changed := by
  obtain ⟨_, allowed, rfl⟩ := setEnabled_eq_ok_iff.mp edited
  exact Flag.forall₂_updateNamed .refl (.setAt allowed enabled) configuration.attributes

namespace Grows

variable {base : Configuration}

theorem refl (configuration : Configuration) : configuration.Grows configuration :=
  List.forall₂_same.mpr fun flag _ => .refl flag

private theorem trans (first : base.Grows configuration) (second : configuration.Grows changed) :
    base.Grows changed :=
  forall₂_trans first second Flag.Grows.trans

end Grows

def apply (configuration : Configuration) (edit : FlagEdit) :
    Except VisibilityError Configuration :=
  configuration.setEnabled edit.attr edit.criterion edit.enabled

/-- The configuration after some edits; one that fails leaves it as it is. -/
def editAll (configuration : Configuration) : List FlagEdit → Configuration
  | [] => configuration
  | edit :: rest =>
      match configuration.apply edit with
      | .ok changed => changed.editAll rest
      | .error _ => configuration.editAll rest

/-- Which of some edits succeed. -/
def successes (configuration : Configuration) : List FlagEdit → List FlagEdit
  | [] => []
  | edit :: rest =>
      match configuration.apply edit with
      | .ok changed => edit :: changed.successes rest
      | .error _ => configuration.successes rest

/-- What holds of a configuration and stays when an edit succeeds holds after a history. -/
theorem holds_editAll (holds : Configuration → Prop) (start : holds configuration)
    (step : ∀ {reached changed : Configuration} {edit : FlagEdit}, holds reached →
      reached.apply edit = .ok changed → holds changed)
    (edits : List FlagEdit) : holds (configuration.editAll edits) := by
  induction edits generalizing configuration with
  | nil => exact start
  | cons edit rest ih =>
      rw [editAll]
      split
      · next changed edited => exact ih (step start edited)
      · exact ih start

private theorem editAll_concat_of_error {error : VisibilityError}
    (failed : (configuration.editAll edits).apply edit = .error error) :
    configuration.editAll (edits ++ [edit]) = configuration.editAll edits := by
  induction edits generalizing configuration with
  | nil =>
      have failed : configuration.apply edit = .error error := failed
      simp [editAll, failed]
  | cons head rest ih =>
      rw [editAll] at failed
      rw [List.cons_append, editAll, editAll]
      split
      · next changed edited => exact ih (by simpa [edited] using failed)
      · next error refused => exact ih (by simpa [refused] using failed)

private theorem distinct_editAll (distinct : configuration.Distinct) (edits : List FlagEdit) :
    (configuration.editAll edits).Distinct :=
  holds_editAll Distinct distinct (fun before edited => before.setEnabled edited) edits

private theorem grows_editAll (configuration : Configuration) (edits : List FlagEdit) :
    configuration.Grows (configuration.editAll edits) :=
  holds_editAll configuration.Grows (.refl configuration)
    (fun before edited => before.trans (grows_setEnabled edited)) edits

private theorem switch?_editAll (configuration : Configuration) (edits : List FlagEdit)
    (attr : String)
    (criterion : Option String) :
    (configuration.editAll edits).switch? attr criterion =
      (FlagEdit.last? (configuration.successes edits) attr criterion).or
        (configuration.switch? attr criterion) := by
  induction edits generalizing configuration with
  | nil => rfl
  | cons edit rest ih =>
      rw [editAll, successes]
      split
      · next changed edited =>
          rw [ih, FlagEdit.last?_cons, Option.or_assoc, switch?_setEnabled edited]
          split
          · rfl
          · rfl
      · exact ih configuration

private theorem builtin_editAll (edits : List FlagEdit) :
    (∃ flags, (builtin.editAll edits).eventTime = .ok flags) ∧
      ∃ shows, (builtin.editAll edits).showsSeverity = .ok shows := by
  have grown : (builtin.editAll edits).Grown :=
    holds_editAll Grown builtin_grown (fun before edited => before.setEnabled edited) edits
  obtain ⟨gates, usable⟩ := grown.usable
  rw [rangeGates] at usable
  cases times : (builtin.editAll edits).eventTime with
  | error error => simp [times, bind, Except.bind] at usable
  | ok flags =>
      cases levels : (builtin.editAll edits).showsSeverity with
      | error error => simp [times, levels, bind, Except.bind] at usable
      | ok shows => exact ⟨⟨flags, rfl⟩, shows, rfl⟩

/-- After any history of edits of a configuration with different names among siblings the names
still are different, nothing is removed or moved and only fresh criteria are added, and every switch
is where the last edit of it that succeeded left it.  The next edit fails only for an unknown
attribute, or else for a criterion with the name of a range value, and then changes nothing.  A
configuration with such a history from the builtin one has its structural attributes. -/
theorem editAll_of_distinct (distinct : configuration.Distinct) (edits : List FlagEdit) :
    let reached := configuration.editAll edits
    reached.Distinct ∧ configuration.Grows reached ∧
      (∀ attr criterion, reached.switch? attr criterion =
        (FlagEdit.last? (configuration.successes edits) attr criterion).or
          (configuration.switch? attr criterion)) ∧
      (∀ edit error, reached.apply edit = .error error ↔
        edit.attr ∉ reached.attributes.map (·.name) ∧ error = .missingAttribute edit.attr ∨
          edit.attr ∈ reached.attributes.map (·.name) ∧ ∃ name, edit.criterion = some name ∧
            isRangeValue name = true ∧ error = .reservedName edit.attr name) ∧
      (∀ edit error, reached.apply edit = .error error →
        configuration.editAll (edits ++ [edit]) = reached) ∧
      (∃ flags, (builtin.editAll edits).eventTime = .ok flags) ∧
      ∃ shows, (builtin.editAll edits).showsSeverity = .ok shows := by
  intro reached
  refine ⟨distinct_editAll distinct edits, grows_editAll configuration edits,
    switch?_editAll configuration edits, fun edit error => setEnabled_eq_error_iff,
    fun edit error => editAll_concat_of_error, builtin_editAll edits⟩

/-- A criterion that is introduced and switched off again, between edits that fail. -/
theorem editAll_of_distinct_introduced :
    let edits : List FlagEdit :=
      [⟨"Class", some "Safety", true⟩, ⟨"Severity", some "FromSeverity", false⟩,
        ⟨"Severity", none, false⟩, ⟨"Bogus", none, true⟩, ⟨"Class", some "Safety", false⟩]
    let reached := builtin.editAll edits
    builtin.Distinct ∧ reached.Distinct ∧ builtin.switch? "Class" (some "Safety") = none ∧
      reached.switch? "Class" (some "Safety") = some false ∧
      reached.switch? "Severity" none = some false ∧
      reached.switch? "Severity" (some "Severity") = some true ∧
      reached.apply ⟨"Class", some "ToEventTimeDateTime", true⟩ =
        .error (.reservedName "Class" "ToEventTimeDateTime") ∧
      builtin.editAll (edits ++ [⟨"Class", some "ToEventTimeDateTime", true⟩]) = reached := by
  intro edits reached
  have siblings : builtin.Distinct := by decide +kernel
  obtain ⟨unique, _, switches, fails, unchanged, _⟩ := editAll_of_distinct siblings edits
  have reserved := (fails ⟨"Class", some "ToEventTimeDateTime", true⟩ _).mpr
    (.inr ⟨by decide +kernel, "ToEventTimeDateTime", rfl, by decide +kernel, rfl⟩)
  refine ⟨siblings, unique, by decide +kernel, ?_, ?_, ?_, reserved, unchanged _ _ reserved⟩
  · exact (switches "Class" (some "Safety")).trans (by decide +kernel)
  · exact (switches "Severity" none).trans (by decide +kernel)
  · exact (switches "Severity" (some "Severity")).trans (by decide +kernel)

end Configuration

end AlarmView
