import AlarmView.Proofs.Panel.Session

/-!
# Edits in any order

The references of an operator are taken one after the other, the checking ones first.  In a panel
whose filters have different attributes or names it only matters which filters they name: the edits
are accepted exactly if each of them names one, and unchecking wins over checking.  Values and texts
reach the controls of their names and no others.
-/

namespace AlarmView

open BrowseName

def FilterReference.key (reference : FilterReference) : Attribute × String :=
  (reference.attr, reference.name)

/-- The reference that names a filter. -/
def Filter.reference (filter : Filter) : FilterReference where
  attr := filter.attr
  name := filter.name

namespace Panel

variable {panel : Panel} {checked : Bool}

private theorem instant?_enterInstant (name : String) (value : Option Instant) (controls : Controls)
    (other : String) : (enterInstant name value controls).instant? other =
      (controls.instant? other).map fun shown => if other = name then value.getD shown else shown := by
  cases value with
  | none => simp [enterInstant]
  | some value => exact controls.instant?_setInstant? name value other

private theorem text?_enterInstant (name : String) (value : Option Instant) (controls : Controls)
    (other : String) : (enterInstant name value controls).text? other = controls.text? other := by
  cases value with
  | none => rfl
  | some value => rw [enterInstant, Controls.text?, Controls.setInstant?_textBoxes, Controls.text?]

private theorem text?_enterText (name : String) (text : Option String) (controls : Controls)
    (other : String) : (enterText name text controls).text? other =
      (controls.text? other).map fun shown => if other = name then text.getD shown else shown := by
  cases text with
  | none => simp [enterText]
  | some text => exact controls.text?_setText? name text other

private theorem instant?_enterText (name : String) (text : Option String) (controls : Controls)
    (other : String) : (enterText name text controls).instant? other = controls.instant? other := by
  cases text with
  | none => rfl
  | some text => rw [enterText, Controls.instant?, Controls.setText?_pickers, Controls.instant?]

/-- A filter, checked or unchecked if one of some references names it. -/
def mark (checked : Bool) (references : List FilterReference) (filter : Filter) : Filter :=
  if filter.reference ∈ references then { filter with checked } else filter

/-- The panel with the filters checked or unchecked that some references name. -/
def marked (checked : Bool) (references : List FilterReference) (panel : Panel) : Panel :=
  { panel with
    filters :=
      { panel.filters with filters := panel.filters.filters.map (mark checked references) } }

theorem reference_mark (checked : Bool) (references : List FilterReference) (filter : Filter) :
    (mark checked references filter).reference = filter.reference := by
  rw [mark]
  split <;> rfl

@[simp]
theorem keys_marked (checked : Bool) (references : List FilterReference) (panel : Panel) :
    (panel.marked checked references).keys = panel.keys := by
  rw [keys, marked, List.map_map]
  refine List.map_congr_left fun filter _ => ?_
  exact congrArg FilterReference.key (reference_mark checked references filter)

private theorem marked_nil (checked : Bool) (panel : Panel) : panel.marked checked [] = panel := by
  have same : mark checked [] = id := rfl
  rw [marked, same, List.map_id]

private theorem marked_marked (checked : Bool) (first second : List FilterReference)
    (panel : Panel) :
    (panel.marked checked first).marked checked second = panel.marked checked (first ++ second) := by
  have twice (filter : Filter) : mark checked second (mark checked first filter) =
      mark checked (first ++ second) filter := by
    rw [mark, reference_mark, mark, mark]
    by_cases early : filter.reference ∈ first
    · by_cases late : filter.reference ∈ second <;> simp [early, late]
    · simp [early]
  simp only [marked, List.map_map, Function.comp_def, twice]

private theorem marked_congr {first second : List FilterReference}
    (same : ∀ reference, reference ∈ first ↔ reference ∈ second) (checked : Bool) (panel : Panel) :
    panel.marked checked first = panel.marked checked second := by
  have alike : mark checked first = mark checked second := by
    funext filter
    simp only [mark, same]
  rw [marked, marked, alike]

/-- Among filters with different keys the first one of a key is the only one. -/
theorem checkNamed_eq {filters : List Filter} {attr : Attribute} {name : String}
    (distinct : (filters.map fun filter => (filter.attr, filter.name)).Nodup) :
    FilterSet.checkNamed attr name checked filters =
      filters.map (mark checked [{ attr, name }]) := by
  induction filters with
  | nil => rfl
  | cons head rest ih =>
      obtain ⟨absent, restDistinct⟩ := List.nodup_cons.mp distinct
      rw [FilterSet.checkNamed, List.map_cons, ih restDistinct]
      by_cases here : head.attr = attr ∧ head.name = name
      · obtain ⟨rfl, rfl⟩ := here
        have others : rest.map (mark checked [head.reference]) = rest := by
          refine (List.map_congr_left fun filter listed => ?_).trans (List.map_id rest)
          refine if_neg fun named => absent ?_
          exact List.mem_map.mpr
            ⟨filter, listed, congrArg FilterReference.key (List.mem_singleton.mp named)⟩
        rw [Filter.reference] at others
        simp [Filter.isNamed, mark, Filter.reference, others]
      · simp [Filter.isNamed, mark, Filter.reference, here]

private theorem find?_isSome (filters : FilterSet) (attr : Attribute) (name : String) :
    (filters.find? attr name).isSome = true ↔
      (attr, name) ∈ filters.filters.map fun filter => (filter.attr, filter.name) := by
  simp [FilterSet.find?, Filter.isNamed]

private theorem setChecked_eq (distinct : panel.keys.Nodup) (attr : Attribute) (name : String) :
    panel.setChecked attr name checked =
      if (attr, name) ∈ panel.keys then .ok (panel.marked checked [{ attr, name }])
      else .error (.notFound attr name) := by
  rw [setChecked, FilterSet.setChecked, checkNamed_eq distinct]
  by_cases known : (attr, name) ∈ panel.keys
  · rw [if_pos ((find?_isSome panel.filters attr name).mpr known), if_pos known]
    rfl
  · rw [if_neg fun found => known ((find?_isSome panel.filters attr name).mp found),
      if_neg known]
    rfl

/-- The first of some references that names no filter of the panel. -/
def stranger? (panel : Panel) (references : List FilterReference) : Option FilterReference :=
  references.find? fun reference => !panel.keys.contains reference.key

private theorem stranger?_eq_none {references : List FilterReference} :
    panel.stranger? references = none ↔
      ∀ reference ∈ references, reference.key ∈ panel.keys := by
  simp [stranger?]

private theorem stranger?_append (first second : List FilterReference) :
    panel.stranger? (first ++ second) = (panel.stranger? first).or (panel.stranger? second) :=
  List.find?_append

@[simp]
theorem stranger?_marked (named references : List FilterReference) :
    (panel.marked checked named).stranger? references = panel.stranger? references := by
  rw [stranger?, stranger?, keys_marked]

/-- References are taken up to the first that names no filter; without one, all filters that they
name are marked at once. -/
theorem checkAll_eq (distinct : panel.keys.Nodup) (references : List FilterReference) :
    panel.checkAll checked references =
      match panel.stranger? references with
      | some stranger => .error (.notFound stranger.attr stranger.name)
      | none => .ok (panel.marked checked references) := by
  induction references generalizing panel with
  | nil =>
      rw [marked_nil]
      rfl
  | cons reference rest ih =>
      rw [checkAll, List.foldlM_cons, setChecked_eq distinct, stranger?, List.find?_cons]
      by_cases known : reference.key ∈ panel.keys
      · have later := @ih (panel.marked checked [reference]) (by rwa [keys_marked])
        rw [stranger?_marked, marked_marked] at later
        rw [if_pos (show (reference.attr, reference.name) ∈ panel.keys from known)]
        rw [List.contains_iff_mem.mpr known]
        exact later
      · rw [if_neg (show (reference.attr, reference.name) ∉ panel.keys from known)]
        have unknown : panel.keys.contains reference.key = false := by simpa using known
        rw [unknown]
        rfl

end Panel

namespace PanelEdits

/-- The value for a picker, if there is one among the edits. -/
def instantFor? (edits : PanelEdits) (name : String) : Option Instant :=
  if name = fromEventTime then edits.fromTime
  else if name = toEventTime then edits.toTime
  else none

/-- The text for a text box, if there is one among the edits. -/
def textFor? (edits : PanelEdits) (name : String) : Option String :=
  if name = BrowseName.fromSeverity then edits.fromSeverity
  else if name = BrowseName.toSeverity then edits.toSeverity
  else none

/-- The checked state that the edits leave a filter with: unchecking wins over checking. -/
def leaves (edits : PanelEdits) (filter : Filter) : Bool :=
  if filter.reference ∈ edits.unchecks then false
  else if filter.reference ∈ edits.checks then true
  else filter.checked

/-- Whether other edits name the same filters and give the same limits. -/
structure SameAs (edits others : PanelEdits) : Prop where
  checks : ∀ reference, reference ∈ edits.checks ↔ reference ∈ others.checks
  unchecks : ∀ reference, reference ∈ edits.unchecks ↔ reference ∈ others.unchecks
  limits : others = { edits with checks := others.checks, unchecks := others.unchecks }

/-- What the edits make of a panel. -/
structure Settle (edits : PanelEdits) (panel edited : Panel) : Prop where
  filters : edited.filters.filters =
    panel.filters.filters.map fun filter => { filter with checked := edits.leaves filter }
  instants : ∀ name, edited.controls.instant? name =
    (panel.controls.instant? name).map fun shown => (edits.instantFor? name).getD shown
  texts : ∀ name, edited.controls.text? name =
    (panel.controls.text? name).map fun shown => (edits.textFor? name).getD shown
  rest : edited =
    { panel with
      filters := { panel.filters with filters := edited.filters.filters }
      controls := edited.controls }

end PanelEdits

namespace Panel

variable {panel : Panel} {edits others : PanelEdits}

def enterLimits (edits : PanelEdits) (controls : Controls) : Controls :=
  let controls := enterInstant fromEventTime edits.fromTime controls
  let controls := enterInstant toEventTime edits.toTime controls
  let controls := enterText fromSeverity edits.fromSeverity controls
  enterText toSeverity edits.toSeverity controls

/-- The panel after all edits, if each of them names a filter. -/
def edited (edits : PanelEdits) (panel : Panel) : Panel :=
  { (panel.marked true edits.checks).marked false edits.unchecks with
    controls := enterLimits edits panel.controls }

private theorem edit_eq (distinct : panel.keys.Nodup) (edits : PanelEdits) :
    panel.edit edits =
      match panel.stranger? (edits.checks ++ edits.unchecks) with
      | some stranger => .error (.notFound stranger.attr stranger.name)
      | none => .ok (panel.edited edits) := by
  rw [edit, checkAll_eq distinct, stranger?_append]
  cases panel.stranger? edits.checks with
  | some stranger => rfl
  | none =>
      simp only [Option.none_or, bind, Except.bind]
      rw [checkAll_eq (by rwa [keys_marked]), stranger?_marked]
      cases panel.stranger? edits.unchecks with
      | some stranger => rfl
      | none => rfl

private theorem edit_eq_ok (distinct : panel.keys.Nodup) {result : Panel} :
    panel.edit edits = .ok result ↔
      (∀ reference ∈ edits.checks ++ edits.unchecks, reference.key ∈ panel.keys) ∧
        panel.edited edits = result := by
  rw [edit_eq distinct, ← stranger?_eq_none]
  cases panel.stranger? (edits.checks ++ edits.unchecks) <;> simp

private theorem instant?_enterLimits (edits : PanelEdits) (controls : Controls) (name : String) :
    (enterLimits edits controls).instant? name =
      (controls.instant? name).map fun shown => (edits.instantFor? name).getD shown := by
  have other : toEventTime ≠ fromEventTime := by decide
  rw [enterLimits, instant?_enterText, instant?_enterText, instant?_enterInstant,
    instant?_enterInstant, Option.map_map]
  congr 1
  funext shown
  by_cases start : name = fromEventTime
  · simp [PanelEdits.instantFor?, start, Ne.symm other]
  · by_cases finish : name = toEventTime <;> simp [PanelEdits.instantFor?, start, finish, other]

private theorem text?_enterLimits (edits : PanelEdits) (controls : Controls) (name : String) :
    (enterLimits edits controls).text? name =
      (controls.text? name).map fun shown => (edits.textFor? name).getD shown := by
  have other : toSeverity ≠ fromSeverity := by decide
  rw [enterLimits, text?_enterText, text?_enterText, text?_enterInstant, text?_enterInstant,
    Option.map_map]
  congr 1
  funext shown
  by_cases lower : name = fromSeverity
  · simp [PanelEdits.textFor?, lower, Ne.symm other]
  · by_cases upper : name = toSeverity <;> simp [PanelEdits.textFor?, lower, upper, other]

private theorem mark_mark (edits : PanelEdits) (filter : Filter) :
    mark false edits.unchecks (mark true edits.checks filter) =
      { filter with checked := edits.leaves filter } := by
  rw [mark, reference_mark, PanelEdits.leaves]
  by_cases unchecked : filter.reference ∈ edits.unchecks
  · rw [if_pos unchecked, if_pos unchecked, mark]
    split <;> rfl
  · rw [if_neg unchecked, if_neg unchecked, mark]
    split <;> rfl

private theorem settle_edited (edits : PanelEdits) (panel : Panel) :
    edits.Settle panel (panel.edited edits) where
  filters := by
    simp only [edited, marked, List.map_map, Function.comp_def, mark_mark]
  instants := instant?_enterLimits edits panel.controls
  texts := text?_enterLimits edits panel.controls
  rest := rfl

private theorem edited_congr (same : edits.SameAs others) (panel : Panel) :
    panel.edited edits = panel.edited others := by
  have limits : enterLimits edits = enterLimits others := by
    rw [same.limits]
    rfl
  rw [edited, edited, marked_congr same.checks, marked_congr same.unchecks, limits]

/-- Edits are accepted exactly if each reference names a filter of the panel.  Then each filter is
unchecked, checked or left as it is by what names it, in whatever order and however often, each limit
reaches the control of its name, and nothing else changes. -/
theorem edit_settles (distinct : panel.keys.Nodup) (edits : PanelEdits) :
    ((∃ edited, panel.edit edits = .ok edited) ↔
        ∀ reference ∈ edits.checks ++ edits.unchecks, reference.key ∈ panel.keys) ∧
      (∀ edited, panel.edit edits = .ok edited → edits.Settle panel edited) ∧
        ∀ others, edits.SameAs others → ∀ edited, panel.edit edits = .ok edited →
          panel.edit others = .ok edited := by
  refine ⟨?_, ?_, ?_⟩
  · constructor
    · intro ⟨edited, accepted⟩
      exact ((edit_eq_ok distinct).mp accepted).1
    · intro known
      exact ⟨_, (edit_eq_ok distinct).mpr ⟨known, rfl⟩⟩
  · intro edited accepted
    obtain ⟨_, rfl⟩ := (edit_eq_ok distinct).mp accepted
    exact settle_edited edits panel
  · intro others same edited accepted
    obtain ⟨known, rfl⟩ := (edit_eq_ok distinct).mp accepted
    refine (edit_eq_ok distinct).mpr ⟨fun reference listed => known reference ?_, ?_⟩
    · simpa only [List.mem_append, same.checks, same.unchecks] using listed
    · exact (edited_congr same panel).symm

/-- A filter that is named twice and both ways is unchecked, and a time for a hidden bound is passed
over. -/
theorem edit_settles_overlapping :
    let configuration : Configuration :=
      { attributes :=
          [{ name := "EventTime", enabled := true
             children := [.single "FromEventTime" false, .single "ToEventTime" true] },
            .ofChildren "Severity" true ["Severity"],
            .ofChildren "Priority" true ["Urgent", "High"]] }
    let edits : PanelEdits :=
      { checks := [⟨.priority, "High"⟩, ⟨.priority, "Urgent"⟩, ⟨.priority, "High"⟩]
        unchecks := [⟨.priority, "High"⟩]
        fromTime := some .unixEpoch, toTime := some .unixEpoch
        fromSeverity := none, toSeverity := some "700" }
    ∃ panel edited,
      (openOn .unixEpoch configuration .empty { editModel := "Alarms", widget := "Panel" } .empty
        .idle).2 = .ok panel ∧ panel.keys.Nodup ∧
      panel.edit edits = .ok edited ∧ edits.Settle panel edited ∧
      edited.filters.filters.map (fun filter => (filter.name, filter.checked)) =
        [("ToEventTime", false), ("Severity", false), ("Urgent", true), ("High", false)] ∧
      edited.controls.instant? "FromEventTime" = none ∧
      edited.controls.text? "ToSeverity" = some "700" := by
  intro configuration edits
  have opens : (openOn .unixEpoch configuration .empty { editModel := "Alarms", widget := "Panel" }
      .empty .idle).2.toOption.any (fun panel =>
        panel.filters.filters.map (fun filter => (filter.attr, filter.name, filter.checked)) =
            [(.eventTime, "ToEventTime", false), (.severity, "Severity", false),
              (.priority, "Urgent", false), (.priority, "High", false)] ∧
          panel.controls.instant? "FromEventTime" = none ∧
          panel.controls.text? "ToSeverity" = some "1000") = true := by
    decide +kernel
  generalize (openOn .unixEpoch configuration .empty { editModel := "Alarms", widget := "Panel" }
      .empty .idle).2 = opened at opens
  cases opened with
  | error error => exact absurd opens Bool.false_ne_true
  | ok panel =>
      obtain ⟨filters, noPicker, textBox⟩ := of_decide_eq_true opens
      have keys : panel.keys = [(.eventTime, "ToEventTime"), (.severity, "Severity"),
          (.priority, "Urgent"), (.priority, "High")] := by
        have parts := congrArg (List.map fun part : Attribute × String × Bool => (part.1, part.2.1))
          filters
        rw [List.map_map] at parts
        exact parts
      have distinct : panel.keys.Nodup := by
        rw [keys]
        decide
      obtain ⟨accepts, settles, _⟩ := edit_settles distinct edits
      have known : ∀ reference ∈ edits.checks ++ edits.unchecks, reference.key ∈ panel.keys := by
        rw [keys]
        decide
      obtain ⟨edited, accepted⟩ := accepts.mpr known
      have settled := settles edited accepted
      refine ⟨panel, edited, rfl, distinct, accepted, settled, ?_, ?_, ?_⟩
      · have states := congrArg (List.map fun part : Attribute × String × Bool =>
          (part.2.1, edits.leaves ⟨part.1, part.2.1, .range .severity, part.2.2⟩)) filters
        rw [settled.filters, List.map_map]
        rw [List.map_map] at states
        exact states.trans (by decide)
      · rw [settled.instants, noPicker]
        rfl
      · rw [settled.texts, textBox]
        decide

end Panel

end AlarmView
