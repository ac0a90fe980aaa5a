import AlarmView.Proofs.Query.ClauseScan
import Mathlib.Data.List.Forall2

/-!
# Names and wordings in queries

Two lists of filters that differ in the wordings of their fragments only are compiled to queries of
the same structure, if all these wordings are confined.  Nothing less is enough: a wording that is
not confined changes the structure of a query with a single filter.
-/

namespace AlarmView

open Query ScanState OpenRanges

/-- Conditions that the compiler treats in the same way, with texts of the same structure. -/
inductive Condition.Alike : Condition → Condition → Prop where
  | range (bound : RangeBound) : Alike (.range bound) (.range bound)
  | fragment (first second : String) :
      (first = "" ↔ second = "") → scan first.toList = scan second.toList →
      Alike (.fragment first) (.fragment second)

/-- Filters of one attribute with conditions that the compiler treats in the same way. -/
structure Filter.Alike (first second : Filter) : Prop where
  attr : first.attr = second.attr
  checked : first.checked = second.checked
  condition : first.condition.Alike second.condition

namespace OpenRanges

private theorem refusal?_alike {first second : Filter} (alike : first.Alike second)
    {ranges : OpenRanges} (accepted : ranges.refusal? first = none) :
    ranges.refusal? second = none := by
  have conditions := alike.condition
  unfold refusal? at accepted ⊢
  generalize first.condition = left at *
  generalize second.condition = right at *
  cases conditions with
  | range bound => cases bound <;> simpa using accepted
  | fragment first second empty _ => simpa [← empty] using accepted

private theorem closes_alike {first second : List Filter}
    (alike : List.Forall₂ Filter.Alike first second) : closes first = closes second := by
  induction alike with
  | nil => rfl
  | cons head _ ih =>
      have conditions := head.condition
      unfold closes
      generalize Filter.condition _ = left at *
      generalize Filter.condition _ = right at *
      cases conditions with
      | range bound => cases bound <;> simp [ih]
      | fragment first second _ _ => exact ih

private theorem clausesOf_alike (ranges : OpenRanges) {first second : List Filter}
    (alike : List.Forall₂ Filter.Alike first second) (opened : Bool) :
    (ranges.clausesOf opened first).map clauseMarks =
      (ranges.clausesOf opened second).map clauseMarks := by
  induction alike generalizing opened with
  | nil => rfl
  | cons head tail ih =>
      have conditions := head.condition
      have closing := closes_alike tail
      unfold clausesOf
      generalize Filter.condition _ = left at *
      generalize Filter.condition _ = right at *
      cases conditions with
      | range bound => cases bound <;> simp [ih, closing]
      | fragment first second _ same =>
          have marks : clauseMarks (.fragment first) = clauseMarks (.fragment second) :=
            congrArg (Option.getD · []) same
          simp [ih, marks]

private theorem scan_clausesOf {ranges : OpenRanges} {filters : List Filter}
    (closed : ∀ filter ∈ filters, ∀ text, filter.condition = .fragment text →
      (scan text.toList).isSome) (opened : Bool) :
    ∀ content ∈ ranges.clausesOf opened filters, (scan content.text.toList).isSome := by
  induction filters generalizing opened with
  | nil => simp [clausesOf]
  | cons filter rest ih =>
      have restClosed := ih fun other member => closed other (List.mem_cons_of_mem _ member)
      have headClosed := closed filter List.mem_cons_self
      intro content member
      unfold clausesOf at member
      split at member
      · next text condition =>
          rcases List.mem_cons.mp member with rfl | later
          · exact headClosed text condition
          · exact restClosed opened content later
      · rcases List.mem_append.mp member with limits | later
        · obtain ⟨pair, _, rfl⟩ := List.mem_map.mp limits
          simp [scan_severity]
        · exact restClosed opened content later
      · rcases List.mem_append.mp member with window | later
        · obtain ⟨lower, _, rfl⟩ := List.mem_map.mp window
          exact scan_window lower _
        · exact restClosed true content later
      · rcases List.mem_append.mp member with bound | later
        · split at bound
          · simp at bound
          · obtain ⟨upper, _, rfl⟩ := List.mem_map.mp bound
            simp [scan_before]
        · exact restClosed false content later

private theorem attributesOf_alike {first second : List Filter}
    (alike : List.Forall₂ Filter.Alike first second) :
    FilterSet.attributesOf first = FilterSet.attributesOf second := by
  have attrs : first.map (·.attr) = second.map (·.attr) := by
    induction alike with
    | nil => rfl
    | cons head _ ih => rw [List.map_cons, List.map_cons, head.attr, ih]
  have fold (filters : List Filter) : FilterSet.attributesOf filters =
      (filters.map (·.attr)).foldl
        (fun seen attr => if attr ∈ seen then seen else seen ++ [attr]) [] := by
    rw [List.foldl_map]
    rfl
  rw [fold, fold, attrs]

private theorem queryOf_alike (ranges : OpenRanges) {first second : List Filter}
    (alike : List.Forall₂ Filter.Alike (first.filter (·.checked)) (second.filter (·.checked))) :
    (ranges.queryOf first).marks = (ranges.queryOf second).marks := by
  unfold marks queryOf
  simp only [List.map_map, attributesOf_alike alike]
  congr 1
  refine List.map_congr_left fun attr _ => congrArg groupMarks ?_
  refine clausesOf_alike ranges (List.rel_filter ?_ alike) false
  intro left right related
  simp [related.attr]

/-- The text of an accepted query has the structure that the compiler gives to it. -/
theorem scan_queryOf {ranges : OpenRanges} {filters : List Filter}
    (accepted : ∀ filter ∈ filters, filter.checked → ranges.refusal? filter = none)
    (closed : ∀ filter ∈ filters, filter.checked → ∀ text, filter.condition = .fragment text →
      (scan text.toList).isSome) :
    scan (ranges.queryOf filters).text.toList = some (ranges.queryOf filters).marks := by
  refine scan_text ?_ ?_
  · intro group member
    obtain ⟨attr, active, rfl⟩ := List.mem_map.mp member
    refine groupOf_clauses_ne_nil (fun filter listed => ?_) active
    obtain ⟨member, checked⟩ := List.mem_filter.mp listed
    exact accepted filter member checked
  · intro group member
    obtain ⟨attr, _, rfl⟩ := List.mem_map.mp member
    refine scan_clausesOf (fun filter listed => ?_) false
    obtain ⟨member, checked⟩ := List.mem_filter.mp (List.mem_filter.mp listed).1
    exact closed filter member checked

end OpenRanges

def Query.single (attr : Attribute) (text : String) : Query where
  groups := [{ attr, clauses := [.fragment text] }]

private theorem compile_single {filter : Filter} {text : String} (checked : filter.checked)
    (condition : filter.condition = .fragment text) (nonempty : text ≠ "") (inputs : RangeInputs) :
    compile [filter] inputs .builtin = .ok (.single filter.attr text) := by
  refine compile_eq_ok.mpr ⟨_, rfl, ?_, ?_⟩
  · intro other member _
    obtain rfl := List.mem_singleton.mp member
    simp [refusal?, condition, nonempty]
  · simp [queryOf, groupOf, FilterSet.attributesOf, clausesOf, single, checked, condition]

private theorem text_single (attr : Attribute) (text : String) :
    (single attr text).text = baseText ++ " WHERE " ++ text := by
  have joined : (single attr text).text = baseText ++ " WHERE " ++ String.join [text] := rfl
  rw [joined, String.join]
  simp

/-- What a filter is made from. -/
structure Criterion where
  attr : Attribute
  name : String
  lexicon : Lexicon
  checked : Bool

namespace Criterion

def filter (criterion : Criterion) : Filter :=
  .make criterion.lexicon criterion.attr criterion.name criterion.checked

/-- The filter of a criterion with other wordings in a generated fragment. -/
def filterWith (localize : String → String) (criterion : Criterion) : Filter where
  attr := criterion.attr
  name := criterion.name
  condition :=
    match RangeBound.ofBrowseName? criterion.name with
    | some bound => .range bound
    | none =>
        .fragment ((Fragment.preset? criterion.name).getD
          (Fragment.generated localize criterion.attr criterion.name))
  checked := criterion.checked

def texts (criterion : Criterion) : List String :=
  if (RangeBound.ofBrowseName? criterion.name).isSome ||
      (Fragment.preset? criterion.name).isSome then []
  else Fragment.texts criterion.attr criterion.name

/-- The wordings that reach a generated fragment. -/
def wordings (criterion : Criterion) : List String :=
  criterion.texts.map criterion.lexicon.localize

theorem filterWith_alike {first second : String → String} (criterion : Criterion)
    (firstConfined : ∀ text ∈ criterion.texts, Confined (first text))
    (secondConfined : ∀ text ∈ criterion.texts, Confined (second text)) :
    (criterion.filterWith first).Alike (criterion.filterWith second) where
  attr := rfl
  checked := rfl
  condition := by
    unfold filterWith
    unfold texts at firstConfined secondConfined
    cases range : RangeBound.ofBrowseName? criterion.name with
    | some bound => exact .range bound
    | none =>
        cases preset : Fragment.preset? criterion.name with
        | some text => exact .fragment text text .rfl rfl
        | none =>
            simp only [range, preset, Option.isSome_none, Bool.or_self, Bool.false_eq_true,
              if_false] at firstConfined secondConfined
            constructor
            · exact Fragment.generated_eq_empty.trans Fragment.generated_eq_empty.symm
            · exact (Fragment.scan_generated firstConfined).trans
                (Fragment.scan_generated secondConfined).symm

private theorem scan_condition {localize : String → String} (criterion : Criterion)
    (confined : ∀ text ∈ criterion.texts, Confined (localize text)) {text : String}
    (condition : (criterion.filterWith localize).condition = .fragment text) :
    (scan text.toList).isSome := by
  unfold filterWith at condition
  unfold texts at confined
  cases range : RangeBound.ofBrowseName? criterion.name with
  | some bound => simp [range] at condition
  | none =>
      cases preset : Fragment.preset? criterion.name with
      | some fixed =>
          obtain rfl : fixed = text := by simpa [range, preset] using condition
          exact Fragment.scan_preset preset
      | none =>
          obtain rfl : Fragment.generated localize criterion.attr criterion.name = text := by
            simpa [range, preset] using condition
          rw [Fragment.scan_generated (by simpa [range, preset] using confined)]
          rfl

def filtersWith (wording : Criterion → String → String) (criteria : List Criterion) :
    List Filter :=
  criteria.map fun criterion => criterion.filterWith (wording criterion)

/-- Whether the wordings that a query of some criteria can show are confined. -/
def ConfinedIn (criteria : List Criterion) (wording : Criterion → String → String) : Prop :=
  ∀ criterion ∈ criteria, criterion.checked →
    ∀ text ∈ criterion.texts, Confined (wording criterion text)

private theorem scan_filtersWith {wording : Criterion → String → String} {criteria : List Criterion}
    (confined : ConfinedIn criteria wording) {ranges : OpenRanges}
    (accepted : ∀ filter ∈ filtersWith wording criteria, filter.checked →
      ranges.refusal? filter = none) :
    scan (ranges.queryOf (filtersWith wording criteria)).text.toList =
      some (ranges.queryOf (filtersWith wording criteria)).marks := by
  apply scan_queryOf accepted
  intro filter member checked text condition
  obtain ⟨criterion, listed, rfl⟩ := List.mem_map.mp member
  exact scan_condition criterion (confined criterion listed checked) condition

private theorem filtersWith_alike {first second : Criterion → String → String}
    {criteria : List Criterion}
    (firstConfined : ConfinedIn criteria first) (secondConfined : ConfinedIn criteria second) :
    List.Forall₂ Filter.Alike ((filtersWith first criteria).filter (·.checked))
      ((filtersWith second criteria).filter (·.checked)) := by
  rw [filtersWith, filtersWith, List.filter_map, List.filter_map, List.forall₂_map_left_iff,
    List.forall₂_map_right_iff]
  apply List.forall₂_same.mpr
  intro criterion member
  obtain ⟨listed, checked⟩ := List.mem_filter.mp member
  exact filterWith_alike criterion (firstConfined criterion listed checked)
    (secondConfined criterion listed checked)

/-- Whether some wordings leave the structure of every query as it is with plain words in their
place: the literals are closed, and the marks are those that the compiler writes. -/
def Harmless (safe : String → Prop) : Prop :=
  ∀ (criteria : List Criterion) (inputs : RangeInputs) (configuration : Configuration)
    (query : Query),
    (∀ criterion ∈ criteria, criterion.checked → ∀ text ∈ criterion.wordings, safe text) →
    compile (criteria.map filter) inputs configuration = .ok query →
    ∀ plain : String → String, (∀ text, (plain text).toList.all Char.isAlpha) →
      ∃ plainQuery,
        compile (criteria.map (filterWith plain)) inputs configuration = .ok plainQuery ∧
        scan query.text.toList = some plainQuery.marks ∧
        scan plainQuery.text.toList = some plainQuery.marks

private theorem harmless_of_confined {safe : String → Prop}
    (confined : ∀ text, safe text → Confined text) : Harmless safe := by
  intro criteria inputs configuration query safeWordings compiled plain alphabetic
  have ownConfined : ConfinedIn criteria fun criterion => criterion.lexicon.localize :=
    fun criterion listed checked text used =>
      confined _ (safeWordings criterion listed checked _ (List.mem_map_of_mem used))
  have plainConfined : ConfinedIn criteria fun _ => plain :=
    fun _ _ _ text _ => confined_of_alphabetic (alphabetic text)
  obtain ⟨gates, usable, accepted, rfl⟩ := compile_eq_ok.mp compiled
  have plainAccepted : ∀ filter ∈ criteria.map (filterWith plain), filter.checked →
      (inputs.through gates).refusal? filter = none := by
    intro filter member checked
    obtain ⟨criterion, listed, rfl⟩ := List.mem_map.mp member
    have own := accepted criterion.filter (List.mem_map_of_mem listed) checked
    exact refusal?_alike (filterWith_alike criterion (ownConfined criterion listed checked)
      (plainConfined criterion listed checked)) own
  have plainCompiled := compile_eq_ok.mpr ⟨gates, usable, plainAccepted, rfl⟩
  have sameMarks := queryOf_alike (inputs.through gates)
    (filtersWith_alike ownConfined plainConfined)
  have ownScan := scan_filtersWith ownConfined accepted
  rw [sameMarks] at ownScan
  exact ⟨_, plainCompiled, ownScan, scan_filtersWith plainConfined plainAccepted⟩

private theorem confined_of_known {name : String}
    (known : (RangeBound.ofBrowseName? name).isSome ∨ (Fragment.preset? name).isSome) :
    Confined name := by
  rcases known with range | preset
  · have confined : ∀ bound ∈ [RangeBound.fromEventTime, .toEventTime, .severity],
        Confined bound.browseName := by
      decide +kernel
    obtain ⟨bound, found⟩ := Option.isSome_iff_exists.mp range
    have same := List.find?_some found
    obtain rfl : bound.browseName = name := by simpa using same
    exact confined bound (List.mem_of_find?_eq_some found)
  · have confined : ∀ pair ∈ Fragment.presets, Confined pair.1 := by decide +kernel
    obtain ⟨text, found⟩ := Option.isSome_iff_exists.mp preset
    obtain ⟨before, behind, split, _⟩ := List.lookup_eq_some_iff.mp found
    exact confined (name, text) (by simp [split])

/-- A text is confined if the structure around it is that around an empty one. -/
theorem confined_of_scan {text : String}
    (scanned : scan (baseText ++ " WHERE " ++ ("BrowseName LIKE '%" ++ text ++ "%'")).toList =
      some []) : Confined text := by
  have inside : run (.outside []) (baseText ++ " WHERE " ++ "BrowseName LIKE '%").toList =
      (.literal, []) := by
    decide +kernel
  have closing : "%'".toList = ['%', '\''] := by decide
  have parts : baseText ++ " WHERE " ++ ("BrowseName LIKE '%" ++ text ++ "%'") =
      baseText ++ " WHERE " ++ "BrowseName LIKE '%" ++ text ++ "%'" := by
    simp only [String.append_assoc]
  rw [parts, String.toList_append, String.toList_append, closing] at scanned
  obtain ⟨closed, marks⟩ := scan_eq_some.mp scanned
  simp only [run_append, inside, List.nil_append] at closed marks
  obtain ⟨⟨noMarks, _⟩, _⟩ : (_ ∧ _) ∧ _ := by simpa only [List.append_eq_nil_iff] using marks
  unfold Confined
  have percent : isWordChar '%' = false := by decide
  have quote : isWordChar '\'' = false := by decide
  -- Only inside of the literal the quote behind the text closes it.
  cases behind : (run .literal text.toList).1 with
  | literal => exact Prod.ext behind noMarks
  | outside word => simp [behind, run, step, enter, isClosed, percent, quote] at closed
  | quote => simp [behind, run, step, enter, isClosed, percent, quote] at closed
  | timestamp => simp [behind, run, step, isClosed] at closed

/-- An unknown criterion of the name of an alarm puts any text into a query. -/
theorem confined_of_harmless {safe : String → Prop} (harmless : Harmless safe) {text : String}
    (safeText : safe text) : Confined text := by
  by_cases known : (RangeBound.ofBrowseName? text).isSome ∨ (Fragment.preset? text).isSome
  · exact confined_of_known known
  · obtain ⟨noRange, noPreset⟩ :
        RangeBound.ofBrowseName? text = none ∧ Fragment.preset? text = none := by
      simpa [not_or] using known
    let criterion : Criterion := { attr := .name, name := text, lexicon := .empty, checked := true }
    have condition (localize : String → String) : (criterion.filterWith localize).condition =
        .fragment ("BrowseName LIKE '%" ++ localize text ++ "%'") := by
      simp only [filterWith, criterion, noRange, noPreset]
      rfl
    have wordings : criterion.wordings = [text] := by
      simp only [wordings, texts, criterion, noRange, noPreset]
      rfl
    have compiled (localize : String → String) :
        compile [criterion.filterWith localize] (.initialAt .unixEpoch) .builtin =
          .ok (.single .name ("BrowseName LIKE '%" ++ localize text ++ "%'")) :=
      compile_single rfl (condition localize) (Fragment.append_ne_empty _ (by decide)) _
    obtain ⟨plainQuery, plainCompiled, scanned, _⟩ :=
      harmless [criterion] (.initialAt .unixEpoch) .builtin _ (by simp [wordings, safeText])
        (compiled criterion.lexicon.localize) (fun _ => "") (by simp)
    obtain rfl := Except.ok.inj ((compiled fun _ => "").symm.trans plainCompiled)
    have plainMarks : (single .name ("BrowseName LIKE '%" ++ "" ++ "%'")).marks = [] := by
      decide +kernel
    have scannedEmpty := scanned.trans (congrArg some plainMarks)
    rw [text_single] at scannedEmpty
    exact confined_of_scan scannedEmpty

end Criterion

/-- The wordings that leave the structure of every query alone are the confined ones. -/
theorem harmless_iff_confined (safe : String → Prop) :
    Criterion.Harmless safe ↔ ∀ text, safe text → Confined text :=
  ⟨fun harmless _ => Criterion.confined_of_harmless harmless, Criterion.harmless_of_confined⟩

example : ¬ Confined "O'Brien" ∧ Confined "O''Brien" := by decide +kernel

end AlarmView
