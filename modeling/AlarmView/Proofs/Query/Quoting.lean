import AlarmView.Proofs.Query.Compilation
import AlarmView.Proofs.Query.Scanner

/-!
# Quoted texts in clauses

A name or a wording is put between quotes as it is.  It is confined if a scan that enters it inside
of a literal leaves it inside of this literal and has met no boolean structure.  The structure of a
clause is then the same as with an empty text in its place.
-/

namespace AlarmView

open Query ScanState

/-- A text that cannot be told from an empty one by a scan inside of a literal. -/
def Confined (text : String) : Prop :=
  run .literal text.toList = (.literal, [])

instance (text : String) : Decidable (Confined text) :=
  inferInstanceAs (Decidable (_ = _))

private theorem confined_of_no_quote {text : String} (noQuote : '\'' ∉ text.toList) :
    Confined text :=
  run_literal noQuote

theorem confined_of_alphabetic {text : String} (alphabetic : text.toList.all Char.isAlpha) :
    Confined text := by
  apply confined_of_no_quote
  intro quoted
  have alpha := List.all_eq_true.mp alphabetic '\'' quoted
  exact absurd alpha (by decide)

theorem scan_confined {before : String}
    (inside : (run (.outside []) before.toList).1 = .literal) {text : String}
    (confined : Confined text) (behind : String) :
    scan (before ++ text ++ behind).toList = scan (before ++ behind).toList := by
  unfold Confined at confined
  simp only [scan, String.toList_append, run_append, inside, confined, List.append_nil]

namespace Fragment

/-- What stands in front of the text in the fragment of an attribute with one text. -/
def opening : Attribute → String
  | .inhibit => "ShelvingState.CurrentState = '"
  | .alarmClass => "RAAlarmData.AlarmClass LIKE '%"
  | .group => "RAAlarmData.AlarmGroup LIKE '%"
  | .name => "BrowseName LIKE '%"
  | other => other.browseName ++ " LIKE '%"

def closing : Attribute → String
  | .inhibit => "'"
  | _ => "%'"

theorem generated_eq {attr : Attribute} (oneText : attr ≠ .alarmState)
    (localize : String → String) (name : String) :
    generated localize attr name = opening attr ++ localize name ++ closing attr := by
  cases attr <;> first | exact absurd rfl oneText | rfl

private theorem run_opening (attr : Attribute) :
    (run (.outside []) (opening attr).toList).1 = .literal := by
  cases attr <;> decide +kernel

/-- The fragment of a state that is also written together with another one. -/
theorem scan_twoTexts {own first second : String} (ownConfined : Confined own)
    (firstConfined : Confined first) (secondConfined : Confined second) :
    scan ("CurrentState IN ('" ++ own ++ "','" ++ first ++ " " ++ second ++ "')").toList =
      some [.openParenthesis, .closeParenthesis] := by
  have atOwn : (run (.outside []) "CurrentState IN ('".toList).1 = .literal := by
    decide +kernel
  have atFirst : (run (.outside []) ("CurrentState IN ('" ++ "','").toList).1 = .literal := by
    decide +kernel
  have atSecond : (run (.outside []) ("CurrentState IN ('" ++ "','" ++ " ").toList).1 =
      .literal := by
    decide +kernel
  calc scan ("CurrentState IN ('" ++ own ++ "','" ++ first ++ " " ++ second ++ "')").toList
      = scan ("CurrentState IN ('" ++ "','" ++ first ++ (" " ++ second ++ "')")).toList := by
        simpa only [String.append_assoc] using
          scan_confined atOwn ownConfined ("','" ++ (first ++ (" " ++ (second ++ "')"))))
    _ = scan ("CurrentState IN ('" ++ "','" ++ " " ++ second ++ "')").toList := by
        simpa only [String.append_assoc] using
          scan_confined atFirst firstConfined (" " ++ (second ++ "')"))
    _ = scan ("CurrentState IN ('" ++ "','" ++ " " ++ "')").toList :=
        scan_confined atSecond secondConfined "')"
    _ = some [.openParenthesis, .closeParenthesis] := by decide +kernel

private theorem scan_oneText {own : String} (confined : Confined own) :
    scan ("CurrentState IN ('" ++ own ++ "')").toList =
      some [.openParenthesis, .closeParenthesis] := by
  have inside : (run (.outside []) "CurrentState IN ('".toList).1 = .literal := by decide +kernel
  rw [scan_confined inside confined]
  decide +kernel

theorem generated_alarmState (localize : String → String) (name : String) :
    generated localize .alarmState name = alarmState localize name :=
  rfl

theorem alarmState_of_unknown {localize : String → String} {name : String}
    (unknown : stateTexts name = []) : alarmState localize name = "" := by
  unfold stateTexts at unknown
  unfold alarmState
  split at unknown <;> simp_all

theorem stateTexts_ne_nil {name : String} (known : stateTexts name ≠ []) :
    name ∈ ["HighHighState", "HighState", "LowLowState", "LowState", "ActiveStateDigital",
      "InactiveState"] := by
  unfold stateTexts at known
  split at known <;> simp_all

private theorem scan_alarmState {localize : String → String} {name : String}
    (known : stateTexts name ≠ []) (confined : ∀ text ∈ stateTexts name, Confined (localize text)) :
    scan (alarmState localize name).toList = some [.openParenthesis, .closeParenthesis] := by
  have listed := stateTexts_ne_nil known
  simp only [List.mem_cons, List.not_mem_nil, or_false] at listed
  rcases listed with rfl | rfl | rfl | rfl | rfl | rfl
  · have highHigh := confined "HighHighState" (by decide)
    have high := confined "HighState" (by decide)
    exact scan_twoTexts highHigh highHigh high
  · have highHigh := confined "HighHighState" (by decide)
    have high := confined "HighState" (by decide)
    exact scan_twoTexts high highHigh high
  · have lowLow := confined "LowLowState" (by decide)
    have low := confined "LowState" (by decide)
    exact scan_twoTexts lowLow low lowLow
  · have lowLow := confined "LowLowState" (by decide)
    have low := confined "LowState" (by decide)
    exact scan_twoTexts low low lowLow
  · have active := confined "ActiveState" (by decide)
    exact scan_oneText active
  · have inactive := confined "InactiveState" (by decide)
    exact scan_oneText inactive

/-- The structure of the generated fragment of a criterion, whatever its wordings are. -/
def templateMarks (attr : Attribute) (name : String) : List Mark :=
  if attr = .alarmState ∧ stateTexts name ≠ [] then [.openParenthesis, .closeParenthesis] else []

theorem scan_generated {localize : String → String} {attr : Attribute} {name : String}
    (confined : ∀ text ∈ texts attr name, Confined (localize text)) :
    scan (generated localize attr name).toList = some (templateMarks attr name) := by
  by_cases state : attr = .alarmState
  · subst state
    rw [generated_alarmState]
    by_cases known : stateTexts name = []
    · rw [alarmState_of_unknown known]
      simp only [templateMarks, known]
      rfl
    · rw [scan_alarmState known confined]
      simp [templateMarks, known]
  · have named : Confined (localize name) := confined name (by cases attr <;> simp_all [texts])
    rw [generated_eq state, scan_confined (run_opening attr) named]
    simp only [templateMarks, state, false_and, if_false]
    cases attr <;> decide +kernel

theorem append_ne_empty (first : String) {second : String} (nonempty : second ≠ "") :
    first ++ second ≠ "" := by
  intro empty
  have parts : first.toList = [] ∧ second.toList = [] := by
    simpa using congrArg String.toList empty
  exact nonempty (String.toList_eq_nil_iff.mp parts.2)

private theorem alarmState_ne_empty {name : String} (known : stateTexts name ≠ [])
    (localize : String → String) : alarmState localize name ≠ "" := by
  have closing : "')" ≠ "" := by decide
  have listed := stateTexts_ne_nil known
  simp only [List.mem_cons, List.not_mem_nil, or_false] at listed
  rcases listed with rfl | rfl | rfl | rfl | rfl | rfl <;> exact append_ne_empty _ closing

theorem generated_eq_empty {localize : String → String} {attr : Attribute} {name : String} :
    generated localize attr name = "" ↔ attr = .alarmState ∧ stateTexts name = [] := by
  by_cases state : attr = .alarmState
  · subst state
    rw [generated_alarmState]
    constructor
    · intro empty
      refine ⟨rfl, ?_⟩
      by_contra known
      exact alarmState_ne_empty known localize empty
    · intro given
      obtain ⟨_, unknown⟩ := given
      exact alarmState_of_unknown unknown
  · have nonempty : generated localize attr name ≠ "" := by
      rw [generated_eq state]
      exact append_ne_empty _ (by cases attr <;> decide)
    simp [state, nonempty]

theorem scan_preset {name text : String} (preset : preset? name = some text) :
    (scan text.toList).isSome := by
  have closed : ∀ pair ∈ presets, (scan pair.2.toList).isSome := by decide +kernel
  obtain ⟨before, behind, split, _⟩ := List.lookup_eq_some_iff.mp preset
  exact closed (name, text) (by simp [split])

end Fragment

end AlarmView
