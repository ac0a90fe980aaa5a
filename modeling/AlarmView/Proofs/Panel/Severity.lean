import AlarmView.Proofs.Panel.Controls
import AlarmView.Proofs.Text.Blank
import AlarmView.Proofs.Text.Decimal

/-!
# Severities in text boxes

A text box shows what was entered last.  It shows a severity exactly if that is a numeral of a
number below 65536, with blanks around it and a plus sign in front of it as one likes; any other
text, and a missing text box, stand for the default of the bound.
-/

namespace AlarmView

open BrowseName Text

/-- Whether a text writes a number as a severity. -/
def WritesSeverity (text : String) (number : Nat) : Prop :=
  ∃ before sign digits behind, text.toList = before ++ (sign ++ digits) ++ behind ∧
    (∀ c ∈ before, isBlank c = true) ∧ (sign = [] ∨ sign = ['+']) ∧ Numeral digits number ∧
    ∀ c ∈ behind, isBlank c = true

private theorem trimmed_of_numeral {sign digits : List Char} {number : Nat}
    (plus : sign = [] ∨ sign = ['+']) (numeral : Numeral digits number) :
    Trimmed (sign ++ digits) := by
  apply trimmed_of_visible
  refine List.forall_mem_append.mpr ⟨?_, fun c member => ?_⟩
  · rcases plus with rfl | rfl
    · simp
    · simp [isBlank]
  · exact isBlank_of_isDigit (numeral.all_isDigit c member)

private theorem limited?_eq_some {digits : List Char} {number : UInt16} :
    limited? digits = some number ↔ Numeral digits number.toNat := by
  rw [limited?, ← natural?_eq_some_iff]
  cases natural? digits with
  | none => simp
  | some value =>
      change (if value < UInt16.size then some (UInt16.ofNat value) else none) = some number ↔
        some value = some number.toNat
      rw [Option.some_inj]
      constructor
      · intro read
        split at read
        · next small =>
            obtain rfl := Option.some.inj read
            exact (UInt16.toNat_ofNat_of_lt' small).symm
        · exact absurd read (by simp)
      · rintro rfl
        simp [number.toNat_lt]

private theorem unsigned_eq {text digits : List Char} {number : Nat}
    (numeral : Numeral digits number) :
    unsigned text = digits ↔ ∃ sign, text = sign ++ digits ∧ (sign = [] ∨ sign = ['+']) := by
  constructor
  · intro same
    unfold unsigned at same
    split at same
    · exact ⟨['+'], congrArg _ same, .inr rfl⟩
    · exact ⟨[], same, .inl rfl⟩
  · rintro ⟨sign, rfl, rfl | rfl⟩
    · rw [List.nil_append]
      unfold unsigned
      split
      · exact absurd (numeral.all_isDigit '+' List.mem_cons_self) (by decide)
      · rfl
    · rfl

/-- Exactly the texts that write a severity are read, as the severity that they write. -/
theorem readSeverity?_eq_some_iff {text : String} {number : UInt16} :
    readSeverity? text = some number ↔ WritesSeverity text number.toNat := by
  rw [readSeverity?, limited?_eq_some]
  constructor
  · intro numeral
    obtain ⟨sign, parts, plus⟩ := (unsigned_eq numeral).mp rfl
    obtain ⟨before, behind, whole, blankBefore, blankBehind⟩ := exists_blanks text.toList
    refine ⟨before, sign, _, behind, ?_, blankBefore, plus, numeral, blankBehind⟩
    rw [← parts]
    exact whole
  · rintro ⟨before, sign, digits, behind, whole, blankBefore, plus, numeral, blankBehind⟩
    have core := trimBlanks_of_blanks (trimmed_of_numeral plus numeral) blankBefore blankBehind
    rw [whole, core, (unsigned_eq numeral).mpr ⟨sign, rfl, plus⟩]
    exact numeral

example : readSeverity? "\u3000+00065535\t" = some 65535 := by decide +kernel

/-- A severity is read as it was written. -/
theorem readSeverity?_toString (number : UInt16) :
    readSeverity? (toString number.toNat) = some number := by
  have digits : (toString number.toNat).toList = Nat.toDigits 10 number.toNat :=
    String.toList_ofList
  have numeral := natural?_eq_some_iff.mp (natural?_toDigits number.toNat)
  rw [← digits] at numeral
  refine readSeverity?_eq_some_iff.mpr ⟨[], [], _, [], ?_, by simp, .inl rfl, numeral, by simp⟩
  rw [List.nil_append, List.nil_append, List.append_nil]

def Control.hasTextBoxes : Control → Bool
  | .severityRow .. => true
  | .checkBox .. | .dateTimeRow .. => false

private theorem Control.hasTextBoxes_iff {control : Control} :
    control.hasTextBoxes ↔ ∃ name lower upper, control = .severityRow name lower upper := by
  cases control <;> simp [hasTextBoxes]

/-- Whether a panel of this layout has a text box of this name. -/
def Layout.hasTextBox (layout : Layout) (name : String) : Bool :=
  (name == fromSeverity || name == toSeverity) && layout.controls.any (·.2.hasTextBoxes)

namespace Controls

variable {controls : Controls} {name : String} {now : Instant} {layout : Layout}

private theorem text?_foldl_register (list : List Control) (start : Controls) (name : String) :
    (list.foldl (register now) start).text? name =
      if (name == fromSeverity || name == toSeverity) && list.any Control.hasTextBoxes then some ""
      else start.text? name := by
  induction list generalizing start with
  | nil => simp
  | cons control rest ih =>
      have here : (register now start control).text? name =
          if (name == fromSeverity || name == toSeverity) && control.hasTextBoxes then some ""
          else start.text? name := by
        cases control with
        | severityRow =>
            simp only [register, text?, Table.get?_insert, Control.hasTextBoxes, Bool.and_true,
              Bool.or_eq_true, beq_iff_eq]
            split <;> split <;> simp_all
        | checkBox | dateTimeRow => simp [register, text?, Control.hasTextBoxes]
      rw [List.foldl_cons, ih, here, List.any_cons]
      cases (name == fromSeverity || name == toSeverity) <;> cases control.hasTextBoxes <;> simp

/-- The text boxes of a layout are empty at first. -/
theorem text?_ofLayout_eq (now : Instant) (layout : Layout) (name : String) :
    (ofLayout now layout).text? name = if layout.hasTextBox name then some "" else none := by
  rw [ofLayout, text?_foldl_register, Layout.hasTextBox, List.any_map]
  rfl

/-- There are the text boxes of both limits of the severity if there is its row. -/
theorem text?_ofLayout_iff :
    ((ofLayout now layout).text? fromSeverity).isSome ∧
        ((ofLayout now layout).text? toSeverity).isSome ↔
      ∃ attr name lower upper, (attr, .severityRow name lower upper) ∈ layout.controls := by
  have registered (name : String) :
      ((ofLayout now layout).text? name).isSome ↔ layout.hasTextBox name := by
    rw [text?_ofLayout_eq]
    split <;> simp_all
  rw [registered, registered]
  simp [Layout.hasTextBox, Control.hasTextBoxes_iff]

/-- Enters texts one after the other, each in the text box of its name if there is one. -/
def setTexts (controls : Controls) (entered : List (String × String)) : Controls :=
  entered.foldl (fun controls entry => (controls.setText? entry.1 entry.2).getD controls) controls

/-- A text box shows what was entered last. -/
theorem text?_setTexts (controls : Controls) (entered : List (String × String)) (name : String) :
    (controls.setTexts entered).text? name =
      (controls.text? name).map fun shown => (entered.reverse.lookup name).getD shown := by
  induction entered using List.reverseRecOn with
  | nil => cases h : controls.text? name <;> simp [setTexts, h]
  | append_singleton before entry ih =>
      obtain ⟨box, text⟩ := entry
      have last : controls.setTexts (before ++ [(box, text)]) =
          ((controls.setTexts before).setText? box text).getD (controls.setTexts before) := by
        rw [setTexts, List.foldl_append]
        rfl
      rw [last, text?_setText?, ih, Option.map_map, List.reverse_append, List.reverse_singleton,
        List.singleton_append, List.lookup_cons]
      congr 1
      funext shown
      by_cases same : name = box
      · simp [same]
      · have other : (name == box) = false := beq_eq_false_iff_ne.mpr same
        simp [same, other]

/-- The text that was entered last in a text box; none was entered in an empty one. -/
def lastText (entered : List (String × String)) (name : String) : String :=
  (entered.reverse.lookup name).getD ""

private theorem text?_entered (now : Instant) (layout : Layout) (entered : List (String × String))
    (name : String) : ((ofLayout now layout).setTexts entered).text? name =
      if layout.hasTextBox name then some (lastText entered name) else none := by
  rw [text?_setTexts, text?_ofLayout_eq]
  split <;> rfl

theorem severity_of_text? {number : UInt16}
    (shown : controls.text? name = some (toString number.toNat)) :
    controls.severity name = number := by
  rw [severity, severity?, shown, Option.bind_some, readSeverity?_toString, Option.getD_some]

/-- The severity of a bound where none is shown. -/
def defaultSeverity (name : String) : UInt16 :=
  if name = toSeverity then 1000 else 1

/-- Whether a text stands for a severity in the text box of a bound: the text writes it, or it
writes no severity and this is the default. -/
def StandsFor (name text : String) (number : UInt16) : Prop :=
  WritesSeverity text number.toNat ∨
    (∀ other < UInt16.size, ¬ WritesSeverity text other) ∧ number = defaultSeverity name

theorem severity_eq (controls : Controls) (name : String) :
    controls.severity name =
      ((controls.text? name).bind readSeverity?).getD (defaultSeverity name) := rfl

private theorem severity_eq_iff {text : String} (shown : controls.text? name = some text)
    (number : UInt16) : controls.severity name = number ↔ StandsFor name text number := by
  rw [severity_eq, shown, Option.bind_some, StandsFor, ← readSeverity?_eq_some_iff]
  cases read : readSeverity? text with
  | some other =>
      have written := readSeverity?_eq_some_iff.mp read
      simp only [Option.getD_some, Option.some_inj]
      constructor
      · exact .inl
      · rintro (same | ⟨unwritten, _⟩)
        · exact same
        · exact absurd written (unwritten _ other.toNat_lt)
  | none =>
      have unwritten : ∀ other < UInt16.size, ¬ WritesSeverity text other := by
        intro other small written
        rw [← UInt16.toNat_ofNat_of_lt' small] at written
        exact absurd (readSeverity?_eq_some_iff.mpr written) (by simp [read])
      rw [and_iff_right unwritten]
      simp [eq_comm]

/-- Entering the severity that a text box stands for changes no severity. -/
theorem severity_setText? (controls : Controls) (name other : String) :
    ((controls.setText? name (toString (controls.severity name).toNat)).getD controls).severity
      other = controls.severity other := by
  have changed := controls.text?_setText? name (toString (controls.severity name).toNat) other
  by_cases same : other = name
  · subst same
    simp only [if_true] at changed
    cases shown : controls.text? other with
    | none => rw [severity_eq, changed, severity_eq controls, shown]; rfl
    | some text => exact severity_of_text? (by rw [changed, shown]; rfl)
  · rw [severity_eq, changed, severity_eq controls other]
    simp [same]

/-- How the severities are read after texts were entered in the controls of a layout. -/
structure ReadsSeverities (controls : Controls) (layout : Layout)
    (entered : List (String × String)) : Prop where
  registered (name : String) : (controls.text? name).isSome ↔ layout.hasTextBox name
  read (name : String) (number : UInt16) : layout.hasTextBox name →
    (controls.severity name = number ↔ StandsFor name (lastText entered name) number)
  missing (name : String) : ¬ layout.hasTextBox name → controls.severity name = defaultSeverity name
  limits (now : Instant) :
    (controls.rangeInputs now).fromSeverity = (controls.severity fromSeverity).toNat ∧
      (controls.rangeInputs now).toSeverity = (controls.severity toSeverity).toNat
  rewritten (name : String) : layout.hasTextBox name →
    ∃ changed, controls.setText? name (toString (controls.severity name).toNat) = some changed ∧
      ∀ other, changed.severity other = controls.severity other

/-- The severities after any texts were entered are those that the texts entered last stand for. -/
theorem readsSeverities (now : Instant) (layout : Layout) (entered : List (String × String)) :
    ((ofLayout now layout).setTexts entered).ReadsSeverities layout entered := by
  have shown := text?_entered now layout entered
  generalize (ofLayout now layout).setTexts entered = controls at shown
  constructor
  case registered =>
    intro name
    rw [shown]
    split <;> simp_all
  case read =>
    intro name number has
    exact severity_eq_iff (by rw [shown, if_pos has]) number
  case missing =>
    intro name missing
    rw [severity_eq, shown, if_neg missing]
    rfl
  case limits => exact fun _ => ⟨rfl, rfl⟩
  case rewritten =>
    intro name has
    have registered : (controls.text? name).isSome := by rw [shown, if_pos has]; rfl
    have accepted : controls.textBoxes.contains name := registered
    have kept := fun other => severity_setText? controls name other
    rw [setText?, if_pos accepted] at kept ⊢
    exact ⟨_, rfl, kept⟩

end Controls

end AlarmView
