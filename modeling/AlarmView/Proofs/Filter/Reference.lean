import AlarmView.Filter.Reference
import AlarmView.Proofs.FilterSet
import AlarmView.Proofs.Text.Blank

/-!
# Written references

A reference is read from the parts before and behind the first slash of a text, without the blanks
around them.  A text without a name is refused as a reference before its attribute is looked at.
What is read is written in one way, which reads back; so exactly the names without blanks at their
ends can be referred to, and they may have slashes.
-/

namespace AlarmView.FilterReference

open Text

private theorem splitSlash_eq_some {s before behind : List Char} :
    splitSlash s = some (before, behind) ↔ s = before ++ '/' :: behind ∧ '/' ∉ before := by
  induction s generalizing before with
  | nil => simp [splitSlash]
  | cons c rest ih =>
      rw [splitSlash]
      by_cases slash : c = '/'
      · subst slash
        cases before with
        | nil => simp [eq_comm]
        | cons first others =>
            rw [if_pos rfl]
            constructor
            · intro same
              exact absurd (congrArg Prod.fst (Option.some.inj same)) (by simp)
            · rintro ⟨same, absent⟩
              exact absurd ((List.cons.inj same).1 ▸ List.mem_cons_self) absent
      · rw [if_neg slash]
        cases before with
        | nil => simp [slash]
        | cons first others =>
            simp only [Option.map_eq_some_iff, Prod.exists, Prod.mk.injEq, List.cons_append,
              List.cons.injEq]
            constructor
            · rintro ⟨before, later, found, ⟨rfl, rfl⟩, rfl⟩
              obtain ⟨parts, absent⟩ := ih.mp found
              exact ⟨⟨rfl, parts⟩, by simp [Ne.symm slash, absent]⟩
            · rintro ⟨⟨rfl, parts⟩, absent⟩
              refine ⟨others, behind, ih.mpr ⟨parts, ?_⟩, ⟨rfl, rfl⟩, rfl⟩
              exact fun later => absent (List.mem_cons_of_mem _ later)

theorem splitSlash_eq_none {s : List Char} : splitSlash s = none ↔ '/' ∉ s := by
  induction s with
  | nil => simp [splitSlash]
  | cons c rest ih =>
      rw [splitSlash]
      by_cases slash : c = '/'
      · simp [slash]
      · simp [slash, Ne.symm slash, ih]

/-- Whether a text has its first slash between two others. -/
def Divides (text before behind : String) : Prop :=
  text = before ++ "/" ++ behind ∧ '/' ∉ before.toList

theorem divides_iff {text before behind : String} :
    Divides text before behind ↔
      splitSlash text.toList = some (before.toList, behind.toList) := by
  rw [splitSlash_eq_some, Divides, ← String.toList_inj]
  simp

private theorem exists_divides {text : String} (slash : '/' ∈ text.toList) :
    ∃ before behind, Divides text before behind := by
  cases split : splitSlash text.toList with
  | none => exact absurd slash (splitSlash_eq_none.mp split)
  | some parts =>
      refine ⟨String.ofList parts.1, String.ofList parts.2, divides_iff.mpr ?_⟩
      rw [split, String.toList_ofList, String.toList_ofList]

private theorem Divides.unique {text before behind other rest : String}
    (divides : Divides text before behind)
    (divided : Divides text other rest) : other = before ∧ rest = behind := by
  have same := (divides_iff.mp divides).symm.trans (divides_iff.mp divided)
  simpa [eq_comm, String.toList_inj] using same

theorem Divides.slash {text before behind : String} (divides : Divides text before behind) :
    '/' ∈ text.toList := by
  simp [divides.1]

private theorem parse_of_no_slash {text : String} (absent : '/' ∉ text.toList) :
    parse text = .error (.invalidReference text) := by
  rw [parse, splitSlash_eq_none.mpr absent]

theorem parse_of_divides {text before behind : String} (divides : Divides text before behind) :
    parse text =
      if trim behind = "" then .error (.invalidReference text)
      else
        match Attribute.ofBrowseName? (trim before) with
        | some attr => .ok { attr, name := trim behind }
        | none => .error (.unknownAttribute (trim before)) := by
  have empty : trim behind = "" ↔ trimBlanks behind.toList = [] := by
    rw [trim, ← String.toList_inj, String.toList_ofList, String.toList_empty]
  rw [parse, divides_iff.mp divides]
  by_cases nameless : trimBlanks behind.toList = []
  · rw [if_pos (empty.mpr nameless)]
    exact if_pos nameless
  · rw [if_neg (mt empty.mp nameless)]
    refine (if_neg nameless).trans ?_
    rw [Attribute.parse, ← trim, ← trim]
    cases Attribute.ofBrowseName? (trim before) <;> rfl

/-- The text of an attribute is trimmed and has no slash. -/
theorem trimmed_browseName (attr : Attribute) :
    trim attr.browseName = attr.browseName ∧ '/' ∉ attr.browseName.toList := by
  cases attr <;> decide +kernel

private theorem divides_text (reference : FilterReference) :
    Divides reference.text reference.attr.browseName reference.name :=
  ⟨rfl, (trimmed_browseName reference.attr).2⟩

private theorem trim_eq_self_iff {text : String} : trim text = text ↔ Trimmed text.toList := by
  rw [trim, ← String.toList_inj, String.toList_ofList, trimBlanks_eq_self_iff]

private theorem parse_text_iff (reference : FilterReference) :
    parse reference.text = .ok reference ↔
      reference.name ≠ "" ∧ Trimmed reference.name.toList := by
  rw [parse_of_divides (divides_text reference), (trimmed_browseName reference.attr).1,
    Attribute.ofBrowseName?_browseName, ← trim_eq_self_iff]
  constructor
  · intro read
    split at read
    · exact absurd read (by simp)
    · next named =>
        have same : trim reference.name = reference.name :=
          congrArg FilterReference.name (Except.ok.inj read)
        exact ⟨same ▸ named, same⟩
  · rintro ⟨named, same⟩
    rw [same, if_neg named]

/-- What a text is read as, by the parts before and behind its first slash. -/
structure Reads (text : String) (result : Except FilterError FilterReference) : Prop where
  accepted : ∀ reference, result = .ok reference ↔
    ∃ before behind, Divides text before behind ∧ trim before = reference.attr.browseName ∧
      trim behind = reference.name ∧ reference.name ≠ ""
  invalid : ∀ shown, result = .error (.invalidReference shown) ↔
    shown = text ∧ ('/' ∉ text.toList ∨
      ∃ before behind, Divides text before behind ∧ trim behind = "")
  unknown : ∀ shown, result = .error (.unknownAttribute shown) ↔
    ∃ before behind, Divides text before behind ∧ trim behind ≠ "" ∧ trim before = shown ∧
      ∀ attr : Attribute, attr.browseName ≠ shown

theorem exists_divides_iff {text before behind : String} (divides : Divides text before behind)
    {holds : String → String → Prop} :
    (∃ before behind, Divides text before behind ∧ holds before behind) ↔ holds before behind := by
  constructor
  · rintro ⟨other, rest, divided, held⟩
    obtain ⟨rfl, rfl⟩ := divides.unique divided
    exact held
  · intro held
    exact ⟨before, behind, divides, held⟩

section Divided

variable {text before behind : String}

private theorem reads_nameless (divides : Divides text before behind)
    (nameless : trim behind = "") : Reads text (.error (.invalidReference text)) := by
  constructor
  case accepted =>
    intro reference
    rw [exists_divides_iff divides]
    simp [nameless]
  case invalid =>
    intro shown
    rw [exists_divides_iff divides]
    simp [nameless, eq_comm (a := text)]
  case unknown =>
    intro shown
    rw [exists_divides_iff divides]
    simp [nameless]

private theorem reads_stranger (divides : Divides text before behind) (named : trim behind ≠ "")
    (stranger : ∀ attr : Attribute, attr.browseName ≠ trim before) :
    Reads text (.error (.unknownAttribute (trim before))) := by
  constructor
  case accepted =>
    intro reference
    rw [exists_divides_iff divides]
    simp [Ne.symm (stranger reference.attr)]
  case invalid =>
    intro shown
    rw [exists_divides_iff divides]
    simp [named, divides.slash]
  case unknown =>
    intro shown
    rw [exists_divides_iff divides]
    constructor
    · rintro ⟨⟩
      exact ⟨named, rfl, stranger⟩
    · rintro ⟨_, rfl, _⟩
      rfl

private theorem reads_reference (divides : Divides text before behind) (named : trim behind ≠ "")
    {attr : Attribute} (known : attr.browseName = trim before) :
    Reads text (.ok { attr, name := trim behind }) := by
  constructor
  case accepted =>
    intro reference
    rw [exists_divides_iff divides]
    constructor
    · rintro ⟨⟩
      exact ⟨known.symm, rfl, named⟩
    · rintro ⟨sameAttr, sameName, _⟩
      obtain rfl := Attribute.browseName_injective (known.trans sameAttr)
      rw [sameName]
  case invalid =>
    intro shown
    rw [exists_divides_iff divides]
    simp [named, divides.slash]
  case unknown =>
    intro shown
    rw [exists_divides_iff divides]
    constructor
    · rintro ⟨⟩
    · rintro ⟨_, rfl, stranger⟩
      exact absurd known (stranger attr)

private theorem reads_of_divides (divides : Divides text before behind) : Reads text
    (parse text) := by
  rw [parse_of_divides divides]
  by_cases nameless : trim behind = ""
  · rw [if_pos nameless]
    exact reads_nameless divides nameless
  · rw [if_neg nameless]
    cases found : Attribute.ofBrowseName? (trim before) with
    | none =>
        refine reads_stranger divides nameless fun attr same => ?_
        rw [Attribute.ofBrowseName?_eq_some.mpr same] at found
        exact Option.some_ne_none attr found
    | some attr =>
        exact reads_reference divides nameless (Attribute.ofBrowseName?_eq_some.mp found)

end Divided

private theorem reads_of_no_slash {text : String} (absent : '/' ∉ text.toList) :
    Reads text (parse text) := by
  have undivided (before behind : String) : ¬ Divides text before behind :=
    fun divides => absent divides.slash
  rw [parse_of_no_slash absent]
  constructor
  case accepted => simp [undivided]
  case invalid => simp [absent, eq_comm (a := text)]
  case unknown => simp [undivided]

/-- References are read exactly by their grammar, what is read is written so that it reads back, and
exactly trimmed names can be referred to. -/
theorem parse_reads :
    (∀ text, Reads text (parse text)) ∧
      (∀ text reference, parse text = .ok reference → parse reference.text = .ok reference) ∧
        ∀ reference : FilterReference, parse reference.text = .ok reference ↔
          reference.name ≠ "" ∧ Trimmed reference.name.toList := by
  have reads (text : String) : Reads text (parse text) := by
    by_cases slash : '/' ∈ text.toList
    · obtain ⟨before, behind, divides⟩ := exists_divides slash
      exact reads_of_divides divides
    · exact reads_of_no_slash slash
  refine ⟨reads, ?_, parse_text_iff⟩
  intro text reference read
  obtain ⟨before, behind, _, _, named, nonempty⟩ := ((reads text).accepted reference).mp read
  refine (parse_text_iff reference).mpr ⟨nonempty, ?_⟩
  rw [← named, trim, String.toList_ofList]
  exact trimmed_trimBlanks behind.toList

/-- Blanks go at both ends of both parts, and the name keeps its own slash and blanks. -/
theorem parse_reads_slashedName :
    parse " Priority\t/ Night / shift\u3000" =
        .ok { attr := .priority, name := "Night / shift" } ∧
      parse "Priority/Night / shift" = .ok { attr := .priority, name := "Night / shift" } := by
  have read : parse " Priority\t/ Night / shift\u3000" =
      .ok { attr := .priority, name := "Night / shift" } := by decide +kernel
  exact ⟨read, parse_reads.2.1 _ _ read⟩

end AlarmView.FilterReference
