import AlarmView.Text.Blank
import Mathlib.Data.List.DropRight

/-!
# Trimmed texts

Trimming takes the blanks at both ends of a text away and nothing else, so it leaves a text alone
exactly if there are none.
-/

namespace AlarmView.Text

/-- Whether a text neither starts nor ends with a blank. -/
def Trimmed (s : List Char) : Prop :=
  (∀ c ∈ s.head?, isBlank c = false) ∧ ∀ c ∈ s.getLast?, isBlank c = false

instance (s : List Char) : Decidable (Trimmed s) :=
  inferInstanceAs (Decidable (_ ∧ _))

theorem trimBlanks_eq (s : List Char) : trimBlanks s = (skipBlanks s).rdropWhile isBlank := rfl

private theorem skipBlanks_head (s : List Char) : ∀ c ∈
    (skipBlanks s).head?, isBlank c = false := by
  intro c first
  have visible := List.head?_dropWhile_not isBlank s
  rw [← skipBlanks, Option.mem_def.mp first] at visible
  exact visible

theorem trimmed_trimBlanks (s : List Char) : Trimmed (trimBlanks s) := by
  rw [trimBlanks_eq]
  constructor
  · intro c first
    obtain ⟨dropped, parts⟩ := List.rdropWhile_prefix isBlank (skipBlanks s)
    apply skipBlanks_head s
    rw [← parts, List.head?_append, Option.mem_def.mp first]
    rfl
  · intro c last
    obtain ⟨nonempty, rfl⟩ := List.mem_getLast?_eq_getLast last
    simpa using List.rdropWhile_last_not isBlank (skipBlanks s) nonempty

theorem trimmed_of_visible {s : List Char} (visible : ∀ c ∈ s, isBlank c = false) : Trimmed s :=
  ⟨fun c first => visible c (List.mem_of_mem_head? first),
    fun c last => visible c (List.mem_of_getLast? last)⟩

theorem trimBlanks_eq_self_iff {s : List Char} : trimBlanks s = s ↔ Trimmed s := by
  constructor
  · intro same
    exact same ▸ trimmed_trimBlanks s
  · intro trimmed
    obtain ⟨first, last⟩ := trimmed
    have skipped : skipBlanks s = s := by
      cases s with
      | nil => rfl
      | cons c rest => exact List.dropWhile_cons_of_neg (by simp [first c rfl])
    rw [trimBlanks_eq, skipped, List.rdropWhile_eq_self_iff]
    intro nonempty
    simp [last _ (List.getLast?_eq_getLast_of_ne_nil nonempty)]

/-- What stands between the blanks at both ends of a text is left by trimming. -/
theorem trimBlanks_of_blanks {before core behind : List Char} (trimmed : Trimmed core)
    (blankBefore : ∀ c ∈ before, isBlank c = true)
    (blankBehind : ∀ c ∈ behind, isBlank c = true) :
    trimBlanks (before ++ core ++ behind) = core := by
  rw [trimBlanks_eq, skipBlanks, List.append_assoc, List.dropWhile_append_of_pos blankBefore]
  cases core with
  | nil =>
      have nothing : behind.dropWhile isBlank = [] := List.dropWhile_eq_nil_iff.mpr blankBehind
      rw [List.nil_append, nothing]
      rfl
  | cons c rest =>
      have visible : ¬ isBlank c := by simp [trimmed.1 c rfl]
      have same := trimBlanks_eq_self_iff.mpr trimmed
      rw [trimBlanks_eq, skipBlanks, List.dropWhile_cons_of_neg visible, List.rdropWhile] at same
      rw [List.cons_append, List.dropWhile_cons_of_neg visible, ← List.cons_append, List.rdropWhile,
        List.reverse_append,
        List.dropWhile_append_of_pos fun c member => blankBehind c (List.mem_reverse.mp member)]
      exact same

/-- A text is what trimming leaves, with blanks at both ends. -/
theorem exists_blanks (s : List Char) :
    ∃ before behind, s = before ++ trimBlanks s ++ behind ∧
      (∀ c ∈ before, isBlank c = true) ∧ ∀ c ∈ behind, isBlank c = true := by
  refine ⟨s.takeWhile isBlank, (skipBlanks s).rtakeWhile isBlank, ?_, ?_, ?_⟩
  · rw [trimBlanks_eq, List.append_assoc, List.rdropWhile_append_rtakeWhile, skipBlanks,
      List.takeWhile_append_dropWhile]
  · exact fun c member => List.mem_takeWhile_imp member
  · exact fun c member => List.mem_rtakeWhile_imp member

end AlarmView.Text
