import AlarmView.Proofs.Query.Quoting
import AlarmView.Proofs.Query.Reading
import AlarmView.Proofs.Text.Decimal

/-!
# The structure of clauses

Points of time and severities contribute no structure and leave no literal open, so that a clause
of a range has the structure of its words.  The structure of a compiled query follows from that of
its clauses.
-/

namespace AlarmView

open Query ScanState Text

theorem Instant.noQuote_queryText (t : Instant) : '"' ∉ t.queryText.toList := by
  have noDigit : ∀ width n, '"' ∉ padded width n := fun width n member =>
    absurd (isDigit_of_mem_padded member) (by decide)
  have noSign : ∀ year, '"' ∉ Date.yearText year := by
    intro year
    unfold Date.yearText
    split
    · exact noDigit 4 _
    · split <;> simp [noDigit]
  simp [queryText, queryChars, Date.text, clockText, noDigit, noSign]

namespace Query

theorem wordMarks_of_digits {word : List Char} (digits : ∀ c ∈ word, c.isDigit) :
    wordMarks word = [] := by
  have notAnd : word ≠ ['A', 'N', 'D'] := fun same =>
    absurd (digits 'A' (by simp [same])) (by decide)
  have notOr : word ≠ ['O', 'R'] := fun same =>
    absurd (digits 'O' (by simp [same])) (by decide)
  simp [wordMarks, notAnd, notOr]

private theorem run_number {text : List Char} (number : ∀ c ∈ text, c.isDigit ∨ c = '-')
    {word : List Char} (digits : ∀ c ∈ word, c.isDigit) :
    ∃ last, (∀ c ∈ last, Char.isDigit c) ∧ run (.outside word) text = (.outside last, []) := by
  induction text generalizing word with
  | nil => exact ⟨word, digits, rfl⟩
  | cons c rest ih =>
      have restNumber : ∀ other ∈ rest, Char.isDigit other ∨ other = '-' :=
        fun other member => number other (List.mem_cons_of_mem _ member)
      rcases number c List.mem_cons_self with digit | rfl
      · have longer : ∀ other ∈ word ++ [c], Char.isDigit other := by
          simp only [List.mem_append, List.mem_singleton]
          rintro other (old | rfl)
          · exact digits other old
          · exact digit
        obtain ⟨last, lastDigits, whole⟩ := ih restNumber longer
        have letter : isWordChar c := by simp [isWordChar, Char.isAlphanum, digit]
        exact ⟨last, lastDigits, by simp only [run, step, letter, if_true, whole, List.append_nil]⟩
      · have empty : ∀ other ∈ ([] : List Char), Char.isDigit other := by simp
        obtain ⟨last, lastDigits, whole⟩ := ih restNumber empty
        have sign : step (.outside word) '-' = (.outside [], []) := by
          simp [step, wordMarks_of_digits digits, (by decide : isWordChar '-' = false),
            (by decide : enter '-' = (.outside [], []))]
        exact ⟨last, lastDigits, by simp only [run, sign, whole, List.append_nil]⟩

private theorem scan_number {text : List Char} (number : ∀ c ∈ text, c.isDigit ∨ c = '-') :
    scan text = some [] := by
  have empty : ∀ c ∈ ([] : List Char), Char.isDigit c := by simp
  obtain ⟨last, digits, whole⟩ := run_number number empty
  exact scan_eq_some.mpr (by simp [whole, isClosed, pending, wordMarks_of_digits digits])

private theorem scan_int (n : Int) : scan (toString n).toList = some [] := by
  apply scan_number
  intro c member
  rw [Int.toString_eq_repr, Int.repr_eq_if] at member
  have digits (m : Nat) (listed : c ∈ m.repr.toList) : c.isDigit := by
    have digit : c ∈ Nat.toDigits 10 m := by simpa using listed
    exact Nat.isDigit_of_mem_toDigits (by decide) (by decide) digit
  split at member
  · exact .inl (digits _ member)
  · simp only [String.toList_append, List.mem_append] at member
    rcases member with minus | digit
    · exact .inr (by simpa using minus)
    · exact .inl (digits _ digit)

theorem scan_severity (lower upper : Int) :
    scan (Clause.severity lower upper).text.toList =
      some [.openParenthesis, .and, .closeParenthesis] := by
  have head : run (.outside []) "(Severity >= ".toList = (.outside [], [.openParenthesis]) := by
    decide +kernel
  have middle : run (.outside []) " AND Severity <= ".toList = (.outside [], [.and]) := by
    decide +kernel
  have last : run (.outside []) ")".toList = (.outside [], [.closeParenthesis]) := by decide
  have nothing : scan [] = some [] := rfl
  have upperScan := scan_between (scan_int upper) nothing (by decide) last
  have lowerScan := scan_between (scan_int lower) upperScan (by decide +kernel) middle
  have parts (first second third fourth fifth : String) :
      (first ++ second ++ third ++ fourth ++ fifth).toList =
        first.toList ++ (second.toList ++ (third.toList ++ (fourth.toList ++
          (fifth.toList ++ [])))) := by
    simp
  calc scan (Clause.severity lower upper).text.toList
      = scan ("(Severity >= ".toList ++ ((toString lower).toList ++ (" AND Severity <= ".toList ++
          ((toString upper).toList ++ (")".toList ++ []))))) := congrArg scan (parts ..)
    _ = some [.openParenthesis, .and, .closeParenthesis] := by
        rw [scan_append_of_run head, lowerScan]
        rfl

theorem scan_before (upper : Instant) :
    scan (Clause.before upper).text.toList = some [.openParenthesis, .closeParenthesis] := by
  have head : run (.outside []) "(Time < \"".toList = (.timestamp, [.openParenthesis]) := by
    decide +kernel
  have last : run .timestamp "\")".toList = (.outside [], [.closeParenthesis]) := by
    decide +kernel
  have text : (Clause.before upper).text = "(Time < \"" ++ upper.queryText ++ "\")" := rfl
  apply scan_eq_some.mpr
  simp only [text, String.toList_append, run_append, head, run_timestamp upper.noQuote_queryText,
    last]
  simp [isClosed, pending, wordMarks]

theorem scan_window (lower : Instant) (upper : Option Instant) :
    (scan (Clause.window lower upper).text.toList).isSome := by
  have head : run (.outside []) "(Time >= \"".toList = (.timestamp, [.openParenthesis]) := by
    decide +kernel
  have middle : run .timestamp "\" AND Time < \"".toList = (.timestamp, [.and]) := by
    decide +kernel
  have last : run .timestamp "\")".toList = (.outside [], [.closeParenthesis]) := by
    decide +kernel
  refine Option.isSome_iff_exists.mpr ⟨_, scan_eq_some.mpr ⟨?_, rfl⟩⟩
  cases upper with
  | none =>
      have text : (Clause.window lower none).text =
          "(Time >= \"" ++ lower.queryText ++ "\")" := rfl
      simp only [text, String.toList_append, run_append, head,
        run_timestamp lower.noQuote_queryText, last]
      rfl
  | some upper =>
      have text : (Clause.window lower (some upper)).text =
          "(Time >= \"" ++ lower.queryText ++ "\" AND Time < \"" ++ upper.queryText ++ "\")" :=
        rfl
      simp only [text, String.toList_append, run_append, head, middle,
        run_timestamp lower.noQuote_queryText, run_timestamp upper.noQuote_queryText, last]
      rfl

private theorem flatMap_intersperse {α β : Type} (f : α → List β) (separator : α) (items : List α) :
    (items.intersperse separator).flatMap f = (f separator).intercalate (items.map f) := by
  cases items with
  | nil => rfl
  | cons first rest =>
      simp [intersperse_cons, intercalate_cons, List.flatMap_assoc, List.flatMap_map]

private theorem flatMap_intercalate {α β : Type} (f : α → List β) (separator : List α)
    (items : List (List α)) : (separator.intercalate items).flatMap f =
      (separator.flatMap f).intercalate (items.map fun item => item.flatMap f) := by
  cases items with
  | nil => rfl
  | cons first rest =>
      simp [intercalate_cons, List.flatMap_assoc, List.flatMap_map]

/-- What a group with clauses of some structures adds to the structure of a query. -/
def groupMarks (clauses : List (List Mark)) : List Mark :=
  if clauses.length < 2 then [Mark.or].intercalate clauses
  else .openParenthesis :: [Mark.or].intercalate clauses ++ [.closeParenthesis]

/-- The structure that the compiler gives to a query. -/
def marks (query : Query) : List Mark :=
  [Mark.and].intercalate (query.groups.map fun group => groupMarks (group.clauses.map clauseMarks))

private theorem marks_group (group : Group) :
    group.tokens.flatMap Token.marks = groupMarks (group.clauses.map clauseMarks) := by
  have alternatives : ((group.clauses.map Token.clause).intersperse .or).flatMap Token.marks =
      [Mark.or].intercalate (group.clauses.map clauseMarks) := by
    rw [flatMap_intersperse, List.map_map]
    rfl
  unfold Group.tokens groupMarks
  rw [List.length_map]
  split
  · exact alternatives
  · rw [List.flatMap_append, List.flatMap_cons, alternatives]
    rfl

private theorem marks_tokens (query : Query) : query.tokens.flatMap Token.marks = query.marks := by
  rw [tokens, flatMap_intercalate, List.map_map]
  exact congrArg _ (List.map_congr_left fun group _ => marks_group group)

private theorem mem_tokens {query : Query} {content : Clause}
    (member : .clause content ∈ query.tokens) :
    ∃ group ∈ query.groups, content ∈ group.clauses := by
  have inGroup : ∃ group ∈ query.groups, Token.clause content ∈ group.tokens := by
    unfold tokens at member
    cases groups : query.groups with
    | nil => simp [groups] at member
    | cons first rest => simpa [groups, intercalate_cons] using member
  obtain ⟨group, listed, member⟩ := inGroup
  refine ⟨group, listed, ?_⟩
  have alternative :
      Token.clause content ∈ (group.clauses.map Token.clause).intersperse .or := by
    unfold Group.tokens at member
    split at member
    · exact member
    · simpa using member
  cases clauses : group.clauses with
  | nil => simp [clauses] at alternative
  | cons first rest => simpa [clauses, intersperse_cons] using alternative

/-- The text of a query has the structure that the compiler gives to it. -/
theorem scan_text {query : Query} (nonempty : ∀ group ∈ query.groups, group.clauses ≠ [])
    (closed : ∀ group ∈ query.groups, ∀ content ∈ group.clauses,
      (scan content.text.toList).isSome) :
    scan query.text.toList = some query.marks := by
  by_cases none : query.groups = []
  · have base : scan baseText.toList = some [] := by decide +kernel
    simp [text, marks, none, base]
  · obtain ⟨formula, reading, _⟩ := Reads.query none nonempty
    have condition : scan (tokenChars query.tokens) = some query.marks := by
      rw [← marks_tokens]
      apply reading.scan
      intro content member
      obtain ⟨group, listed, member⟩ := mem_tokens member
      exact closed group listed content member
    have select : run (.outside []) (baseText ++ " WHERE ").toList = (.outside [], []) := by
      decide +kernel
    have parts : query.text.toList = (baseText ++ " WHERE ").toList ++ tokenChars query.tokens := by
      unfold text
      split
      · next groups => exact absurd groups none
      · simp only [String.toList_append, String.toList_join, List.flatMap_map, tokenChars]
    rw [parts, scan_append_of_run select, condition]
    rfl

end Query

end AlarmView
