import AlarmView.Query

/-!
# The grammar of conditions

The tokens of a condition are read by the usual rules: a conjunction binds tighter than a
disjunction, and parentheses enclose a disjunction.  A clause is a single token.  A parser with one
pending level for each open parenthesis shows that no tokens can be read in two ways.
-/

namespace AlarmView.Query

theorem intersperse_cons {α : Type} (separator first : α) (rest : List α) :
    (first :: rest).intersperse separator =
      first :: rest.flatMap fun next => [separator, next] := by
  induction rest generalizing first with
  | nil => rfl
  | cons next rest ih => simp [ih]

theorem intercalate_cons {α : Type} (separator first : List α) (rest : List (List α)) :
    separator.intercalate (first :: rest) =
      first ++ rest.flatMap fun next => separator ++ next := by
  induction rest generalizing first with
  | nil => simp
  | cons next rest ih => simp [List.intercalate_cons_cons, ih]

/-- What the tokens of a condition say about the clauses. -/
inductive Formula where
  | clause (content : Clause)
  | and (left right : Formula)
  | or (left right : Formula)
deriving DecidableEq

namespace Formula

/-- The truth of a formula under an assignment to the clauses. -/
def eval (truth : Clause → Bool) : Formula → Bool
  | clause content => truth content
  | and left right => left.eval truth && right.eval truth
  | or left right => left.eval truth || right.eval truth

end Formula

/-- The three kinds of phrases, from the tightest to the loosest. -/
inductive Phrase where
  | operand
  | conjunction
  | disjunction
deriving DecidableEq

/-- Tokens that form a phrase, with the formula that they stand for. -/
inductive Reads : Phrase → List Token → Formula → Prop where
  | clause (content : Clause) :
      Reads .operand [.clause content] (.clause content)
  | parentheses {inner : List Token} {formula : Formula} :
      Reads .disjunction inner formula →
      Reads .operand (.openGroup :: inner ++ [.closeGroup]) formula
  | operand {tokens : List Token} {formula : Formula} :
      Reads .operand tokens formula → Reads .conjunction tokens formula
  | and {first second : List Token} {left right : Formula} :
      Reads .conjunction first left → Reads .operand second right →
      Reads .conjunction (first ++ .and :: second) (.and left right)
  | conjunction {tokens : List Token} {formula : Formula} :
      Reads .conjunction tokens formula → Reads .disjunction tokens formula
  | or {first second : List Token} {left right : Formula} :
      Reads .disjunction first left → Reads .conjunction second right →
      Reads .disjunction (first ++ .or :: second) (.or left right)

namespace Parser

/-- A level that waits for an operand: the disjunction before the last OR and the conjunction
before the last AND. -/
structure Level where
  disjunction : Option Formula
  conjunction : Option Formula

/-- Where the parser stands: before an operand, or behind a conjunction. -/
inductive State where
  | before (level : Level) (outer : List Level)
  | behind (disjunction : Option Formula) (conjunction : Formula) (outer : List Level)

def start : State := .before ⟨none, none⟩ []

/-- A formula joined to the one in front of it, if there is one. -/
def attach (join : Formula → Formula → Formula) : Option Formula → Formula → Formula
  | none, formula => formula
  | some left, right => join left right

def complete (level : Level) (formula : Formula) (outer : List Level) : State :=
  .behind level.disjunction (attach .and level.conjunction formula) outer

def step : State → Token → Option State
  | .before level outer, .clause content => some (complete level (.clause content) outer)
  | .before level outer, .openGroup => some (.before ⟨none, none⟩ (level :: outer))
  | .behind disjunction conjunction outer, .and =>
      some (.before ⟨disjunction, some conjunction⟩ outer)
  | .behind disjunction conjunction outer, .or =>
      some (.before ⟨some (attach .or disjunction conjunction), none⟩ outer)
  | .behind disjunction conjunction (level :: outer), .closeGroup =>
      some (complete level (attach .or disjunction conjunction) outer)
  | _, _ => none

def finish : State → Option Formula
  | .behind disjunction conjunction [] => some (attach .or disjunction conjunction)
  | _ => none

def parse? (tokens : List Token) : Option Formula :=
  (tokens.foldlM step start).bind finish

/-- Where reading a phrase of some kind leads from the state before it. -/
def Reaches (formula : Formula) (tokens : List Token) : Phrase → Prop
  | .operand => ∀ level outer,
      tokens.foldlM step (.before level outer) = some (complete level formula outer)
  | .conjunction => ∀ disjunction outer,
      tokens.foldlM step (.before ⟨disjunction, none⟩ outer) =
        some (.behind disjunction formula outer)
  | .disjunction => ∀ outer, ∃ disjunction conjunction,
      tokens.foldlM step (.before ⟨none, none⟩ outer) =
          some (.behind disjunction conjunction outer) ∧
        attach .or disjunction conjunction = formula

end Parser

open AlarmView.Query.Parser

/-- The parser follows every reading, whatever levels are pending around it. -/
theorem Reads.reaches {phrase : Phrase} {tokens : List Token} {formula : Formula}
    (reading : Reads phrase tokens formula) : Reaches formula tokens phrase := by
  induction reading with
  | clause content =>
      intro level outer
      simp [step]
  | parentheses _ inside =>
      intro level outer
      obtain ⟨disjunction, conjunction, run, joined⟩ := inside (level :: outer)
      simp [step, run, joined]
  | operand _ run =>
      intro disjunction outer
      exact run ⟨disjunction, none⟩ outer
  | @and _ _ leftFormula _ _ _ left right =>
      intro disjunction outer
      have last := right ⟨disjunction, some leftFormula⟩ outer
      simpa [left disjunction outer, step, complete, attach] using last
  | conjunction _ run =>
      intro outer
      exact ⟨none, _, run none outer, rfl⟩
  | @or _ _ leftFormula _ _ _ left right =>
      intro outer
      obtain ⟨disjunction, conjunction, run, joined⟩ := left outer
      have last := right (some leftFormula) outer
      refine ⟨some leftFormula, _, ?_, rfl⟩
      simpa [run, step, joined] using last

private theorem Reads.parse? {tokens : List Token} {formula : Formula}
    (reading : Reads .disjunction tokens formula) : parse? tokens = some formula := by
  obtain ⟨disjunction, conjunction, run, joined⟩ := reading.reaches []
  have finished : finish (.behind disjunction conjunction []) = some formula := by
    simp [finish, joined]
  simpa [Parser.parse?, start, run] using finished

/-- No condition can be read in two ways. -/
theorem Reads.unique {tokens : List Token} {first second : Formula}
    (reading : Reads .disjunction tokens first)
    (other : Reads .disjunction tokens second) : second = first := by
  have same : some second = some first := other.parse?.symm.trans reading.parse?
  exact Option.some.inj same

private theorem Reads.or_clauses {tokens : List Token} {formula : Formula}
    (reading : Reads .disjunction tokens formula) (clauses : List Clause) : ∃ whole,
      Reads .disjunction (tokens ++ clauses.flatMap fun content => [.or, .clause content]) whole ∧
        ∀ truth, whole.eval truth = (formula.eval truth || clauses.any truth) := by
  induction clauses generalizing tokens formula with
  | nil => exact ⟨formula, by simpa using reading, by simp⟩
  | cons content rest ih =>
      obtain ⟨whole, wholeReads, value⟩ := ih (reading.or (.operand (.clause content)))
      refine ⟨whole, by simpa using wholeReads, fun truth => ?_⟩
      rw [value]
      simp [Formula.eval, Bool.or_assoc]

theorem Reads.group (group : Group) (nonempty : group.clauses ≠ []) :
    ∃ formula, Reads .operand group.tokens formula ∧
      ∀ truth, formula.eval truth = group.clauses.any truth := by
  obtain ⟨attr, clauses⟩ := group
  match clauses, nonempty with
  | [content], _ =>
      exact ⟨.clause content, by simpa [Group.tokens] using .clause content,
        by simp [Formula.eval]⟩
  | content :: next :: rest, _ =>
      obtain ⟨whole, wholeReads, value⟩ :=
        Reads.or_clauses (.conjunction (.operand (.clause content))) (next :: rest)
      refine ⟨whole, ?_, fun truth => by simp [value, Formula.eval]⟩
      have enclosed := Reads.parentheses wholeReads
      have several : ¬ rest.length + 1 + 1 < 2 := by omega
      simpa [Group.tokens, several, intersperse_cons, List.flatMap_map] using enclosed

private theorem Reads.and_groups {tokens : List Token} {formula : Formula}
    (reading : Reads .conjunction tokens formula) {groups : List Group}
    (nonempty : ∀ group ∈ groups, group.clauses ≠ []) :
    ∃ whole, Reads .conjunction (tokens ++ groups.flatMap fun group => .and :: group.tokens) whole ∧
      ∀ truth, whole.eval truth =
        (formula.eval truth && groups.all fun group => group.clauses.any truth) := by
  induction groups generalizing tokens formula with
  | nil => exact ⟨formula, by simpa using reading, by simp⟩
  | cons group rest ih =>
      obtain ⟨next, nextReads, nextValue⟩ := Reads.group group (nonempty group List.mem_cons_self)
      obtain ⟨whole, wholeReads, value⟩ := ih (reading.and nextReads)
        fun other member => nonempty other (List.mem_cons_of_mem _ member)
      refine ⟨whole, by simpa using wholeReads, fun truth => ?_⟩
      rw [value]
      simp [Formula.eval, nextValue, Bool.and_assoc]

/-- The condition of a query is read as the conjunction of its groups. -/
theorem Reads.query {query : Query} (someGroup : query.groups ≠ [])
    (nonempty : ∀ group ∈ query.groups, group.clauses ≠ []) :
    ∃ formula, Reads .disjunction query.tokens formula ∧
      ∀ truth, formula.eval truth = query.groups.all fun group => group.clauses.any truth := by
  obtain ⟨groups⟩ := query
  obtain ⟨first, rest, rfl⟩ := List.exists_cons_of_ne_nil someGroup
  obtain ⟨formula, reading, value⟩ := Reads.group first (nonempty first List.mem_cons_self)
  have restNonempty : ∀ group ∈ rest, group.clauses ≠ [] :=
    fun other member => nonempty other (List.mem_cons_of_mem _ member)
  obtain ⟨whole, wholeReads, wholeValue⟩ := Reads.and_groups (.operand reading) restNonempty
  refine ⟨whole, ?_, fun truth => by simp [wholeValue, value]⟩
  have condition := Reads.conjunction wholeReads
  simpa [tokens, intercalate_cons, List.flatMap_map] using condition

end AlarmView.Query
