import AlarmView.Proofs.Query.Grammar

/-!
# Scanning the text of a query

A text is scanned for its boolean structure: the parentheses and the words AND and OR that stand
outside of literals.  Literals are enclosed in single quotes, with a doubled quote for a quote in
them, and points of time in double quotes.
-/

namespace AlarmView.Query

/-- A part of the boolean structure of a text. -/
inductive Mark where
  | openParenthesis
  | closeParenthesis
  | and
  | or
deriving DecidableEq

/-- Where a scan stands. -/
inductive ScanState where
  | outside (word : List Char)
  | literal
  /-- Behind a quote in a literal, which ends it unless another quote follows. -/
  | quote
  | timestamp
deriving DecidableEq

/-- Words are made of letters, digits, underscores and everything beyond ASCII. -/
def isWordChar (c : Char) : Bool :=
  c.isAlphanum || c == '_' || 128 ≤ c.toNat

def wordMarks (word : List Char) : List Mark :=
  if word = ['A', 'N', 'D'] then [.and] else if word = ['O', 'R'] then [.or] else []

namespace ScanState

/-- What the word at the end of a scan means for the structure. -/
def pending : ScanState → List Mark
  | outside word => wordMarks word
  | _ => []

def isClosed : ScanState → Bool
  | outside _ | quote => true
  | literal | timestamp => false

def enter (c : Char) : ScanState × List Mark :=
  if c = '\'' then (literal, [])
  else if c = '"' then (timestamp, [])
  else if c = '(' then (outside [], [.openParenthesis])
  else if c = ')' then (outside [], [.closeParenthesis])
  else if isWordChar c then (outside [c], [])
  else (outside [], [])

def step : ScanState → Char → ScanState × List Mark
  | outside word, c =>
      if isWordChar c then (outside (word ++ [c]), [])
      else ((enter c).1, wordMarks word ++ (enter c).2)
  | literal, c => (if c = '\'' then quote else literal, [])
  | quote, c => if c = '\'' then (literal, []) else enter c
  | timestamp, c => (if c = '"' then outside [] else timestamp, [])

/-- Scans some characters. -/
def run : ScanState → List Char → ScanState × List Mark
  | state, [] => (state, [])
  | state, c :: rest =>
      ((run (step state c).1 rest).1, (step state c).2 ++ (run (step state c).1 rest).2)

theorem run_append (state : ScanState) (first second : List Char) :
    run state (first ++ second) =
      ((run (run state first).1 second).1,
        (run state first).2 ++ (run (run state first).1 second).2) := by
  induction first generalizing state with
  | nil => simp [run]
  | cons c rest ih => simp [run, ih]

theorem run_literal {text : List Char} (noQuote : '\'' ∉ text) :
    run literal text = (literal, []) := by
  induction text with
  | nil => rfl
  | cons c rest ih =>
      obtain ⟨different, restNoQuote⟩ := List.ne_and_not_mem_of_not_mem_cons noQuote
      simp [run, step, different.symm, ih restNoQuote]

theorem run_timestamp {text : List Char} (noQuote : '"' ∉ text) :
    run timestamp text = (timestamp, []) := by
  induction text with
  | nil => rfl
  | cons c rest ih =>
      obtain ⟨different, restNoQuote⟩ := List.ne_and_not_mem_of_not_mem_cons noQuote
      simp [run, step, different.symm, ih restNoQuote]

/-- Whether a character ends a word or a literal in front of it. -/
def separates (c : Char) : Bool :=
  !isWordChar c && c != '\''

/-- Behind a closed scan a separator is scanned as at the start of a text. -/
theorem step_of_isClosed {state : ScanState} (closed : state.isClosed) {c : Char}
    (separator : separates c) :
    step state c = ((step (outside []) c).1, state.pending ++ (step (outside []) c).2) := by
  obtain ⟨noWord, noQuote⟩ : isWordChar c = false ∧ c ≠ '\'' := by
    simpa [separates] using separator
  cases state with
  | outside word => simp [step, noWord, pending, wordMarks]
  | quote => simp [step, noWord, noQuote, pending, wordMarks]
  | literal => simp [isClosed] at closed
  | timestamp => simp [isClosed] at closed

end ScanState

open ScanState

/-- The boolean structure of a text, if all its literals are closed. -/
def scan (text : List Char) : Option (List Mark) :=
  let last := run (.outside []) text
  if last.1.isClosed then some (last.2 ++ last.1.pending) else none

theorem scan_eq_some {text : List Char} {marks : List Mark} :
    scan text = some marks ↔
      (run (.outside []) text).1.isClosed ∧
        (run (.outside []) text).2 ++ (run (.outside []) text).1.pending = marks := by
  simp [scan]

/-- A part that ends outside of words and literals can be scanned on its own. -/
theorem scan_append_of_run {first : List Char} {marks : List Mark}
    (reset : run (.outside []) first = (.outside [], marks)) (second : List Char) :
    scan (first ++ second) = (scan second).map (marks ++ ·) := by
  simp only [scan, run_append, reset]
  split <;> simp

/-- A part in front of a separator can be scanned on its own. -/
theorem scan_append {first : List Char} {marks : List Mark} (scanned : scan first = some marks)
    {c : Char} (separator : separates c) (second : List Char) :
    scan (first ++ c :: second) = (scan (c :: second)).map (marks ++ ·) := by
  obtain ⟨closed, rfl⟩ := scan_eq_some.mp scanned
  simp only [scan, run_append, run, step_of_isClosed closed separator]
  by_cases last : (run (step (outside []) c).1 second).1.isClosed <;> simp [last]

theorem scan_between {first second joint : List Char} {left right middle : List Mark}
    (leftScan : scan first = some left) (rightScan : scan second = some right)
    (separator : joint.head?.any separates)
    (reset : run (.outside []) joint = (.outside [], middle)) :
    scan (first ++ (joint ++ second)) = some (left ++ (middle ++ right)) := by
  have behind : scan (joint ++ second) = some (middle ++ right) := by
    rw [scan_append_of_run reset, rightScan]
    rfl
  cases joint with
  | nil => simp at separator
  | cons c word =>
      rw [List.cons_append] at behind ⊢
      rw [scan_append leftScan (by simpa using separator), behind]
      rfl

def clauseMarks (content : Clause) : List Mark :=
  (scan content.text.toList).getD []

/-- The structure that a token contributes. -/
def Token.marks : Token → List Mark
  | clause content => clauseMarks content
  | and => [.and]
  | or => [.or]
  | openGroup => [.openParenthesis]
  | closeGroup => [.closeParenthesis]

def tokenChars (tokens : List Token) : List Char :=
  tokens.flatMap fun token => token.text.toList

/-- A condition whose clauses are closed has the structure of its tokens. -/
theorem Reads.scan {phrase : Phrase} {tokens : List Token} {formula : Formula}
    (reading : Reads phrase tokens formula)
    (closed : ∀ content, .clause content ∈ tokens → (scan content.text.toList).isSome) :
    scan (tokenChars tokens) = some (tokens.flatMap Token.marks) := by
  induction reading with
  | clause content =>
      obtain ⟨marks, scanned⟩ := Option.isSome_iff_exists.mp (closed content (by simp))
      simp [tokenChars, Token.text, Token.marks, clauseMarks, scanned]
  | @parentheses inner _ _ ih =>
      have inside := ih fun content member => closed content (by simp [member])
      have opened : run (.outside []) ['('] = (.outside [], [.openParenthesis]) := by decide
      have shut : run (.outside []) [')'] = (.outside [], [.closeParenthesis]) := by decide
      have nothing : Query.scan [] = some [] := rfl
      have behind := scan_between inside nothing (by decide) shut
      have whole := scan_append_of_run opened (tokenChars inner ++ ([')'] ++ []))
      rw [behind] at whole
      simpa [tokenChars, Token.text, Token.marks] using whole
  | operand _ ih => exact ih closed
  | and _ _ left right =>
      have leftScan := left fun content member => closed content (by simp [member])
      have rightScan := right fun content member => closed content (by simp [member])
      have word : run (.outside []) [' ', 'A', 'N', 'D', ' '] = (.outside [], [.and]) := by decide
      simpa [tokenChars, Token.text, Token.marks] using
        scan_between leftScan rightScan (by decide) word
  | conjunction _ ih => exact ih closed
  | or _ _ left right =>
      have leftScan := left fun content member => closed content (by simp [member])
      have rightScan := right fun content member => closed content (by simp [member])
      have word : run (.outside []) [' ', 'O', 'R', ' '] = (.outside [], [.or]) := by decide
      simpa [tokenChars, Token.text, Token.marks] using
        scan_between leftScan rightScan (by decide) word

end AlarmView.Query
