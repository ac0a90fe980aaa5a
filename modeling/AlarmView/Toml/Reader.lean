import AlarmView.Toml.Quoted
import AlarmView.Toml.Scalar

/-!
# Reading TOML

A text is a list of lines, each with a header, an entry or nothing, and with a comment behind if it
has one.  Keys lead to the tables in which the lines put their values.
-/

namespace AlarmView.Toml

/-- The limit of nesting: for values in brackets or braces, and for the keys of one path. -/
def maxDepth : Nat := 79

def unifyLineEnds : List Char → List Char
  | '\r' :: '\n' :: rest => '\n' :: unifyLineEnds rest
  | c :: rest => c :: unifyLineEnds rest
  | [] => []

def skipSpaces (s : List Char) : List Char :=
  s.dropWhile isSpace

def readLineEnd (s : List Char) : Option (List Char) :=
  let behind :=
    match skipSpaces s with
    | '#' :: rest => rest.dropWhile isLineChar
    | rest => rest
  match behind with
  | [] => some []
  | '\n' :: rest => some rest
  | _ => none

def skipLines : (inComment : Bool) → List Char → List Char
  | _, [] => []
  | true, c :: rest =>
      if c = '\n' then skipLines false rest
      else if isLineChar c then skipLines true rest
      else c :: rest
  | false, c :: rest =>
      if isSpace c || c == '\n' then skipLines false rest
      else if c = '#' then skipLines true rest
      else c :: rest

def isBareKeyChar (c : Char) : Bool :=
  c.isAlphanum || c == '-' || c == '_'

def readKey (s : List Char) : Option (String × List Char) :=
  let bare := s.takeWhile isBareKeyChar
  if bare = [] then readQuoted s
  else some (String.ofList bare, s.dropWhile isBareKeyChar)

/-- Reads at most `limit` keys with dots between them: the path, the last key and the rest. -/
def readPath : (limit : Nat) → List Char → Option ((List String × String) × List Char)
  | 0, _ => none
  | limit + 1, s => do
      let (key, rest) ← readKey (skipSpaces s)
      match skipSpaces rest with
      | '.' :: rest => do
          let ((path, last), rest) ← readPath limit rest
          some ((key :: path, last), rest)
      | rest => some (([], key), rest)

abbrev Reads (α : Type) := List Char → Option (α × List Char)

def readEntry (readValue : Reads Value) (s : List Char) :
    Option ((List String × String × Value) × List Char) := do
  let ((path, key), rest) ← readPath maxDepth s
  match rest with
  | '=' :: rest => do
      let (value, rest) ← readValue (skipSpaces rest)
      some ((path, key, value), rest)
  | _ => none

/-- Reads the items of a list behind its bracket.  A comma may stand behind the last one. -/
def readItems (readValue : Reads Value) : (limit : Nat) → Reads (List Value)
  | 0, _ => none
  | limit + 1, s =>
      match skipLines false s with
      | ']' :: rest => some ([], rest)
      | s => do
          let (item, s) ← readValue s
          match skipLines false s with
          | ',' :: s => do
              let (items, s) ← readItems readValue limit s
              some (item :: items, s)
          | ']' :: s => some ([item], s)
          | _ => none

def readEntries (readValue : Reads Value) :
    (limit : Nat) → Reads (List (List String × String × Value))
  | 0, _ => none
  | limit + 1, s => do
      let (entry, s) ← readEntry readValue s
      match skipSpaces s with
      | ',' :: s => do
          let (entries, s) ← readEntries readValue limit s
          some (entry :: entries, s)
      | '\x7d' :: s => some ([entry], s)
      | _ => none

def braced? (entries : List (List String × String × Value)) : Option Value := do
  let table ← entries.foldlM (fun table (path, key, value) =>
    Entries.assign path key value .header table) []
  some (.table .braces table)

/-- Reads a value in which at most `depth` brackets and braces are open at once. -/
def readValue : (depth : Nat) → Reads Value
  | 0, s =>
      match s with
      | '"' :: _ | '\'' :: _ => (readText s).map fun (text, rest) => (.text text, rest)
      | _ => readScalar s
  | depth + 1, s =>
      match s with
      | '[' :: rest => do
          let (items, rest) ← readItems (readValue depth) (rest.length + 1) rest
          some (.list items, rest)
      | '\x7b' :: rest =>
          match skipSpaces rest with
          | '\x7d' :: rest => some (.table .braces [], rest)
          | _ => do
              let (entries, rest) ← readEntries (readValue depth) (rest.length + 1) rest
              let table ← braced? entries
              some (table, rest)
      | '"' :: _ | '\'' :: _ => (readText s).map fun (text, rest) => (.text text, rest)
      | _ => readScalar s

inductive Line where
  | entry (path : List String) (key : String) (value : Value)
  | header (path : List String) (key : String)
  | element (path : List String) (key : String)

def readLine (s : List Char) : Option (Line × List Char) :=
  match s with
  | '[' :: '[' :: rest => do
      let ((path, key), rest) ← readPath maxDepth rest
      match rest with
      | ']' :: ']' :: rest => some (.element path key, rest)
      | _ => none
  | '[' :: rest => do
      let ((path, key), rest) ← readPath maxDepth rest
      match rest with
      | ']' :: rest => some (.header path key, rest)
      | _ => none
  | s => do
      let ((path, key, value), rest) ← readEntry (readValue maxDepth) s
      some (.entry path key value, rest)

def readLines : (limit : Nat) → List Char → Option (List Line)
  | _, [] => some []
  | 0, _ => none
  | limit + 1, s =>
      match readLineEnd s with
      | some rest => readLines limit rest
      | none => do
          let (line, rest) ← readLine (skipSpaces s)
          let rest ← readLineEnd rest
          let lines ← readLines limit rest
          some (line :: lines)

/-- A text that has been read in part: its table, and the path of the table that is open. -/
structure Draft where
  openPath : List String
  entries : Entries

namespace Draft

def empty : Draft where
  openPath := []
  entries := []

def add (draft : Draft) : Line → Option Draft
  | .entry path key value => do
      let entries ←
        Entries.editAt .passed (Entries.assign path key value) draft.openPath .header draft.entries
      some { draft with entries }
  | .header path key => do
      let entries ← Entries.openTable path key .header draft.entries
      some { openPath := path ++ [key], entries }
  | .element path key => do
      let entries ← Entries.openElement path key .header draft.entries
      some { openPath := path ++ [key], entries }

end Draft

def read? (text : String) : Option Entries := do
  let s :=
    match unifyLineEnds text.toList with
    | '\uFEFF' :: rest => rest
    | s => s
  let lines ← readLines (s.length + 1) s
  let draft ← lines.foldlM Draft.add .empty
  some draft.entries

end AlarmView.Toml
