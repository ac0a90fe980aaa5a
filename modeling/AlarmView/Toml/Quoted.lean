import AlarmView.Text.Hexadecimal

/-!
# TOML texts

A text stands in double quotes, with escapes, or in single quotes, without.  In three quotes it may
go over several lines; then up to two quotes may stand right before those that end it.
-/

namespace AlarmView.Toml

def isSpace (c : Char) : Bool :=
  c == ' ' || c == '\t'

def isLineChar (c : Char) : Bool :=
  c == '\t' || (32 ≤ c.toNat && c.toNat != 127)

/-- Reads the quotes that end a text, with those before them that belong to it. -/
def readClosing (quote : Char) (lines : Bool) (s : List Char) : Option (List Char × List Char) :=
  let count := min 5 (s.takeWhile (· == quote)).length
  if lines then
    if count < 3 then none else some (List.replicate (count - 3) quote, s.drop count)
  else if count = 0 then none
  else some ([], s.drop 1)

def readLiteral (lines : Bool) : List Char → Option (List Char × List Char)
  | [] => none
  | c :: rest =>
      match readClosing '\'' lines (c :: rest) with
      | some closed => some closed
      | none =>
          if isLineChar c || (lines && c == '\n') then
            (readLiteral lines rest).map fun (text, rest) => (c :: text, rest)
          else none

/-- What is being read of a text in double quotes. -/
inductive EscapeMode where
  | plain
  | escape
  | code (missing value : Nat)
  | lineEnd
  /-- A backslash at the end of a line came before, and blank space since. -/
  | joining

def unescape? : Char → Option Char
  | 'b' => some (Char.ofNat 8)
  | 'f' => some (Char.ofNat 12)
  | 'n' => some '\n'
  | 'r' => some '\r'
  | 't' => some '\t'
  | '"' => some '"'
  | '\\' => some '\\'
  | _ => none

namespace EscapeMode

def canEnd : EscapeMode → Bool
  | plain | joining => true
  | _ => false

def plainStep? (lines : Bool) (c : Char) : Option (List Char × EscapeMode) :=
  if c = '\\' then some ([], escape)
  else if isLineChar c || (lines && c == '\n') then some ([c], plain)
  else none

def step? (lines : Bool) : EscapeMode → Char → Option (List Char × EscapeMode)
  | plain, c => plainStep? lines c
  | escape, c =>
      if c = 'u' then some ([], code 4 0)
      else if c = 'U' then some ([], code 8 0)
      else if lines && isSpace c then some ([], lineEnd)
      else if lines && c == '\n' then some ([], joining)
      else (unescape? c).map fun meant => ([meant], plain)
  | code missing value, c => do
      let digit ← Text.hexValue? c
      let value := 16 * value + digit
      if 1 < missing then some ([], code (missing - 1) value)
      else if value.isValidChar then some ([Char.ofNat value], plain)
      else none
  | lineEnd, c =>
      if isSpace c then some ([], lineEnd)
      else if c = '\n' then some ([], joining)
      else none
  | joining, c =>
      if isSpace c || c == '\n' then some ([], joining) else plainStep? lines c

end EscapeMode

def readEscaped (lines : Bool) : EscapeMode → List Char → Option (List Char × List Char)
  | _, [] => none
  | mode, c :: rest =>
      match if mode.canEnd then readClosing '"' lines (c :: rest) else none with
      | some closed => some closed
      | none => do
          let (meant, mode) ← mode.step? lines c
          let (text, rest) ← readEscaped lines mode rest
          some (meant ++ text, rest)

def asText (read : List Char × List Char) : String × List Char :=
  (String.ofList read.1, read.2)

def readQuoted : List Char → Option (String × List Char)
  | '"' :: rest => (readEscaped false .plain rest).map asText
  | '\'' :: rest => (readLiteral false rest).map asText
  | _ => none

def skipLineEnd : List Char → List Char
  | '\n' :: rest => rest
  | rest => rest

def readText : List Char → Option (String × List Char)
  | '"' :: '"' :: '"' :: rest => (readEscaped true .plain (skipLineEnd rest)).map asText
  | '\'' :: '\'' :: '\'' :: rest => (readLiteral true (skipLineEnd rest)).map asText
  | s => readQuoted s

end AlarmView.Toml
