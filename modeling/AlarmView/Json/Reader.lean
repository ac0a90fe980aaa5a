import AlarmView.Json
import AlarmView.Text.Hexadecimal

/-!
# Reading JSON

A text is first split into tokens by an automaton that looks at one character at a time.  The
tokens then build the value on a stack of containers that are still open, so that values of any
depth can be read.
-/

namespace AlarmView.Json

inductive Token where
  | openList
  | closeList
  | openRecord
  | closeRecord
  | comma
  | colon
  | text (value : JsonText)
  | atom (value : Json)

def isHighSurrogate (unit : Nat) : Bool :=
  0xD800 ≤ unit && unit ≤ 0xDBFF

def isLowSurrogate (unit : Nat) : Bool :=
  0xDC00 ≤ unit && unit ≤ 0xDFFF

/-- The characters of code points and code units, in which both halves of every surrogate pair have
to stand together. -/
def joinUnits : List Nat → Option (List Char)
  | [] => some []
  | high :: low :: rest =>
      if isHighSurrogate high then
        if isLowSurrogate low then
          let code := 0x10000 + (high - 0xD800) * 0x400 + (low - 0xDC00)
          (joinUnits rest).map (Char.ofNat code :: ·)
        else none
      else if isLowSurrogate high then none
      else (joinUnits (low :: rest)).map (Char.ofNat high :: ·)
  | [unit] =>
      if isHighSurrogate unit || isLowSurrogate unit then none else some [Char.ofNat unit]

def unescape? : Char → Option Char
  | '"' => some '"'
  | '\\' => some '\\'
  | '/' => some '/'
  | 'b' => some (Char.ofNat 8)
  | 'f' => some (Char.ofNat 12)
  | 'n' => some '\n'
  | 'r' => some '\r'
  | 't' => some '\t'
  | _ => none

def word? (letters : List Char) : Option Json :=
  if letters = "null".toList then some .null
  else if letters = "true".toList then some (.bool true)
  else if letters = "false".toList then some (.bool false)
  else none

def isExponent : List Char → Bool
  | [] => true
  | mark :: rest =>
      let digits :=
        match rest with
        | sign :: digits => if sign = '+' ∨ sign = '-' then digits else rest
        | [] => []
      (mark == 'e' || mark == 'E') && !digits.isEmpty && digits.all Char.isDigit

/-- Whether the rest of a number is a fraction, an exponent, both or nothing. -/
def isFraction : List Char → Bool
  | '.' :: rest =>
      !(rest.takeWhile Char.isDigit).isEmpty && isExponent (rest.dropWhile Char.isDigit)
  | rest => isExponent rest

/-- The value of a number.  Its integral part has no needless zeros in front. -/
def number? (s : List Char) : Option Json :=
  let (negative, unsigned) :=
    match s with
    | '-' :: rest => (true, rest)
    | _ => (false, s)
  let digits := unsigned.takeWhile Char.isDigit
  let rest := unsigned.dropWhile Char.isDigit
  if digits = [] ∨ (digits.head? = some '0' ∧ digits ≠ ['0']) then none
  else if rest = [] then
    let value := Nat.ofDigitChars 10 digits 0
    if !negative then some (.integer value)
    else if value = 0 then some .fraction
    else some (.integer (-value))
  else if isFraction rest then some .fraction
  else none

/-- What the automaton is reading.  Characters and code units seen so far are in reverse order. -/
inductive Mode where
  | between
  | word (letters : List Char)
  | number (characters : List Char)
  | text (units : List Nat)
  | escape (units : List Nat)
  /-- After `seen` digits of an escaped code unit, with the value that they have. -/
  | unit (units : List Nat) (seen value : Nat)

def begin? (c : Char) : Option (List Token × Mode) :=
  match c with
  | ' ' | '\n' | '\t' | '\r' => some ([], .between)
  | '[' => some ([.openList], .between)
  | ']' => some ([.closeList], .between)
  | '\x7b' => some ([.openRecord], .between)
  | '\x7d' => some ([.closeRecord], .between)
  | ',' => some ([.comma], .between)
  | ':' => some ([.colon], .between)
  | '"' => some ([], .text [])
  | c =>
      if c = '-' ∨ c.isDigit then some ([], .number [c])
      else if c.isAlpha then some ([], .word [c])
      else none

def continuesNumber (c : Char) : Bool :=
  c.isDigit || c == '+' || c == '-' || c == '.' || c == 'e' || c == 'E'

def endBefore (token : Option Json) (c : Char) : Option (List Token × Mode) :=
  match token, begin? c with
  | some value, some (tokens, mode) => some (.atom value :: tokens, mode)
  | _, _ => none

/-- One step of the automaton: the tokens that a character completes, and how to go on. -/
def step? : Mode → Char → Option (List Token × Mode)
  | .between, c => begin? c
  | .word letters, c =>
      if c.isAlpha then some ([], .word (c :: letters)) else endBefore (word? letters.reverse) c
  | .number characters, c =>
      if continuesNumber c then some ([], .number (c :: characters))
      else endBefore (number? characters.reverse) c
  | .text units, c =>
      if c = '"' then some ([.text ((joinUnits units.reverse).map String.ofList)], .between)
      else if c = '\\' then some ([], .escape units)
      else if c.toNat < 32 then none
      else some ([], .text (c.toNat :: units))
  | .escape units, c =>
      if c = 'u' then some ([], .unit units 0 0)
      else (unescape? c).map fun meant => ([], .text (meant.toNat :: units))
  | .unit units seen value, c =>
      (Text.hexValue? c).map fun digit =>
        let value := 16 * value + digit
        ([], if seen = 3 then .text (value :: units) else .unit units (seen + 1) value)

def finish? : Mode → Option (List Token)
  | .between => some []
  | .word letters => (word? letters.reverse).map fun value => [.atom value]
  | .number characters => (number? characters.reverse).map fun value => [.atom value]
  | .text _ | .escape _ | .unit .. => none

/-- The tokens of a text behind those already found, which are in reverse order. -/
def tokensFrom (mode : Mode) (found : List Token) : List Char → Option (List Token)
  | [] => (finish? mode).map fun tokens => found.reverse ++ tokens
  | c :: rest =>
      match step? mode c with
      | some (tokens, mode) => tokensFrom mode (tokens.reverse ++ found) rest
      | none => none

def tokens? (s : List Char) : Option (List Token) :=
  tokensFrom .between [] s

/-- A container that is still open, with its finished parts in reverse order. -/
inductive Frame where
  | list (items : List Json)
  | record (fields : List (JsonText × Json)) (key : JsonText)

/-- Builds the value of some tokens.  Either a value has just been finished, or one has to start. -/
def build? : Option Json → List Frame → List Token → Option Json
  | none, frames, .atom value :: rest => build? (some value) frames rest
  | none, frames, .text value :: rest => build? (some (.text value)) frames rest
  | none, frames, .openList :: .closeList :: rest => build? (some (.list [])) frames rest
  | none, frames, .openList :: rest => build? none (.list [] :: frames) rest
  | none, frames, .openRecord :: .closeRecord :: rest => build? (some (.record [])) frames rest
  | none, frames, .openRecord :: .text key :: .colon :: rest =>
      build? none (.record [] key :: frames) rest
  | some value, [], [] => some value
  | some value, .list items :: frames, .comma :: rest =>
      build? none (.list (value :: items) :: frames) rest
  | some value, .list items :: frames, .closeList :: rest =>
      build? (some (.list (value :: items).reverse)) frames rest
  | some value, .record fields key :: frames, .comma :: .text next :: .colon :: rest =>
      build? none (.record ((key, value) :: fields) next :: frames) rest
  | some value, .record fields key :: frames, .closeRecord :: rest =>
      build? (some (.record ((key, value) :: fields).reverse)) frames rest
  | _, _, _ => none

def read? (s : String) : Option Json :=
  (tokens? s.toList).bind (build? none [])

end AlarmView.Json
