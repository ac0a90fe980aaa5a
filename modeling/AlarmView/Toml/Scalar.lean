import AlarmView.Text.Decimal
import AlarmView.Text.Hexadecimal
import AlarmView.Time.Calendar
import AlarmView.Toml

/-!
# TOML numbers, dates and truth values

A value without quotes or brackets is one run of characters, and the whole run decides what it is.
-/

namespace AlarmView.Toml

open Text

def isScalarChar (c : Char) : Bool :=
  c.isAlphanum || c == '+' || c == '-' || c == '.' || c == '_' || c == ':'

def ungroup? (isDigit : Char → Bool) : List Char → Option (List Char)
  | [] => none
  | [c] => if isDigit c then some [c] else none
  | c :: '_' :: rest => if isDigit c then (ungroup? isDigit rest).map (c :: ·) else none
  | c :: rest => if isDigit c then (ungroup? isDigit rest).map (c :: ·) else none

/-- Splits off a sign; whether it is a minus, and the rest. -/
def splitSign : List Char → Bool × List Char
  | '+' :: rest => (false, rest)
  | '-' :: rest => (true, rest)
  | rest => (false, rest)

def integral? (s : List Char) : Option (List Char) :=
  (ungroup? Char.isDigit s).filter fun digits => digits.head? ≠ some '0' ∨ digits = ['0']

def integerBound : Nat := 0x8000000000000000

/-- Whether a run is an integer of 64 bits.  Numbers to other bases have a mark in front and no
sign. -/
def isInteger (s : List Char) : Bool :=
  let isBelow := fun base c =>
    match hexValue? c with
    | some digit => digit < base
    | none => false
  let fits := fun (base bound : Nat) (digits : Option (List Char)) =>
    match digits.bind (·.mapM hexValue?) with
    | some digits => digits.foldl (fun value digit => base * value + digit) 0 < bound
    | none => false
  match s with
  | '0' :: 'x' :: digits => fits 16 integerBound (ungroup? (isBelow 16) digits)
  | '0' :: 'o' :: digits => fits 8 integerBound (ungroup? (isBelow 8) digits)
  | '0' :: 'b' :: digits => fits 2 integerBound (ungroup? (isBelow 2) digits)
  | _ =>
      let (negative, digits) := splitSign s
      fits 10 (if negative then integerBound + 1 else integerBound) (integral? digits)

/-- Whether the number with these digits and this exponent of ten is too large for a double: it is
not below the middle between the largest double and the next power of two. -/
def isTooLarge (digits : List Char) (exponent : Int) : Bool :=
  let digits := digits.dropWhile (· == '0')
  let top := digits.length + exponent
  if digits = [] ∨ top ≤ 308 then false
  else if 310 < top then true
  else
    let value := Nat.ofDigitChars 10 digits 0 * Nat.pow 10 exponent.toNat
    Nat.pow 2 1024 - Nat.pow 2 970 ≤ value / Nat.pow 10 (-exponent).toNat

def exponent? (s : List Char) : Option Int :=
  let (negative, digits) := splitSign s
  (ungroup? Char.isDigit digits).map fun digits =>
    let value := Nat.ofDigitChars 10 digits 0
    if negative then -value else value

/-- Whether a run is a number with a fraction, an exponent or both.  A number that is too large is
refused, unless it is negative. -/
def isDecimal (s : List Char) : Bool :=
  let isExponentMark := fun c : Char => c == 'e' || c == 'E'
  let (negative, s) := splitSign s
  let mantissa := s.takeWhile fun c => !isExponentMark c
  let whole := mantissa.takeWhile (· != '.')
  let fraction :=
    match mantissa.dropWhile (· != '.') with
    | [] => some []
    | _ :: fraction => ungroup? Char.isDigit fraction
  let exponent :=
    match s.dropWhile fun c => !isExponentMark c with
    | [] => if mantissa.contains '.' then some 0 else none
    | _ :: exponent => exponent? exponent
  match integral? whole, fraction, exponent with
  | some whole, some fraction, some exponent =>
      negative || !isTooLarge (whole ++ fraction) (exponent - fraction.length)
  | _, _, _ => false

def isNonFinite (s : List Char) : Bool :=
  let (_, word) := splitSign s
  word == "inf".toList || word == "nan".toList

def isTwoDigits (limit : Nat) (s : List Char) : Bool :=
  s.length == 2 && (natural? s).any (· ≤ limit)

def isDate (s : List Char) : Bool :=
  match s with
  | [a, b, c, d, '-', e, f, '-', g, h] =>
      match natural? [a, b, c, d], natural? [e, f], natural? [g, h] with
      | some year, some month, some day => decide (Date.Exists { year, month, day })
      | _, _, _ => false
  | _ => false

/-- The normal form of a fraction of a second: nine digits at most, and no zeros behind. -/
def normalFraction (digits : List Char) : List Char :=
  match ((digits.take 9).reverse.dropWhile (· == '0')).reverse with
  | [] => []
  | kept => '.' :: kept

/-- Reads a time of day in normal form.  Second sixty is allowed in any minute. -/
def readTime : List Char → Option (List Char × List Char)
  | a :: b :: ':' :: c :: d :: ':' :: e :: f :: rest =>
      let clock := [a, b, ':', c, d, ':', e, f]
      if isTwoDigits 23 [a, b] && isTwoDigits 59 [c, d] && isTwoDigits 60 [e, f] then
        match rest with
        | '.' :: rest =>
            let digits := rest.takeWhile Char.isDigit
            if digits = [] then none
            else some (clock ++ normalFraction digits, rest.dropWhile Char.isDigit)
        | _ => some (clock, rest)
      else none
  | _ => none

def offset? : List Char → Option (List Char)
  | [] => some []
  | ['Z'] | ['z'] => some ['Z']
  | [sign, a, b, ':', c, d] =>
      if (sign = '+' ∨ sign = '-') ∧ isTwoDigits 23 [a, b] ∧ isTwoDigits 59 [c, d] then
        let isZero := [a, b, c, d].all (· == '0')
        some [if isZero then '+' else sign, a, b, ':', c, d]
      else none
  | _ => none

/-- The normal form of a date, a time of day or both; only both together have an offset. -/
def moment? (s : List Char) : Option (List Char) :=
  if isDate (s.take 10) then
    match s.drop 10 with
    | [] => some s
    | separator :: rest =>
        if separator = 'T' ∨ separator = 't' then do
          let (time, rest) ← readTime rest
          let offset ← offset? rest
          some (s.take 10 ++ 'T' :: time ++ offset)
        else none
  else
    match readTime s with
    | some (time, []) => some time
    | _ => none

def scalar? (s : List Char) : Option Value :=
  if s = "true".toList then some (.boolean true)
  else if s = "false".toList then some (.boolean false)
  else if isInteger s || isDecimal s || isNonFinite s then some .number
  else (moment? s).map fun written => .moment (String.ofList written)

/-- Reads a run.  A time of day may follow its date after one space. -/
def readScalar (s : List Char) : Option (Value × List Char) :=
  let run := s.takeWhile isScalarChar
  let rest := s.dropWhile isScalarChar
  let time :=
    match rest with
    | ' ' :: rest => if isDate run then rest.takeWhile isScalarChar else []
    | _ => []
  if time = [] then (scalar? run).map (·, rest)
  else (scalar? (run ++ 'T' :: time)).map (·, rest.drop (time.length + 1))

end AlarmView.Toml
