import AlarmView.Json
import AlarmView.Text.Decimal

/-!
# Written JSON

Values are written over several lines, with two blanks of indentation for each level.
-/

namespace AlarmView.Json

def hexDigit (value : Nat) : Char :=
  Nat.digitChar value

def escape (c : Char) : List Char :=
  if c = '"' then ['\\', '"']
  else if c = '\\' then ['\\', '\\']
  else if c = '\n' then ['\\', 'n']
  else if c = '\t' then ['\\', 't']
  else if c = '\r' then ['\\', 'r']
  else if c.toNat = 8 then ['\\', 'b']
  else if c.toNat = 12 then ['\\', 'f']
  else if c.toNat < 32 then ['\\', 'u', '0', '0', hexDigit (c.toNat / 16), hexDigit (c.toNat % 16)]
  else [c]

/-- A written text.  A text without a value is not written by the program; it comes out as null. -/
def quoted : JsonText → List Char
  | some value => '"' :: value.toList.flatMap escape ++ ['"']
  | none => "null".toList

def integerText (value : Int) : List Char :=
  if value < 0 then '-' :: Nat.toDigits 10 value.natAbs else Nat.toDigits 10 value.natAbs

def newLine (level : Nat) : List Char :=
  '\n' :: List.replicate (2 * level) ' '

mutual

def printAt (level : Nat) : Json → List Char
  | .null => "null".toList
  | .bool value => if value then "true".toList else "false".toList
  | .integer value => integerText value
  | .fraction => "null".toList
  | .text value => quoted value
  | .list [] => "[]".toList
  | .list (item :: items) =>
      '[' :: newLine (level + 1) ++ printAt (level + 1) item ++ printItems (level + 1) items
        ++ newLine level ++ [']']
  | .record [] => ['\x7b', '\x7d']
  | .record ((key, value) :: fields) =>
      '\x7b' :: newLine (level + 1) ++ quoted key ++ ": ".toList ++ printAt (level + 1) value
        ++ printFields (level + 1) fields ++ newLine level ++ ['\x7d']

def printItems (level : Nat) : List Json → List Char
  | [] => []
  | item :: items => ',' :: newLine level ++ printAt level item ++ printItems level items

def printFields (level : Nat) : List (JsonText × Json) → List Char
  | [] => []
  | (key, value) :: fields =>
      ',' :: newLine level ++ quoted key ++ ": ".toList ++ printAt level value
        ++ printFields level fields

end

def print (json : Json) : String :=
  String.ofList (printAt 0 json)

end AlarmView.Json
