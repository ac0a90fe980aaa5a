/-!
# JSON values

Values of the format in which workspaces are saved.  A text may contain an escape that names half of
a surrogate pair; such a text is well formed but has no value.  A number that is no integer in its
written form (one with a fraction or an exponent, and the negative zero) is never used by the
program, so its value is not kept.
-/

namespace AlarmView

/-- A text as it is written in a file, if it has a value. -/
abbrev JsonText := Option String

/-- A value.  The fields of a record keep their order and may repeat a key. -/
inductive Json where
  | null
  | bool (value : Bool)
  | integer (value : Int)
  | fraction
  | text (value : JsonText)
  | list (items : List Json)
  | record (fields : List (JsonText × Json))
deriving Inhabited

namespace Json

def string (value : String) : Json :=
  .text (some value)

def object (fields : List (String × Json)) : Json :=
  .record (fields.map fun (key, value) => (some key, value))

def string? : Json → Option String
  | .text value => value
  | _ => none

def bool? : Json → Option Bool
  | .bool value => some value
  | _ => none

def integer? : Json → Option Int
  | .integer value => some value
  | _ => none

def items? : Json → Option (List Json)
  | .list items => some items
  | _ => none

def entries? : Json → Option (List (String × Json))
  | .record fields => fields.mapM fun (key, value) => key.map (·, value)
  | _ => none

/-- The one field of a record with a key, if there is one; a repeated key is refused. -/
def field? (fields : List (JsonText × Json)) (name : String) : Option (Option Json) :=
  match fields.filter (·.1 == some name) with
  | [] => some none
  | [field] => some (some field.2)
  | _ => none

/-- The fields of a record in a given order, with `none` for those that are missing.  Fields of
other names are ignored.  A record may also be written as the list of its fields, of which the last
ones may be missing. -/
def fields? (names : List String) : Json → Option (List (Option Json))
  | .record fields =>
      if fields.all (·.1.isSome) then names.mapM (field? fields) else none
  | .list items =>
      if items.length ≤ names.length then
        some (items.map some ++ List.replicate (names.length - items.length) none)
      else none
  | _ => none

end Json

end AlarmView
