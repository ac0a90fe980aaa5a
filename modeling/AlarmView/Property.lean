import AlarmView.BrowseName
import AlarmView.Time.Instant

/-!
# Properties

Named properties form the trees of an edit model, both the schema, which says what exists, and the
instance, which holds what is stored.  Siblings are looked up by name and the first one counts.
-/

namespace AlarmView

inductive PropertyType where
  | object
  | boolean
  | dateTime
  | uint16
deriving DecidableEq, Repr, Inhabited

def PropertyType.text : PropertyType → String
  | object => "Object"
  | boolean => "Boolean"
  | dateTime => "DateTime"
  | uint16 => "UInt16"

inductive PropertyValue where
  | boolean (checked : Bool)
  | dateTime (instant : Instant)
  | uint16 (number : UInt16)
deriving DecidableEq, Inhabited

def PropertyValue.type : PropertyValue → PropertyType
  | boolean _ => .boolean
  | dateTime _ => .dateTime
  | uint16 _ => .uint16

/-- A property with its children.  Neither the value nor the children have to fit the declared
type. -/
structure Property where
  name : String
  type : PropertyType
  value : Option PropertyValue
  children : List Property
deriving Inhabited

namespace Property

mutual

def decideEq : (first second : Property) → Decidable (first = second)
  | ⟨name, type, value, children⟩, ⟨name', type', value', children'⟩ =>
      match decEq name name', decEq type type', decEq value value',
        decideEqList children children' with
      | isTrue sameName, isTrue sameType, isTrue sameValue, isTrue sameChildren =>
          isTrue (by rw [sameName, sameType, sameValue, sameChildren])
      | isFalse other, _, _, _ => isFalse (by rintro ⟨⟩; exact other rfl)
      | _, isFalse other, _, _ => isFalse (by rintro ⟨⟩; exact other rfl)
      | _, _, isFalse other, _ => isFalse (by rintro ⟨⟩; exact other rfl)
      | _, _, _, isFalse other => isFalse (by rintro ⟨⟩; exact other rfl)

def decideEqList : (first second : List Property) → Decidable (first = second)
  | [], [] => isTrue rfl
  | [], _ :: _ => isFalse (by simp)
  | _ :: _, [] => isFalse (by simp)
  | head :: tail, head' :: tail' =>
      match decideEq head head', decideEqList tail tail' with
      | isTrue sameHead, isTrue sameTail => isTrue (by rw [sameHead, sameTail])
      | isFalse other, _ => isFalse (by rintro ⟨⟩; exact other rfl)
      | _, isFalse other => isFalse (by rintro ⟨⟩; exact other rfl)

end

instance : DecidableEq Property := decideEq

def object (name : String) : Property :=
  { name, type := .object, value := none, children := [] }

def leaf (name : String) (value : PropertyValue) : Property :=
  { name, type := value.type, value := some value, children := [] }

def findNamed (name : String) (properties : List Property) : Option Property :=
  properties.find? (·.name == name)

def updateNamed (name : String) (change : Property → Property) : List Property → List Property
  | [] => []
  | property :: rest =>
      if property.name == name then change property :: rest
      else property :: updateNamed name change rest

def removeNamed (name : String) (properties : List Property) : List Property :=
  properties.eraseP (·.name == name)

def child? (property : Property) (name : String) : Option Property :=
  findNamed name property.children

def hasChild (property : Property) (name : String) : Bool :=
  (property.child? name).isSome

def addChild (property child : Property) : Property :=
  { property with children := property.children ++ [child] }

def removeChild (property : Property) (name : String) : Property :=
  { property with children := removeNamed name property.children }

def updateChild (property : Property) (name : String) (change : Property → Property) : Property :=
  { property with children := updateNamed name change property.children }

def descendant? (property : Property) : List String → Option Property
  | [] => some property
  | name :: names => (property.child? name).bind (·.descendant? names)

def updateDescendant (change : Property → Property) : List String → Property → Property
  | [], property => change property
  | name :: names, property => property.updateChild name (updateDescendant change names)

mutual

/-- All values at and below the property with their paths, each before those of its children.  The
path of the property itself continues `path`. -/
def values (path : String) : Property → List (String × PropertyValue)
  | ⟨name, _, value, children⟩ =>
      let here := BrowseName.join path name
      value.toList.map (here, ·) ++ valuesList here children

def valuesList (path : String) : List Property → List (String × PropertyValue)
  | [] => []
  | property :: rest => property.values path ++ valuesList path rest

end

/-- One line of a listing of a tree. -/
structure Row where
  path : List String
  type : PropertyType
  value : Option PropertyValue
deriving DecidableEq

mutual

/-- The property and all below it, each before its children.  `path` leads to the parent. -/
def listing (path : List String) : Property → List Row
  | ⟨name, type, value, children⟩ =>
      let here := path ++ [name]
      { path := here, type, value } :: listingList here children

def listingList (path : List String) : List Property → List Row
  | [] => []
  | property :: rest => property.listing path ++ listingList path rest

end

def rows (property : Property) : List Row :=
  listingList [] property.children

end Property

end AlarmView
