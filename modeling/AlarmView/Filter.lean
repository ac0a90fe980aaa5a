import AlarmView.BrowseName
import AlarmView.Filter.Fragment
import AlarmView.Lexicon

/-!
# Filters

A filter is one named criterion of the panel.  Its condition is either a fixed fragment of query
text or a range whose limits are filled in when the query is compiled.
-/

namespace AlarmView

/-- A range, or the bound of a range, that a filter stands for. -/
inductive RangeBound where
  | fromEventTime
  | toEventTime
  | severity
deriving DecidableEq, Repr

def RangeBound.browseName : RangeBound → String
  | fromEventTime => BrowseName.fromEventTime
  | toEventTime => BrowseName.toEventTime
  | severity => BrowseName.severity

def RangeBound.ofBrowseName? (name : String) : Option RangeBound :=
  [fromEventTime, toEventTime, severity].find? (·.browseName == name)

/-- What a filter contributes to the query. -/
inductive Condition where
  | fragment (text : String)
  | range (bound : RangeBound)
deriving DecidableEq

structure Filter where
  attr : Attribute
  name : String
  condition : Condition
  checked : Bool
deriving DecidableEq

namespace Filter

def conditionOf (lexicon : Lexicon) (attr : Attribute) (name : String) : Condition :=
  match RangeBound.ofBrowseName? name with
  | some bound => .range bound
  | none =>
      .fragment ((Fragment.preset? name).getD (Fragment.generated lexicon.localize attr name))

def make (lexicon : Lexicon) (attr : Attribute) (name : String) (checked : Bool) :
    Filter :=
  { attr, name, condition := conditionOf lexicon attr name, checked }

def notices (lexicon : Lexicon) (attr : Attribute) (name : String) : List Notice :=
  if (RangeBound.ofBrowseName? name).isSome || (Fragment.preset? name).isSome then []
  else lexicon.notices (Fragment.texts attr name)

def fragment? (filter : Filter) : Option String :=
  match filter.condition with
  | .fragment text => some text
  | .range _ => none

def range? (filter : Filter) : Option RangeBound :=
  match filter.condition with
  | .fragment _ => none
  | .range bound => some bound

def isNamed (filter : Filter) (attr : Attribute) (name : String) : Bool :=
  filter.attr == attr && filter.name == name

end Filter

end AlarmView
