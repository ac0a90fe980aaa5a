import AlarmView.EditModel.Instance
import AlarmView.Filter
import AlarmView.Filter.Error

/-!
# Filter sets

The filters of a panel in their order, together with the limits of the ranges.
-/

namespace AlarmView

/-- Limits of the event time and of the severity. -/
structure RangeInputs where
  fromEventTime : Instant
  toEventTime : Instant
  fromSeverity : Int
  toSeverity : Int
deriving DecidableEq, Inhabited

namespace RangeInputs

def defaultFromSeverity : UInt16 := 1

def defaultToSeverity : UInt16 := 1000

/-- The limits used where no others are known: both times now, and the full severity scale. -/
def initialAt (now : Instant) : RangeInputs where
  fromEventTime := now
  toEventTime := now
  fromSeverity := defaultFromSeverity.toNat
  toSeverity := defaultToSeverity.toNat

end RangeInputs

/-- Filters in their order, with the limits of the ranges. -/
structure FilterSet where
  filters : List Filter
  ranges : RangeInputs
deriving DecidableEq, Inhabited

namespace FilterSet

def emptyAt (now : Instant) : FilterSet where
  filters := []
  ranges := .initialAt now

def push (set : FilterSet) (filter : Filter) : FilterSet :=
  { set with filters := set.filters ++ [filter] }

def checked (set : FilterSet) : List Filter :=
  set.filters.filter (·.checked)

def attributesOf (filters : List Filter) : List Attribute :=
  filters.foldl (fun seen filter => if filter.attr ∈ seen then seen else seen ++ [filter.attr]) []

def activeAttributes (set : FilterSet) : List Attribute :=
  attributesOf set.checked

def hasName (set : FilterSet) (name : String) : Bool :=
  set.filters.any (·.name == name)

def find? (set : FilterSet) (attr : Attribute) (name : String) : Option Filter :=
  set.filters.find? (·.isNamed attr name)

/-- Some filters with the first one of an attribute and a name checked or unchecked. -/
def checkNamed (attr : Attribute) (name : String) (checked : Bool) : List Filter → List Filter
  | [] => []
  | filter :: rest =>
      if filter.isNamed attr name then { filter with checked } :: rest
      else filter :: checkNamed attr name checked rest

def setChecked (set : FilterSet) (attr : Attribute) (name : String) (checked : Bool) :
    Except FilterError FilterSet :=
  if (set.find? attr name).isSome then
    .ok { set with filters := checkNamed attr name checked set.filters }
  else
    .error (.notFound attr name)

def setAll (set : FilterSet) (checked : Bool) : FilterSet :=
  { set with filters := set.filters.map fun filter => { filter with checked } }

/-- What a property below an attribute means for the panel. -/
inductive Reading where
  | limit (change : RangeInputs → RangeInputs)
  | unreadable
  /-- A criterion with its checked state; `known` says whether one is stored. -/
  | criterion (checked known : Bool)

def Reading.of (name : String) (value : Option PropertyValue) : Reading :=
  if BrowseName.isRangeValue name then
    match value with
    | some (.dateTime instant) =>
        if name = BrowseName.fromEventTimeValue then
          .limit fun ranges => { ranges with fromEventTime := instant }
        else if name = BrowseName.toEventTimeValue then
          .limit fun ranges => { ranges with toEventTime := instant }
        else .unreadable
    | some (.uint16 number) =>
        if name = BrowseName.fromSeverity then
          .limit fun ranges => { ranges with fromSeverity := number.toNat }
        else if name = BrowseName.toSeverity then
          .limit fun ranges => { ranges with toSeverity := number.toNat }
        else .unreadable
    | _ => .unreadable
  else
    match value with
    | some (.boolean checked) => .criterion checked true
    | _ => .criterion false false

def addReading (lexicon : Lexicon) (attr : Attribute) (set : FilterSet)
    (property : Property) : FilterSet :=
  match Reading.of property.name property.value with
  | .limit change => { set with ranges := change set.ranges }
  | .unreadable => set
  | .criterion checked _ => set.push (.make lexicon attr property.name checked)

/-- Adds to a set what the properties below an attribute mean; a property that names no attribute
is left out. -/
def addAttribute (lexicon : Lexicon) (set : FilterSet) (parent : Property) : FilterSet :=
  match Attribute.ofBrowseName? parent.name with
  | some attr => parent.children.foldl (addReading lexicon attr) set
  | none => set

def ofInstance (lexicon : Lexicon) (now : Instant) (model : Instance) : FilterSet :=
  model.root.children.foldl (addAttribute lexicon) (emptyAt now)

def readingNotices (lexicon : Lexicon) (attr : Attribute) (property : Property) :
    List Notice :=
  match Reading.of property.name property.value with
  | .limit _ => []
  | .unreadable => [.unreadableRange attr.browseName property.name property.value]
  | .criterion _ known =>
      (if known then [] else [.unreadableState attr.browseName property.name property.value])
        ++ Filter.notices lexicon attr property.name

def instanceNotices (lexicon : Lexicon) (model : Instance) : List Notice :=
  model.root.children.flatMap fun parent =>
    match Attribute.ofBrowseName? parent.name with
    | some attr => parent.children.flatMap (readingNotices lexicon attr)
    | none => [.notAnAttribute parent.name]

end FilterSet

end AlarmView
