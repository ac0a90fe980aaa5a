import AlarmView.FilterSet
import AlarmView.Query

/-!
# Compiling filters

The checked filters of a panel make one query.  Filters of one attribute are alternatives, and
their groups, in the order of the first checked filter of each attribute, hold together.  A lower
bound of the event time opens a window, which the next upper bound of the same group closes; an
upper bound without an open window stands alone.
-/

namespace AlarmView

inductive QueryError where
  | filter (error : FilterError)
  | visibility (error : VisibilityError)
deriving DecidableEq

def QueryError.message : QueryError → String
  | filter error => error.message
  | visibility error => error.message

/-- The limits that a query may use; a disabled range has none. -/
structure OpenRanges where
  fromEventTime : Option Instant
  toEventTime : Option Instant
  severity : Option (Int × Int)
deriving DecidableEq

/-- The excluded upper bound for a last included second; the last instants stay as they are. -/
def secondAfter (last : Instant) : Instant :=
  last.addSecond?.getD last

def RangeInputs.through (ranges : RangeInputs) (gates : RangeGates) : OpenRanges where
  fromEventTime := if gates.eventTime.lower then some ranges.fromEventTime else none
  toEventTime :=
    if gates.eventTime.upper then some (secondAfter ranges.toEventTime) else none
  severity := if gates.severity then some (ranges.fromSeverity, ranges.toSeverity) else none

/-- The clauses of a group so far, and the position of the window that is still open. -/
structure GroupState where
  clauses : List Clause
  openWindow : Option Nat
deriving DecidableEq

namespace GroupState

def start : GroupState where
  clauses := []
  openWindow := none

def add (state : GroupState) (clause : Clause) : GroupState :=
  { state with clauses := state.clauses ++ [clause] }

def openAt (state : GroupState) (lower : Instant) : GroupState where
  clauses := state.clauses ++ [.window lower none]
  openWindow := some state.clauses.length

/-- Closes the open window; without one the upper bound is a clause of its own. -/
def closeAt (state : GroupState) (upper : Instant) : GroupState :=
  match state.openWindow with
  | some position =>
      { clauses :=
          state.clauses.modify position fun
            | .window lower _ => .window lower (some upper)
            | other => other
        openWindow := none }
  | none => { clauses := state.clauses ++ [.before upper], openWindow := none }

def addFilter (ranges : OpenRanges) (state : GroupState) (filter : Filter) :
    Except FilterError GroupState :=
  match filter.condition with
  | .fragment text =>
      if text = "" then .error (.emptyFragment filter.attr filter.name)
      else .ok (state.add (.fragment text))
  | .range .fromEventTime =>
      match ranges.fromEventTime with
      | some lower => .ok (state.openAt lower)
      | none => .error (.rangeDisabled filter.name)
  | .range .toEventTime =>
      match ranges.toEventTime with
      | some upper => .ok (state.closeAt upper)
      | none => .error (.rangeDisabled filter.name)
  | .range .severity =>
      match ranges.severity with
      | some (lower, upper) => .ok (state.add (.severity lower upper))
      | none => .error (.rangeDisabled filter.name)

end GroupState

def compileGroup (ranges : OpenRanges) (checked : List Filter) (attr : Attribute) :
    Except FilterError Group := do
  let state ← (checked.filter (·.attr == attr)).foldlM (GroupState.addFilter ranges) .start
  return { attr, clauses := state.clauses }

def compileWith (ranges : OpenRanges) (filters : List Filter) : Except FilterError Query := do
  let checked := filters.filter (·.checked)
  let groups ← (FilterSet.attributesOf checked).mapM (compileGroup ranges checked)
  return { groups }

def compile (filters : List Filter) (ranges : RangeInputs) (configuration : Configuration) :
    Except QueryError Query := do
  let gates ← configuration.rangeGates.mapError .visibility
  (compileWith (ranges.through gates) filters).mapError .filter

def compileNotices (ranges : RangeInputs) (configuration : Configuration) : List Notice :=
  match configuration.rangeGates with
  | .ok gates =>
      if gates.eventTime.upper && ranges.toEventTime.addSecond?.isNone then
        [.lastInstant ranges.toEventTime]
      else []
  | .error _ => []

def FilterSet.compile (set : FilterSet) (configuration : Configuration) :
    Except QueryError Query :=
  AlarmView.compile set.filters set.ranges configuration

def FilterSet.compileNotices (set : FilterSet) (configuration : Configuration) : List Notice :=
  AlarmView.compileNotices set.ranges configuration

end AlarmView
