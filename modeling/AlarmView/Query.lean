import AlarmView.Attribute
import AlarmView.Time.Printer

/-!
# Queries

A query selects the alarms for which every group holds; a group holds if one of its clauses does.
Its text is written through a list of tokens, in which each clause is one token, so that the
connectives of the query can be told from those inside a clause.
-/

namespace AlarmView

inductive Clause where
  | fragment (text : String)
  /-- The event time is not before `lower` and, once the window is closed, before `upper`. -/
  | window (lower : Instant) (upper : Option Instant)
  | before (upper : Instant)
  | severity (lower upper : Int)
deriving DecidableEq

def Clause.text : Clause → String
  | fragment text => text
  | window lower (some upper) =>
      "(Time >= \"" ++ lower.queryText ++ "\" AND Time < \"" ++ upper.queryText ++ "\")"
  | window lower none => "(Time >= \"" ++ lower.queryText ++ "\")"
  | before upper => "(Time < \"" ++ upper.queryText ++ "\")"
  | severity lower upper =>
      "(Severity >= " ++ toString lower ++ " AND Severity <= " ++ toString upper ++ ")"

structure Group where
  attr : Attribute
  clauses : List Clause
deriving DecidableEq

structure Query where
  groups : List Group
deriving DecidableEq, Inhabited

namespace Query

/-- A part of the text of a query. -/
inductive Token where
  | clause (content : Clause)
  | and
  | or
  | openGroup
  | closeGroup
deriving DecidableEq

def Token.text : Token → String
  | clause content => content.text
  | and => " AND "
  | or => " OR "
  | openGroup => "("
  | closeGroup => ")"

def selectAll : Query := ⟨[]⟩

def baseText : String := "SELECT * FROM Model"

end Query

/-- The tokens of a group; several clauses are put in parentheses. -/
def Group.tokens (group : Group) : List Query.Token :=
  let alternatives := (group.clauses.map Query.Token.clause).intersperse .or
  if group.clauses.length < 2 then alternatives
  else .openGroup :: alternatives ++ [.closeGroup]

namespace Query

def tokens (query : Query) : List Token :=
  [Token.and].intercalate (query.groups.map Group.tokens)

/-- The text of a query; without groups it has no condition. -/
def text (query : Query) : String :=
  match query.groups with
  | [] => baseText
  | _ => baseText ++ " WHERE " ++ String.join (query.tokens.map Token.text)

end Query

/-- What the grid of alarms shows: the text of the last query handed to it, and how many it has
executed. -/
structure CurrentQuery where
  text : String
  executions : Nat
deriving DecidableEq, Repr

namespace CurrentQuery

def idle : CurrentQuery where
  text := ""
  executions := 0

instance : Inhabited CurrentQuery := ⟨idle⟩

/-- Hands a query on, which executes it even if its text is the same as before. -/
def publish (current : CurrentQuery) (query : Query) : CurrentQuery where
  text := query.text
  executions := current.executions + 1

end CurrentQuery

end AlarmView
