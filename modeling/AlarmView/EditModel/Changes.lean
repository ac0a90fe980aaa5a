/-!
# Changes of an edit model

What bringing an edit model in line with its configuration has touched.
-/

namespace AlarmView

structure Changes where
  added : List String
  removed : List String
  restored : List String
deriving DecidableEq, Repr

namespace Changes

def none : Changes := ⟨[], [], []⟩

def append (first second : Changes) : Changes where
  added := first.added ++ second.added
  removed := first.removed ++ second.removed
  restored := first.restored ++ second.restored

instance : Append Changes := ⟨append⟩

def isEmpty (changes : Changes) : Bool :=
  changes.added.isEmpty && changes.removed.isEmpty && changes.restored.isEmpty

end Changes

structure ReconcileReport where
  schema : Changes
  stored : Changes
deriving DecidableEq, Repr

def ReconcileReport.isEmpty (report : ReconcileReport) : Bool :=
  report.schema.isEmpty && report.stored.isEmpty

end AlarmView
