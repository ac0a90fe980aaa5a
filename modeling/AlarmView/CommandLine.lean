import AlarmView.Action

/-!
# Command lines

A command line names one action on a workspace, the files to work with and how results are shown.
-/

namespace AlarmView

inductive ColourMode where
  | auto
  | always
  | never
deriving DecidableEq, Repr

structure CommandLine where
  action : Action
  settings : Option String
  workspace : String
  format : Format
  colours : ColourMode
  /-- The least level of the notices that are shown, if any are. -/
  noticeLevel : Option NoticeLevel

/-- The notices that an operator asks for. -/
def CommandLine.shownNotices (line : CommandLine) (notices : List Notice) : List Notice :=
  match line.noticeLevel with
  | none => []
  | some least => notices.filter (least.rank ≤ ·.level.rank)

end AlarmView
