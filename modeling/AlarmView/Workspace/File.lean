import AlarmView.Json.Printer
import AlarmView.Json.Reader
import AlarmView.Workspace.Decode
import AlarmView.Workspace.Encode

/-!
# Workspace files

The text under which a workspace is saved, and its reading.
-/

namespace AlarmView.Workspace

def print (workspace : Workspace) : String :=
  workspace.toJson.print

def read? (text : String) : Option Workspace :=
  (Json.read? text).bind (ofJson? Json.maxDepth)

end AlarmView.Workspace
