import AlarmView.Action
import AlarmView.Console
import AlarmView.Workspace.File

/-!
# Printing results

What an action shows is printed for reading or as JSON.
-/

namespace AlarmView

def Changes.toJson (changes : Changes) : Json :=
  let names := fun names : List String => Json.list (names.map Json.string)
  .object
    [("added", names changes.added), ("removed", names changes.removed),
      ("restored", names changes.restored)]

def ReconcileReport.toJson (report : ReconcileReport) : Json :=
  .object [("instance", report.stored.toJson), ("schema", report.schema.toJson)]

namespace Shown

def reportText (editModel : String) (report : ReconcileReport) : String :=
  if report.isEmpty then s!"Edit model '{editModel}' is up to date"
  else
    let added := report.stored.added.length
    let removed := report.stored.removed.length
    let restored := report.stored.restored.length
    s!"Edit model '{editModel}': {added} added, {removed} removed, {restored} restored"

def print (format : Format) (colours : Bool) : Shown → String
  | .report editModel changes =>
      match format with
      | .text => reportText editModel changes ++ "\n"
      | .json =>
          (Json.object [("edit_model", .string editModel), ("report", changes.toJson)]).print
            ++ "\n"
  | .query current =>
      match format with
      | .text => Console.query colours current.text ++ "\n"
      | .json =>
          (Json.object
            [("executions", .integer current.executions), ("query", .string current.text)]).print
            ++ "\n"
  | .overview configuration layout model =>
      Console.configuration colours configuration ++ "\n" ++ Console.layout colours layout ++
        (match model with
        | some model => "\n" ++ Console.editModel colours model
        | none => "")
  | .workspace shown => shown.print ++ "\n"

end Shown

end AlarmView
