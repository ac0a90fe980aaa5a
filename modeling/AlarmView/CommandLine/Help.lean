import AlarmView.CommandLine.Parameter

/-!
# Help

The texts that explain the command line.
-/

namespace AlarmView

def CommandName.purpose : CommandName → String
  | init => "Create a workspace with the built-in filters configuration"
  | updateDefaults => "Reconcile the edit model with the filters configuration, keeping values"
  | generateDefaults => "Recreate the edit model, resetting every value to its default"
  | visibility => "Enable or disable an attribute or one of its criteria"
  | overview => "Show the filters configuration, the panel layout and the stored values"
  | query => "Print the query built from the stored filter values"
  | filter => "Toggle a checkbox of the filter panel and refresh the query"
  | refresh => "Refresh the query from the panel state"
  | apply => "Save the panel state into the edit model and refresh the query"
  | clearAll => "Uncheck every filter, save and refresh the query"

def Parameter.usage (parameter : Parameter) : String :=
  let letter :=
    match parameter.letter? with
    | some letter => s!"-{letter}, "
    | none => "    "
  let value := if parameter.takesValue then " <VALUE>" else ""
  s!"{letter}--{parameter.longName}{value}"

namespace CommandLine

def versionText : String := "alarm-filter 0.1.0"

def helpText : String :=
  let commands := CommandName.all.map fun command =>
    let parameters := command.ownParameters.map fun parameter => s!"\n      {parameter.usage}"
    s!"\n  {command.text}: {command.purpose}{String.join parameters}"
  let parameters := (Parameter.common ++ [Parameter.version]).map fun parameter =>
    s!"\n  {parameter.usage}"
  "Usage: alarm-filter [OPTIONS] <COMMAND>\n\nCommands:" ++ String.join commands ++
    "\n\nOptions:" ++ String.join parameters

end CommandLine

end AlarmView
