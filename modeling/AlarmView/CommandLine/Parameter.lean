import AlarmView.CommandLine
import AlarmView.Time.Reader

/-!
# Parameters

The commands of a command line, the parameters that each of them takes, and the arguments that a
written parameter makes.
-/

namespace AlarmView

inductive CommandName where
  | init
  | updateDefaults
  | generateDefaults
  | visibility
  | overview
  | query
  | filter
  | refresh
  | apply
  | clearAll
deriving DecidableEq, Repr

/-- The parameters that are named on a command line. -/
inductive Parameter where
  | settings
  | workspace
  | format
  | colours
  | verbose
  | quiet
  | help
  | version
  | force
  | enable
  | disable
  | check
  | uncheck
  | fromTime
  | toTime
  | fromSeverity
  | toSeverity
deriving DecidableEq, Repr

/-- Why a command line is not carried out. -/
inductive UsageError where
  | help
  | version
  | nothingGiven
  | missingCommand
  | unknownCommand (text : String)
  | unknownArgument (text : String)
  | missingValue (parameter : Parameter)
  | unneededValue (parameter : Parameter)
  | unknownChoice (parameter : Parameter) (text : String)
  | unreadableValue (parameter : Parameter) (text : String)
  | repeated (parameter : Parameter)
  | conflict (first second : Parameter)
  | missingAttribute
  | missingName
  | missingState
deriving DecidableEq

inductive Argument where
  | settings (path : String)
  | workspace (path : String)
  | format (format : Format)
  | colours (mode : ColourMode)
  | verbose
  | quiet
  | force
  | enable
  | disable
  | check (reference : FilterReference)
  | uncheck (reference : FilterReference)
  | fromTime (instant : Instant)
  | toTime (instant : Instant)
  | fromSeverity (text : String)
  | toSeverity (text : String)

namespace CommandName

def all : List CommandName :=
  [init, updateDefaults, generateDefaults, visibility, overview, query, filter, refresh, apply,
    clearAll]

def text : CommandName → String
  | init => "init"
  | updateDefaults => "update-defaults"
  | generateDefaults => "generate-defaults"
  | visibility => "visibility"
  | overview => "show"
  | query => "query"
  | filter => "filter"
  | refresh => "refresh"
  | apply => "apply"
  | clearAll => "clear-all"

def ofText? (word : String) : Option CommandName :=
  all.find? (·.text == word)

def capacity : CommandName → Nat
  | visibility => 2
  | filter => 1
  | _ => 0

def ownParameters : CommandName → List Parameter
  | init => [.force]
  | visibility => [.enable, .disable]
  | filter | refresh | apply =>
      [.check, .uncheck, .fromTime, .toTime, .fromSeverity, .toSeverity]
  | updateDefaults | generateDefaults | overview | query | clearAll => []

end CommandName

def helpWord : String := "help"

namespace Parameter

def common : List Parameter :=
  [settings, workspace, format, colours, verbose, quiet, help]

def longName : Parameter → String
  | settings => "config"
  | workspace => "workspace"
  | format => "format"
  | colours => "color"
  | verbose => "verbose"
  | quiet => "quiet"
  | help => "help"
  | version => "version"
  | force => "force"
  | enable => "enable"
  | disable => "disable"
  | check => "check"
  | uncheck => "uncheck"
  | fromTime => "from-time"
  | toTime => "to-time"
  | fromSeverity => "from-severity"
  | toSeverity => "to-severity"

def letter? : Parameter → Option Char
  | workspace => some 'w'
  | verbose => some 'v'
  | quiet => some 'q'
  | help => some 'h'
  | version => some 'V'
  | force => some 'f'
  | _ => none

def isRepeatable : Parameter → Bool
  | check | uncheck | verbose => true
  | _ => false

def takesValue : Parameter → Bool
  | verbose | quiet | help | version | force | enable | disable => false
  | _ => true

def path (parameter : Parameter) (value : String) : Except UsageError String :=
  if value = "" then .error (.missingValue parameter) else .ok value

def choice (parameter : Parameter) (choices : List (String × α)) (value : String) :
    Except UsageError α :=
  match choices.lookup value with
  | some chosen => .ok chosen
  | none => .error (.unknownChoice parameter value)

def reference (parameter : Parameter) (value : String) : Except UsageError FilterReference :=
  (FilterReference.parse value).mapError fun _ => .unreadableValue parameter value

def instant (parameter : Parameter) (value : String) : Except UsageError Instant :=
  match Instant.ofText? value with
  | some instant => .ok instant
  | none => .error (.unreadableValue parameter value)

def argumentWith (parameter : Parameter) (value : String) : Except UsageError Argument :=
  match parameter with
  | settings => (parameter.path value).map .settings
  | workspace => (parameter.path value).map .workspace
  | format => (parameter.choice [("text", .text), ("json", .json)] value).map .format
  | colours =>
      (parameter.choice [("auto", .auto), ("always", .always), ("never", .never)] value).map
        .colours
  | check => (parameter.reference value).map .check
  | uncheck => (parameter.reference value).map .uncheck
  | fromTime => (parameter.instant value).map .fromTime
  | toTime => (parameter.instant value).map .toTime
  | fromSeverity => .ok (.fromSeverity value)
  | toSeverity => .ok (.toSeverity value)
  | verbose | quiet | help | version | force | enable | disable =>
      .error (.unneededValue parameter)

def argument : Parameter → Except UsageError Argument
  | verbose => .ok .verbose
  | quiet => .ok .quiet
  | force => .ok .force
  | enable => .ok .enable
  | disable => .ok .disable
  | help => .error .help
  | version => .error .version
  | parameter => .error (.missingValue parameter)

end Parameter

def Argument.parameter : Argument → Parameter
  | settings _ => .settings
  | workspace _ => .workspace
  | format _ => .format
  | colours _ => .colours
  | verbose => .verbose
  | quiet => .quiet
  | force => .force
  | enable => .enable
  | disable => .disable
  | check _ => .check
  | uncheck _ => .uncheck
  | fromTime _ => .fromTime
  | toTime _ => .toTime
  | fromSeverity _ => .fromSeverity
  | toSeverity _ => .toSeverity

namespace UsageError

def message : UsageError → String
  | help => "help is asked for"
  | version => "the version is asked for"
  | nothingGiven => "nothing is given"
  | missingCommand => "a command is missing"
  | unknownCommand text => s!"unknown command '{text}'"
  | unknownArgument text => s!"unexpected argument '{text}'"
  | missingValue parameter => s!"a value is missing for '--{parameter.longName}'"
  | unneededValue parameter => s!"'--{parameter.longName}' takes no value"
  | unknownChoice parameter text => s!"invalid value '{text}' for '--{parameter.longName}'"
  | unreadableValue parameter text => s!"invalid value '{text}' for '--{parameter.longName}'"
  | repeated parameter => s!"'--{parameter.longName}' cannot be given more than once"
  | conflict first second =>
      s!"'--{first.longName}' cannot be given together with '--{second.longName}'"
  | missingAttribute => "the attribute is missing"
  | missingName => "the name of the filter is missing"
  | missingState => "one of '--enable' and '--disable' is missing"

end UsageError

end AlarmView
