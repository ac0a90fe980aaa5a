import AlarmView.CommandLine.Parameter

/-!
# Reading command lines

A command line has two levels: the arguments in front of the command and those behind it.  Both are
read from left to right.  A parameter whose value is the next word waits for it, and its argument is
made when the next one is found, so that of two errors the one found first is reported.
-/

namespace AlarmView

/-- What one level of a command line has given so far. -/
structure ArgumentLevel where
  arguments : List Argument
  words : List String
  /-- A parameter whose argument is still to be made, with its value once that is found. -/
  pending : Option (Parameter × Option String)
  wordsOnly : Bool

namespace ArgumentLevel

def empty : ArgumentLevel where
  arguments := []
  words := []
  pending := none
  wordsOnly := false

def has (level : ArgumentLevel) (parameter : Parameter) : Bool :=
  level.arguments.any (·.parameter == parameter)

def isWaiting (level : ArgumentLevel) : Bool :=
  match level.pending with
  | some (_, none) => true
  | _ => false

def give (level : ArgumentLevel) (parameter : Parameter) (argument : Except UsageError Argument) :
    Except UsageError ArgumentLevel := do
  if level.has parameter && !parameter.isRepeatable then throw (.repeated parameter)
  let argument ← argument
  return { level with arguments := level.arguments ++ [argument] }

def resolve (level : ArgumentLevel) : Except UsageError ArgumentLevel :=
  match level.pending with
  | none => .ok level
  | some (parameter, none) => .error (.missingValue parameter)
  | some (parameter, some value) =>
      { level with pending := none }.give parameter (parameter.argumentWith value)

def await (level : ArgumentLevel) (parameter : Parameter) : Except UsageError ArgumentLevel := do
  let level ← level.resolve
  return { level with pending := some (parameter, none) }

def giveWith (level : ArgumentLevel) (parameter : Parameter) (value : List Char) :
    Except UsageError ArgumentLevel := do
  let level ← level.resolve
  level.give parameter (parameter.argumentWith (String.ofList value))

def giveSwitch (level : ArgumentLevel) (parameter : Parameter) :
    Except UsageError ArgumentLevel := do
  let level ← level.resolve
  level.give parameter parameter.argument

/-- Reads a name behind two hyphens; a value may follow an equals sign. -/
def readName (parameters : List Parameter) (level : ArgumentLevel) (s : List Char) :
    Except UsageError ArgumentLevel :=
  let name := String.ofList (s.takeWhile (· != '='))
  match parameters.find? (·.longName == name), s.dropWhile (· != '=') with
  | none, _ => .error (.unknownArgument name)
  | some parameter, _ :: value =>
      if parameter.takesValue then level.giveWith parameter value
      else .error (.unneededValue parameter)
  | some parameter, [] =>
      if parameter.takesValue then level.await parameter else level.giveSwitch parameter

/-- Reads letters behind one hyphen.  What follows a parameter that takes a value is its value; an
equals sign may stand between. -/
def readLetters (parameters : List Parameter) (level : ArgumentLevel) :
    List Char → Except UsageError ArgumentLevel
  | [] => .ok level
  | c :: rest =>
      match parameters.find? (·.letter? == some c) with
      | none => .error (.unknownArgument (String.singleton c))
      | some parameter =>
          if parameter.takesValue then
            match rest with
            | [] => level.await parameter
            | '=' :: value => level.giveWith parameter value
            | value => level.giveWith parameter value
          else do
            let level ← level.giveSwitch parameter
            readLetters parameters level rest

def addWord (command : Option CommandName) (level : ArgumentLevel) (word : String) :
    Except UsageError ArgumentLevel :=
  match command with
  | some command =>
      if level.words.length < command.capacity then do
        let level ← level.resolve
        return { level with words := level.words ++ [word] }
      else .error (.unknownArgument word)
  | none =>
      if level.wordsOnly && (word == helpWord || (CommandName.ofText? word).isSome) then
        .error (.unknownArgument word)
      else .error (.unknownCommand word)

def parameters : Option CommandName → List Parameter
  | none => .version :: Parameter.common
  | some command => Parameter.common ++ command.ownParameters

def add (command : Option CommandName) (level : ArgumentLevel) (word : String) :
    Except UsageError ArgumentLevel :=
  if level.wordsOnly then level.addWord command word
  else
    match word.toList with
    | ['-', '-'] => .ok { level with wordsOnly := true }
    | '-' :: '-' :: name => level.readName (parameters command) name
    | '-' :: c :: letters => level.readLetters (parameters command) (c :: letters)
    | _ =>
        match level.pending with
        | some (parameter, none) => .ok { level with pending := some (parameter, some word) }
        | _ => level.addWord command word

def readBehind (command : CommandName) (words : List String) : Except UsageError ArgumentLevel :=
  words.foldlM (add (some command)) empty

/-- What help is asked for: the word for help may be followed by one word for a command, or by
itself. -/
def helpOn : List String → UsageError
  | [] => .help
  | [word] =>
      if word == helpWord || (CommandName.ofText? word).isSome then .help
      else .unknownCommand word
  | word :: next :: _ =>
      if word == helpWord || (CommandName.ofText? word).isSome then .unknownCommand next
      else .unknownCommand word

/-- Reads the level in front of the command: the level, the command and the words behind it. -/
def readFront (level : ArgumentLevel) :
    List String → Except UsageError (ArgumentLevel × Option (CommandName × List String))
  | [] => .ok (level, none)
  | word :: rest =>
      let command := if level.wordsOnly || level.isWaiting then none else some word
      if command = some helpWord then .error (helpOn rest)
      else
        match command.bind CommandName.ofText? with
        | some command => .ok (level, some (command, rest))
        | none => do
            let level ← level.add none word
            readFront level rest

def checkConflicts (level : ArgumentLevel) : Except UsageError Unit :=
  if level.has .quiet && level.has .verbose then .error (.conflict .quiet .verbose)
  else if level.has .enable && level.has .disable then .error (.conflict .enable .disable)
  else .ok ()

/-- The more often notices are asked for, the lower the least level that is shown. -/
def noticeLevel (level : ArgumentLevel) : Option NoticeLevel :=
  match level.arguments.countP (·.parameter == .verbose) with
  | 0 => none
  | 1 => some .info
  | _ => some .debug

def find? (level : ArgumentLevel) (value : Argument → Option α) : Option α :=
  level.arguments.findSome? value

def edits (level : ArgumentLevel) : PanelEdits where
  checks := level.arguments.filterMap fun | .check reference => some reference | _ => none
  unchecks := level.arguments.filterMap fun | .uncheck reference => some reference | _ => none
  fromTime := level.find? fun | .fromTime instant => some instant | _ => none
  toTime := level.find? fun | .toTime instant => some instant | _ => none
  fromSeverity := level.find? fun | .fromSeverity text => some text | _ => none
  toSeverity := level.find? fun | .toSeverity text => some text | _ => none

def action (level : ArgumentLevel) (command : CommandName) : Except UsageError Action :=
  match command with
  | .init => .ok (.init (level.has .force))
  | .updateDefaults => .ok .updateDefaults
  | .generateDefaults => .ok .generateDefaults
  | .visibility =>
      match level.words with
      | [] => .error .missingAttribute
      | attr :: more =>
          if level.has .enable || level.has .disable then
            .ok (.visibility attr more.head? (level.has .enable))
          else .error .missingState
  | .overview => .ok .overview
  | .query => .ok .query
  | .filter =>
      match level.words with
      | [] => .error .missingName
      | name :: _ => .ok (.panel level.edits (.filter name))
  | .refresh => .ok (.panel level.edits .refresh)
  | .apply => .ok (.panel level.edits .apply)
  | .clearAll => .ok (.panel level.edits .clearAll)

end ArgumentLevel

namespace CommandLine

open ArgumentLevel

def defaultWorkspace : String := "alarm-filter.json"

/-- Reads a command line.  The level behind the command is checked first, and what is given there
goes before what is given in front. -/
def read (words : List String) : Except UsageError CommandLine := do
  let (front, found) ← readFront .empty words
  match found with
  | none => do
      let front ← front.resolve
      throw (if front.arguments.isEmpty then .nothingGiven else .missingCommand)
  | some (command, words) => do
      let behind ← readBehind command words
      let behind ← behind.resolve
      behind.checkConflicts
      let action ← behind.action command
      let front ← front.resolve
      front.checkConflicts
      let value := fun {α} (pick : Argument → Option α) => (behind.find? pick).or (front.find? pick)
      return {
        action
        settings := value fun | .settings path => some path | _ => none
        workspace := (value fun | .workspace path => some path | _ => none).getD defaultWorkspace
        format := (value fun | .format format => some format | _ => none).getD .text
        colours := (value fun | .colours mode => some mode | _ => none).getD .auto
        noticeLevel :=
          if behind.has .quiet || front.has .quiet then none
          else behind.noticeLevel.or front.noticeLevel }

end CommandLine

end AlarmView
