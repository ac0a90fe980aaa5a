import AlarmView.CommandLine.Help
import AlarmView.CommandLine.Reader
import AlarmView.Execution
import Std.Time.DateTime.Timestamp

/-!
# The command line program

Carries out a command line with the files of the system, and prints what comes of it.
-/

namespace AlarmView

def presentInstant : IO Instant := do
  let stamp ← Std.Time.Timestamp.now
  let seconds := stamp.val.second.val
  let day := Instant.unixEpoch.day + seconds / 86400
  let nano := stamp.val.nano.val.toNat
  return (Instant.of? day (seconds % 86400).toNat nano).getD .unixEpoch

def fileError : IO.Error → FileError
  | .noFileOrDirectory .. => .missing
  | .inappropriateType _ code details =>
      if code = 21 then .isFolder else if code = 20 then .notFolder else .other details
  | error => .other (toString error)

def isOccupied (path : String) : IO Bool :=
  try
    let _ ← IO.FS.Handle.mk path .read
    return true
  catch error =>
    match error with
    | .noFileOrDirectory .. | .inappropriateType .. => return false
    | _ => return true

/-- The files of the system that the program runs on. -/
instance : Files IO where
  read path :=
    try
      return .ok (← IO.FS.readFile path)
    catch error =>
      return .error (fileError error)
  contains := isOccupied
  write path text :=
    try
      IO.FS.writeFile path text
      return .ok ()
    catch error =>
      return .error (fileError error)

def reportError (error : ExecutionError) : IO UInt32 := do
  IO.eprintln ("Error: " ++ error.message)
  return 1

def carryOut (line : CommandLine) : IO UInt32 := do
  let now ← presentInstant
  let found ← line.find
  for notice in line.shownNotices (line.executeNotices now found) do
    IO.eprintln notice.line
  match ← (line.execute now found).run with
  | .error error => reportError error
  | .ok shown =>
      let stdout ← IO.getStdout
      stdout.putStr (shown.print line.format (line.coloured (← stdout.isTty)))
      return 0

def reportUsage : UsageError → IO UInt32
  | .help => do
      IO.println CommandLine.helpText
      return 0
  | .version => do
      IO.println CommandLine.versionText
      return 0
  | .nothingGiven => do
      IO.eprintln CommandLine.helpText
      return 2
  | error => do
      IO.eprintln ("error: " ++ error.message)
      return 2

end AlarmView

def main (args : List String) : IO UInt32 :=
  match AlarmView.CommandLine.read args with
  | .error error => AlarmView.reportUsage error
  | .ok line => AlarmView.carryOut line
