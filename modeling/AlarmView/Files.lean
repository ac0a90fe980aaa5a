/-!
# Files

What programs do with text files: they read them, see whether there are any, and write them.
-/

namespace AlarmView

/-- Why a file cannot be read or written. -/
inductive FileError where
  | missing
  | isFolder
  | notFolder
  | noText
  | other (text : String)
deriving DecidableEq

def FileError.message : FileError → String
  | missing => "No such file or directory (os error 2)"
  | isFolder => "Is a directory (os error 21)"
  | notFolder => "Not a directory (os error 20)"
  | noText => "stream did not contain valid UTF-8"
  | other text => text

/-- Surroundings with files. -/
class Files (m : Type → Type) where
  read : (path : String) → m (Except FileError String)
  contains : (path : String) → m Bool
  write : (path text : String) → m (Except FileError Unit)

end AlarmView
