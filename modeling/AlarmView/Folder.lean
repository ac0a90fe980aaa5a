import AlarmView.Files
import AlarmView.Table

/-!
# Folders

A folder with the files and the folders below it, as far as programs see them that work in it.
Every name on a path but the last has to be a folder.  Paths that leave the folder lead nowhere.
-/

namespace AlarmView

inductive FolderEntry where
  | folder
  | file (text : Option String)
deriving DecidableEq

/-- The entries below a folder by their path, the names of which are joined by slashes. -/
abbrev Folder := Table FolderEntry

namespace Folder

def entryAt? (folder : Folder) (names : List String) : Option FolderEntry :=
  if names = [] then some .folder else folder.get? ("/".intercalate names)

def follow (folder : Folder) (passed : List String) : List String → Except FileError (List String)
  | [] => .ok passed
  | name :: rest =>
      match folder.entryAt? passed with
      | none => .error .missing
      | some (.file _) => .error .notFolder
      | some .folder =>
          if name = "" ∨ name = "." then follow folder passed rest
          else if name = ".." then follow folder passed.dropLast rest
          else follow folder (passed ++ [name]) rest

/-- A place to which a path leads. -/
structure Place where
  names : List String
  entry : Option FolderEntry
  /-- Whether the path ends in a slash, so that the place has to be a folder. -/
  slash : Bool

def locate (folder : Folder) (path : String) : Except FileError Place :=
  if path.startsWith "/" then .error .missing
  else do
    let names := path.splitOn "/"
    let kept := (names.reverse.dropWhile (· == "")).reverse
    let passed ← folder.follow [] kept
    return { names := passed, entry := folder.entryAt? passed, slash := kept != names }

def contains (folder : Folder) (path : String) : Bool :=
  match folder.locate path with
  | .ok { entry := some .folder, .. } => true
  | .ok { entry := some (.file _), slash, .. } => !slash
  | _ => false

def read (folder : Folder) (path : String) : Except FileError String := do
  let place ← folder.locate path
  match place.entry with
  | none => throw .missing
  | some .folder => throw .isFolder
  | some (.file text) =>
      if place.slash then throw .notFolder
      else
        match text with
        | some text => return text
        | none => throw .noText

def write (folder : Folder) (path : String) (text : Option String) : Except FileError Folder := do
  let place ← folder.locate path
  match place.entry, place.slash with
  | some .folder, _ => throw .isFolder
  | none, true => throw .isFolder
  | some (.file _), true => throw .notFolder
  | _, false => return folder.insert ("/".intercalate place.names) (.file text)

def makeFolder (folder : Folder) (path : String) : Folder :=
  match folder.locate path with
  | .ok { names, entry := none, .. } => folder.insert ("/".intercalate names) .folder
  | _ => folder

/-- The files of a folder, which writing changes. -/
instance : Files (StateM Folder) where
  read path := fun folder => (folder.read path, folder)
  contains path := fun folder => (folder.contains path, folder)
  write path text := fun folder =>
    match folder.write path (some text) with
    | .ok after => (.ok (), after)
    | .error error => (.error error, folder)

end Folder

end AlarmView
