/-!
# TOML values

Values of the format in which settings are written.  A table remembers how it came about, because
that decides what a later part of the text may still add to it.  Numbers are checked but never used,
so their values are not kept.
-/

namespace AlarmView.Toml

inductive Origin where
  /-- Written in braces; nothing can be added. -/
  | braces
  | header
  | passed
  | dotted
deriving DecidableEq

inductive Value where
  | text (value : String)
  | boolean (value : Bool)
  | number
  | moment (written : String)
  | list (items : List Value)
  | table (origin : Origin) (entries : List (String × Value))
  | tables (newest : List (String × Value)) (older : List (List (String × Value)))
deriving Inhabited

/-- The entries of a table, with distinct keys in the order of the text. -/
abbrev Entries := List (String × Value)

namespace Entries

def get? (key : String) (entries : Entries) : Option Value :=
  (List.find? (·.1 == key) entries).map (·.2)

def replace (key : String) (value : Value) (entries : Entries) : Entries :=
  entries.map fun entry => if entry.1 = key then (key, value) else entry

def append (key : String) (value : Value) (entries : Entries) : Entries :=
  List.append entries [(key, value)]

/-- Edits the table at the end of a path.  Tables that are missing on the way are made, with the
origin `made`.  Of repeated tables the newest one is on the path.  No path leads into a table in
braces, and the path of an entry does not pass a table that has a header of its own. -/
def editAt (made : Origin) (edit : Origin → Entries → Option Entries) :
    List String → Origin → Entries → Option Entries
  | [], origin, entries => edit origin entries
  | key :: path, _, entries =>
      match entries.get? key with
      | none => do
          let inner ← editAt made edit path made []
          some (entries.append key (.table made inner))
      | some (.table origin inner) =>
          if origin = .braces ∨ (made = .dotted ∧ origin = .header) then none
          else do
            let inner ← editAt made edit path origin inner
            some (entries.replace key (.table origin inner))
      | some (.tables newest older) => do
          let newest ← editAt made edit path .header newest
          some (entries.replace key (.tables newest older))
      | some _ => none

/-- Adds an entry, whose key may have a path in front.  The path has to end in a table that was made
for such a path, and no key is used twice. -/
def assign (path : List String) (key : String) (value : Value) :
    Origin → Entries → Option Entries :=
  editAt .dotted
    (fun origin entries =>
      if (path ≠ [] ∧ origin ≠ .dotted) ∨ (entries.get? key).isSome then none
      else some (entries.append key value))
    path

/-- Opens the table under a path and a key.  A table can be opened once, and not if an entry or
braces made it. -/
def openTable (path : List String) (key : String) : Origin → Entries → Option Entries :=
  editAt .passed
    (fun _ entries =>
      match entries.get? key with
      | none => some (entries.append key (.table .header []))
      | some (.table .passed inner) => some (entries.replace key (.table .header inner))
      | some _ => none)
    path

def openElement (path : List String) (key : String) : Origin → Entries → Option Entries :=
  editAt .passed
    (fun _ entries =>
      match entries.get? key with
      | none => some (entries.append key (.tables [] []))
      | some (.tables newest older) => some (entries.replace key (.tables [] (newest :: older)))
      | some _ => none)
    path

end Entries

end AlarmView.Toml
