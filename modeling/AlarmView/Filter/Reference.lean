import AlarmView.Filter.Error
import AlarmView.Text.Blank

/-!
# References to filters

A filter is referred to by its attribute, a slash and its name.  Blanks around either part do not
count; the name may contain further slashes.
-/

namespace AlarmView

open Text

structure FilterReference where
  attr : Attribute
  name : String
deriving DecidableEq

namespace FilterReference

def splitSlash : List Char → Option (List Char × List Char)
  | [] => none
  | c :: rest =>
      if c = '/' then some ([], rest)
      else (splitSlash rest).map fun (before, behind) => (c :: before, behind)

def parse (text : String) : Except FilterError FilterReference :=
  match splitSlash text.toList with
  | none => .error (.invalidReference text)
  | some (before, behind) =>
      let name := trimBlanks behind
      if name = [] then .error (.invalidReference text)
      else do
        let attr ← Attribute.parse (String.ofList (trimBlanks before))
        return { attr, name := String.ofList name }

def text (reference : FilterReference) : String :=
  reference.attr.browseName ++ "/" ++ reference.name

end FilterReference

end AlarmView
