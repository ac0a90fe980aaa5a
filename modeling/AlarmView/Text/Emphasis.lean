/-!
# Emphasis

Emphasis in the output for a terminal, by escape sequences.  Without colours texts stay plain.
-/

namespace AlarmView.Text

inductive Emphasis where
  | bold
  | green
  | dimmed
  | brightBlueBold
deriving DecidableEq, Repr

def Emphasis.parameters : Emphasis → String
  | bold => "1"
  | green => "32"
  | dimmed => "2"
  | brightBlueBold => "1;94"

def emphasise (colours : Bool) (emphasis : Emphasis) (text : String) : String :=
  if colours then "\x1b[" ++ emphasis.parameters ++ "m" ++ text ++ "\x1b[0m" else text

end AlarmView.Text
