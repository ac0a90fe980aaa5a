import AlarmView.Notice
import AlarmView.Table

/-!
# Lexicons

Labels and generated conditions show texts in the language of the operator.  A lexicon gives the
wordings of one language by the texts that they stand for.
-/

namespace AlarmView

abbrev Lexicon := Table String

namespace Lexicon

/-- The wording of a text; an empty one does not count. -/
def find? (lexicon : Lexicon) (text : String) : Option String :=
  (lexicon.get? text).filter (· != "")

def localize (lexicon : Lexicon) (text : String) : String :=
  (lexicon.find? text).getD text

def notices (lexicon : Lexicon) (texts : List String) : List Notice :=
  (texts.filter fun text => (lexicon.find? text).isNone).map .unlocalized

end Lexicon

end AlarmView
