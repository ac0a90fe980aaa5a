import AlarmView.EditModel.Store
import AlarmView.Toml.Reader
import AlarmView.Lexicon

/-!
# Settings

Settings name the edit model and the widget, and choose the language of the operator.  They are
written in TOML, and whatever is left out has a default.
-/

namespace AlarmView

structure Settings where
  editModel : String := "DefaultFiltersToggle"
  widget : String := "AlarmWidget"
  locale : String := "en-US"
  lexicons : Table Lexicon := .empty

namespace Settings

instance : Inhabited Settings := ⟨{}⟩

def names (settings : Settings) : EditModelNames where
  editModel := settings.editModel
  widget := settings.widget

def lexicon (settings : Settings) : Lexicon :=
  (settings.lexicons.get? settings.locale).getD .empty

def text? : Toml.Value → Option String
  | .text value => some value
  | _ => none

/-- The key under which a date or a time counts as a table of one text. -/
def momentKey : String := "$__toml_private_datetime"

def entries? : Toml.Value → Option Toml.Entries
  | .table _ entries => some entries
  | .moment written => some [(momentKey, .text written)]
  | _ => none

def table? (read : Toml.Value → Option α) (value : Toml.Value) : Option (Table α) := do
  let entries ← entries? value
  let entries ← entries.mapM fun (key, value) => (read value).map (key, ·)
  some (.ofList entries)

def entry? (entries : Toml.Entries) (key : String) (default : α) (read : Toml.Value → Option α) :
    Option α :=
  match entries.get? key with
  | some value => read value
  | none => some default

/-- The settings in the table of a text.  Entries with other keys are ignored. -/
def ofEntries? (entries : Toml.Entries) : Option Settings := do
  let defaults : Settings := {}
  let editModel ← entry? entries "edit_model_name" defaults.editModel text?
  let widget ← entry? entries "widget_name" defaults.widget text?
  let locale ← entry? entries "locale" defaults.locale text?
  let lexicons ← entry? entries "translations" defaults.lexicons (table? (table? text?))
  some { editModel, widget, locale, lexicons }

def read? (text : String) : Option Settings :=
  (Toml.read? text).bind ofEntries?

end Settings

end AlarmView
