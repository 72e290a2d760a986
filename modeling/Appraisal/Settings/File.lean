import Appraisal.Settings.Basic
import Appraisal.Toml.Document

/-!
# Settings files

A settings file is a TOML document. Sections and keys that it leaves out have their defaults.
-/

namespace Appraisal.Settings

/-- Settings that were found usable. -/
def checked (s : Settings) : Except SettingsError Settings := do
  s.validate
  return s

/-- The settings that the text of the file at `path` describes. -/
def ofText (path text : String) : Except SettingsError Settings :=
  match Toml.parse? text with
  | none => .error (.malformed path "the text is no TOML document")
  | some j =>
    match ofJson? j with
    | none => .error (.malformed path "a setting has the wrong type")
    | some s => s.checked

/-- The settings of the file at `path`, given its text or why it could not be read. -/
def ofFile (path : String) : Except String String → Except SettingsError Settings
  | .ok text => ofText path text
  | .error reason => .error (.unreadable path reason)

/-- The settings of a file that may be missing or unusable; then they are the standard ones. -/
def ofFileOrStandard (path : String) (contents : Except String String) : Settings :=
  match ofFile path contents with
  | .ok s => s
  | .error _ => standard

end Appraisal.Settings
