import ZoneConsole.Settings
import ZoneConsole.Settings.Error
import ZoneConsole.Settings.Variable
import ZoneConsole.Toml.Document

/-!
# The file of settings

Settings are kept in a TOML file. Read, they are what is usual, with the file over
it and the environment over both. Written, they are the text of all that has a
value; nothing is written if there is no such text.

**`Settings.load`** reads settings, and **`Settings.save`** answers the file after
they have been written.
-/

namespace ZoneConsole

/-- What stands where the file of settings belongs: nothing, a text, or no directory in
    which a file could be. -/
inductive SettingsFile
  | absent
  | present (text : String)
  | blocked
  deriving DecidableEq, Repr

/-- The text of the file, if there is one. -/
def SettingsFile.text? : SettingsFile → Option String
  | present text => some text
  | absent | blocked => none

namespace Settings

/-- The layer that a file makes; a file that is missing makes none. -/
def fileLayer : Option String → Except SettingsError Data
  | none => .ok (.map [])
  | some text =>
    match Toml.read text with
    | some layer => .ok layer
    | none => .error .noDocument

/-- The settings that layers make together. -/
def ofLayers (layers : List Data) : Except SettingsError Settings :=
  match codec.decode (.ofSettings (Data.layers layers)) with
  | .ok s => .ok s
  | .error c => .error (.misread c)

/-- The settings that a file and an environment make. -/
def load (text : Option String) (env : Environment) : Except SettingsError Settings :=
  match fileLayer text with
  | .error e => .error e
  | .ok layer => ofLayers [codec.encode usual, layer, environmentLayer env]

/-- The settings that a file and an environment make, or the usual ones if they make none. -/
def loadOrUsual (text : Option String) (env : Environment) : Settings :=
  match load text env with
  | .ok s => s
  | .error _ => usual

/-- The file after the settings have been written to it, with the profiles in some order. -/
def save (s : Settings) (file : SettingsFile)
    (profiles : List (String × Profile) := s.profiles) : Except SettingsError SettingsFile :=
  match file with
  | .blocked => .error .blocked
  | .absent | .present _ =>
    match Toml.write (codec.encode { s with profiles }) with
    | .ok text => .ok (.present text)
    | .error fault => .error (.unwritable fault)

end Settings

end ZoneConsole
