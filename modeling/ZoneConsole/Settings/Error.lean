import ZoneConsole.Reading.Complaint
import ZoneConsole.Toml.Writer

/-!
# Errors of settings

What can be wrong with settings: a value that makes no sense, a profile that does
not exist, a file that is no document or holds the wrong values, settings that
have no text, and a directory that cannot be made.
-/

namespace ZoneConsole

/-- What can be wrong with settings. -/
inductive SettingsError
  | invalid (field reason : String)
  | unknownProfile (name : String)
  | noDocument
  | misread (complaint : Complaint)
  | unwritable (fault : Toml.WriteFault)
  | blocked
  deriving DecidableEq, Repr

namespace SettingsError

/-- The text of an error. -/
def message : SettingsError → String
  | invalid field reason => "invalid " ++ field ++ ": " ++ reason
  | unknownProfile name => "profile '" ++ name ++ "' not found in config"
  | noDocument => "config loading failed: TOML parse error"
  | misread c => "config loading failed: " ++ c.problem.settingsMessage
  | unwritable fault => "failed to serialize config: " ++ fault.message
  | blocked => "IO error: File exists (os error 17)"

end SettingsError

end ZoneConsole
