import ZoneConsole.Console
import ZoneConsole.Settings
import ZoneConsole.Settings.Error

/-!
# Choosing a profile

**`Settings.choose`** finds the profile to use, and **`Settings.consoleConfig`** the
configuration of a console for it: what the profile does not say is taken from the
defaults, and without a profile the server on this machine is meant.
-/

namespace ZoneConsole

/-- A server has to be a URL of one of two schemes. -/
def validateOrigin (server : String) : Except SettingsError Unit :=
  match Url.parse server with
  | .error e => .error (.invalid "server" ("invalid URL '" ++ server ++ "': " ++ e.message))
  | .ok url =>
    if url.scheme = "http" ∨ url.scheme = "https" then .ok ()
    else .error (.invalid "server"
      ("unsupported scheme '" ++ url.scheme ++ "' (expected http or https)"))

/-- Is there nothing but white space in the text? -/
def isBlankText (s : String) : Bool := (Text.trim s).isEmpty

namespace Settings

/-- The profile of a name, which has to exist, or without a name the default one, which
    need not. -/
def choose (s : Settings) : Option String → Except SettingsError (Option (String × Profile))
  | some name =>
    match s.profile? name with
    | some profile => .ok (some (name, profile))
    | none => .error (.unknownProfile name)
  | none =>
    .ok (s.defaultProfile.bind fun name => (s.profile? name).map fun profile => (name, profile))

/-- The base of the service: the one that overrides, or that of the profile; a blank one
    stands for the usual one. -/
def baseFor (s : Settings) (profile : Option Profile) : String :=
  ((s.apiBase.or (profile.bind (·.apiBase))).filter (!isBlankText ·)).getD defaultApiBase

/-- The configuration of a console for a profile. -/
def consoleConfig (s : Settings) (profile : Option Profile) :
    Except SettingsError ConsoleConfig :=
  let server := (profile.map (·.server)).getD defaultOrigin
  (validateOrigin server).map fun () =>
    { origin := server
      apiBase := s.baseFor profile
      timeout := (profile.bind (·.timeout)).getD s.defaults.timeout
      insecure := (profile.bind (·.insecure)).getD s.defaults.insecure
      ordering := (profile.bind (·.ordering)).getD s.defaults.ordering }

end Settings

end ZoneConsole
