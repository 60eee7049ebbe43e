import ZoneConsole.Command.Run

/-!
# Commands on the settings

Settings are shown and changed without a server. A change is made to the settings
as they are loaded, and all of them are written again; a change that is refused
writes nothing.
-/

namespace ZoneConsole

namespace Profile

/-- The orderings of loads as they may be written in a command. -/
def orderingOf? (value : String) : Option LoadOrdering :=
  if value = "last-completion" ∨ value = "last_completion" then some .lastCompletion
  else if value = "latest-request" ∨ value = "latest_request" then some .latestRequest
  else none

/-- The truth value of a word. -/
def flagOf? (value : String) : Option Bool :=
  if value = "true" then some true else if value = "false" then some false else none

/-- The profile with a value under a key. -/
def assign (p : Profile) (key value : String) : Except Failure Profile :=
  if key = "server" then
    match validateOrigin value with
    | .ok () => .ok { p with server := value }
    | .error e => .error (.ofSettings e)
  else if key = "api_base" ∨ key = "api-base" then .ok { p with apiBase := some value }
  else if key = "insecure" then
    match flagOf? value with
    | some b => .ok { p with insecure := some b }
    | none => .error (.invalid "insecure" "must be 'true' or 'false'")
  else if key = "timeout" then
    match CommandLine.word64? value with
    | some n => .ok { p with timeout := some (UInt64.ofNat n) }
    | none => .error (.invalid "timeout" "must be a number (seconds)")
  else if key = "load_ordering" ∨ key = "load-ordering" then
    match orderingOf? value with
    | some o => .ok { p with ordering := some o }
    | none => .error (.invalid "load_ordering" "must be 'last-completion' or 'latest-request'")
  else .error (.invalid key ("unknown config key '" ++ key ++
    "'. Valid keys: server, api_base, insecure, timeout, load_ordering"))

end Profile

namespace Settings

/-- The names of the profiles, for messages. -/
def knownProfiles (s : Settings) : String :=
  if s.profiles.isEmpty then "(none)" else ", ".intercalate (s.profiles.map (·.1))

/-- The name of the profile in use. -/
def activeName (s : Settings) (o : GlobalOptions) : String :=
  (o.profile.or s.defaultProfile).getD "default"

/-- The settings with a value under a key of a profile, which is made if there is none. -/
def assign (s : Settings) (name key value : String) : Except Failure Settings :=
  (((s.profile? name).getD (.ofServer defaultOrigin)).assign key value).map (s.withProfile name)

/-- The configuration of a console: options win over the profile, the profile over the
    defaults. -/
def resolve (s : Settings) (o : GlobalOptions) : Except Failure ConsoleConfig :=
  match s.choose o.profile with
  | .error (.unknownProfile name) => .error (.unknownProfile name s.knownProfiles)
  | .error e => .error (.ofSettings e)
  | .ok chosen =>
    match s.consoleConfig (chosen.map (·.2)) with
    | .error e => .error (.ofSettings e)
    | .ok config =>
      match (o.server.map validateOrigin).getD (.ok ()) with
      | .error e => .error (.ofSettings e)
      | .ok () => .ok { config with
          origin := o.server.getD config.origin
          apiBase := (o.apiBase.filter (!isBlankText ·)).getD config.apiBase
          insecure := o.insecure || config.insecure
          timeout := o.timeout.getD config.timeout }

/-- The line that lists a profile; a star marks the default one. -/
def profileLine (s : Settings) (name : String) (p : Profile) : String :=
  name ++ (if name = s.defaultProfile.getD "default" then " *" else "") ++ "\t" ++ p.server

end Settings

/-- The path of the file of settings in a directory. -/
def settingsPath (directory : String) : String := directory ++ "/config.toml"

namespace Run

/-- Writes the profile that the user describes, who has to be there, and uses it by default. -/
def setUp (m : Machine) (env : Environment) (directory : String) : Run Unit := do
  note "Qubes Air console configuration"
  note ("   Config path: " ++ settingsPath directory)
  note ""
  match m.user with
  | none => throw (.invalid "interactive" "prompt failed: IO error: not a terminal")
  | some user => do
    let s ← settings env
    save m { s.withProfile user.profile user.describes with defaultProfile := some user.profile }
    note ""
    note ("Configuration written to " ++ settingsPath directory)
    note ("  Active profile: " ++ user.profile)
    note ""
    note "  Test it: qubes-air health"

/-- Runs a command on the settings, which are kept in a directory. -/
def settingsCommand (m : Machine) (o : GlobalOptions) (env : Environment) (directory : String) :
    SettingsCommand → Run Unit
  | .init => setUp m env directory
  | .view => do
    let s ← settings env
    let display := Settings.display (settingsPath directory) m.arrange
    report o (renderOne display o.output o.color.isOn s)
  | .path => print (settingsPath directory)
  | .assign key value => do
    let s ← settings env
    let name := s.activeName o
    save m (← orFail id (s.assign name key value))
    notify o ("Set " ++ key ++ " on profile '" ++ name ++ "'")
  | .profiles => do
    let s ← settings env
    if s.profiles.isEmpty then note "No profiles configured. Run: qubes-air config init"
    else s.profiles.forM fun (name, p) => print (s.profileLine name p)
  | .use name => do
    let s ← settings env
    match s.profile? name with
    | none => throw (.unknownProfile name s.knownProfiles)
    | some _ =>
      save m { s with defaultProfile := some name }
      notify o ("Default profile set to '" ++ name ++ "'")

end Run

end ZoneConsole
