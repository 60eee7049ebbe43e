import ZoneConsole.Api.ListOptions
import ZoneConsole.Wire.Qube
import ZoneConsole.Wire.Zone

/-!
# Commands

What a command line can ask for: commands on zones and on qubes, on the server and
on the settings, with the options that hold for all of them.
-/

namespace ZoneConsole

/-- The forms of output. -/
inductive OutputFormat
  | table | json | compactJson | yaml | plain
  deriving DecidableEq, Repr

namespace OutputFormat

/-- The name of a form. -/
def name : OutputFormat → String
  | table => "table"
  | json => "json"
  | compactJson => "json-compact"
  | yaml => "yaml"
  | plain => "plain"

/-- All forms. -/
def all : List OutputFormat := [table, json, compactJson, yaml, plain]

end OutputFormat

/-- When output is coloured. -/
inductive ColorMode
  | auto | always | never
  deriving DecidableEq, Repr

namespace ColorMode

/-- The name of a mode. -/
def name : ColorMode → String
  | auto => "auto"
  | always => "always"
  | never => "never"

/-- All modes. -/
def all : List ColorMode := [auto, always, never]

end ColorMode

/-- Options that hold for every command; the time for a request is in seconds. -/
structure GlobalOptions where
  profile : Option String
  server : Option String
  apiBase : Option String
  output : OutputFormat
  color : ColorMode
  quiet : Bool
  yes : Bool
  insecure : Bool
  timeout : Option UInt64
  deriving DecidableEq, Repr

/-- Connection settings given on a command line. -/
structure ZoneFlags where
  endpoint : Option String
  region : Option String
  project : Option String
  username : Option String
  publicKey : Option String
  deriving DecidableEq, Repr

namespace ZoneFlags

/-- No settings at all. -/
def none : ZoneFlags := ⟨.none, .none, .none, .none, .none⟩

/-- Is nothing given? -/
def isEmpty (f : ZoneFlags) : Bool := f = none

/-- The settings with those that are given in place of the old ones. -/
def applyTo (f : ZoneFlags) (old : ZoneConfig) : ZoneConfig where
  endpoint := f.endpoint.getD old.endpoint
  region := f.region.or old.region
  project := f.project.or old.project
  username := f.username.or old.username
  publicKey := f.publicKey.or old.publicKey

end ZoneFlags

/-- Commands on zones. -/
inductive ZoneCommand
  | list (options : ListOptions) (connectedOnly : Bool)
  | get (id : String)
  | create (name : String) (provider : Provider) (flags : ZoneFlags)
  | update (id : String) (name : Option String) (flags : ZoneFlags)
  | delete (id : String)
  | transition (id action : String)
  deriving DecidableEq, Repr

/-- Commands on qubes. -/
inductive QubeCommand
  | list (options : ListOptions) (runningOnly : Bool)
  | get (id : String)
  | create (name zone : String) (workload : Workload) (spec : SpecPatch)
  | update (id : String) (name : Option String) (spec : SpecPatch)
  | delete (id : String)
  | transition (id action : String)
  deriving DecidableEq, Repr

/-- Commands on the settings. -/
inductive SettingsCommand
  | init
  | view
  | path
  | assign (key value : String)
  | profiles
  | use (name : String)
  deriving DecidableEq, Repr

/-- Commands. -/
inductive Command
  | zones (command : ZoneCommand)
  | qubes (command : QubeCommand)
  | health
  | status
  | settings (command : SettingsCommand)
  | completions (shell : String)
  deriving DecidableEq, Repr

end ZoneConsole
