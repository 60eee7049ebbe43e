import ZoneConsole.Codec.Record
import ZoneConsole.Store.Ordering

/-!
# Settings

What a user has configured: named profiles, one for each server, which of them is
used unless another is asked for, and what holds for all profiles that do not say
otherwise.
-/

namespace ZoneConsole

/-- What holds for profiles that do not say otherwise; the time for a request is in
    seconds. -/
structure Defaults where
  output : String
  color : String
  insecure : Bool
  timeout : UInt64
  ordering : LoadOrdering
  deriving DecidableEq, Repr

namespace Defaults

/-- What holds if nothing is configured. -/
def usual : Defaults := ⟨"table", "auto", false, 30, .lastCompletion⟩

/-- The fields of the defaults. -/
def fields : Record Defaults Defaults :=
  Record.done mk
    |>.field (.defaulted "output" .text usual.output) output
    |>.field (.defaulted "color" .text usual.color) color
    |>.field (.defaulted "insecure" .flag usual.insecure) insecure
    |>.field (.defaulted "timeout" .word64 usual.timeout) timeout
    |>.field (.defaulted "load_ordering" LoadOrdering.codec usual.ordering) ordering

/-- The codec of defaults. -/
def codec : Codec Defaults := fields.codec "Defaults"

end Defaults

/-- A server under a name, with what differs there from the defaults. -/
structure Profile where
  server : String
  apiBase : Option String
  insecure : Option Bool
  timeout : Option UInt64
  ordering : Option LoadOrdering
  deriving DecidableEq, Repr

namespace Profile

/-- The profile of a server in which nothing differs. -/
def ofServer (server : String) : Profile := ⟨server, none, none, none, none⟩

/-- The fields of a profile. -/
def fields : Record Profile Profile :=
  Record.done mk
    |>.field (.required "server" .text) server
    |>.field (.nullable "api_base" .text) apiBase
    |>.field (.nullable "insecure" .flag) insecure
    |>.field (.nullable "timeout" .word64) timeout
    |>.field (.nullable "load_ordering" LoadOrdering.codec) ordering

/-- The codec of profiles. -/
def codec : Codec Profile := fields.codec "Profile"

end Profile

/-- Settings: the name of the profile used by default, a base of the service that
    overrides those of the profiles, the defaults, and the profiles sorted by name. -/
structure Settings where
  defaultProfile : Option String
  apiBase : Option String
  defaults : Defaults
  profiles : List (String × Profile)
  deriving DecidableEq, Repr

namespace Settings

/-- The settings if nothing is configured. -/
def usual : Settings := ⟨some "default", none, .usual, []⟩

/-- The fields of settings. -/
def fields : Record Settings Settings :=
  Record.done mk
    |>.field (.nullable "default_profile" .text) defaultProfile
    |>.field (.omittable "api_base_url" .text) apiBase
    |>.field (.defaulted "defaults" Defaults.codec .usual) defaults
    |>.field (.defaulted "profiles" (.dictionary Profile.codec) []) profiles

/-- The codec of settings. -/
def codec : Codec Settings := fields.codec "Config"

/-- The profile of a name. -/
def profile? (s : Settings) (name : String) : Option Profile := lookup? name s.profiles

/-- The settings with a profile under a name, in place of one of the same name. -/
def withProfile (s : Settings) (name : String) (profile : Profile) : Settings :=
  { s with profiles := insertMember name profile s.profiles }

end Settings

end ZoneConsole
