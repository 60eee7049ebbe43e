import ZoneConsole.Command
import ZoneConsole.CommandLine.Reader
import ZoneConsole.Named

/-!
# The command line

Which commands there are and what each takes, and how what was given becomes a
command. A command that needs a value gets it, because the reader of command
lines checks that.

**`Invocation.read`** reads the words of a command line.
-/

namespace ZoneConsole

/-- A command with the options that hold for every command. -/
structure Invocation where
  command : Command
  options : GlobalOptions
  deriving DecidableEq, Repr

namespace Invocation

open CommandLine (Param Matches Grammar ValueType)

/-- A count of 32 bits among matches. -/
def word32? (ms : Matches) (name : String) : Option UInt32 :=
  ((ms.value? name).bind CommandLine.word32?).map UInt32.ofNat

/-- One of finitely many values among matches, by its name in any case. -/
def named? (α : Type) [Named α] (ms : Matches) (name : String) : Option α :=
  (ms.value? name).bind (Named.ofText? α)

/-- The type of values that have names. -/
def namedType (α : Type) [Named α] : ValueType :=
  .named ((Named.all (α := α)).map Named.name)

/-- An option with any text. -/
def textOption (name : String) : Param := .value name .text

/-- A value by position that has to be given. -/
def position (name : String) : Param := (textOption name).needed

/-! ## Options of every command -/

/-- The options of every command. -/
def globals : List Param :=
  [((textOption "profile").orShort 'p').orVariable "QUBES_AIR_PROFILE",
    ((textOption "server").orShort 's').orVariable "QUBES_AIR_SERVER",
    (textOption "api-base").orVariable "QUBES_AIR_API_BASE_URL",
    (((Param.value "output" (.choice (OutputFormat.all.map (·.name)))).orShort 'o').orVariable
      "QUBES_AIR_OUTPUT").orUsual "table",
    (Param.value "color" (.choice (ColorMode.all.map (·.name)))).orUsual "auto",
    (Param.ofKind "verbose" .count).orShort 'v',
    (Param.flag "quiet").orShort 'q',
    (Param.flag "yes").orShort 'y',
    ((Param.flag "insecure").orShort 'k').orVariable "QUBES_AIR_INSECURE",
    (Param.value "timeout" .word64).orVariable "QUBES_AIR_TIMEOUT"]

/-- What the options of every command were given. -/
def readGlobals (ms : Matches) : GlobalOptions where
  profile := ms.value? "profile"
  server := ms.value? "server"
  apiBase := ms.value? "api-base"
  output := ((ms.value? "output").bind fun s => OutputFormat.all.find? (·.name = s)).getD .table
  color := ((ms.value? "color").bind fun s => ColorMode.all.find? (·.name = s)).getD .auto
  quiet := ms.flag "quiet"
  yes := ms.flag "yes"
  insecure := ms.flag "insecure"
  timeout := ((ms.value? "timeout").bind CommandLine.word64?).map UInt64.ofNat

/-! ## Zones -/

/-- The options that page a list. -/
def pageOptions : List Param :=
  [Param.value "page" .word32, (Param.value "page-size" .word32).orShort 'l']

/-- The options of connection settings. -/
def zoneFlagOptions : List Param :=
  ["endpoint", "region", "project", "username", "public-key"].map textOption

/-- The connection settings that were given. -/
def readZoneFlags (ms : Matches) : ZoneFlags where
  endpoint := ms.value? "endpoint"
  region := ms.value? "region"
  project := ms.value? "project"
  username := ms.value? "username"
  publicKey := ms.value? "public-key"

/-- The options of a list of zones. -/
def readZoneList (ms : Matches) : ZoneCommand :=
  .list
    { page := word32? ms "page"
      pageSize := word32? ms "page-size"
      status := (named? ZoneStatus ms "status").map Named.name
      type := (named? Provider ms "type").map Named.name
      zoneId := none }
    (ms.flag "connected")

/-- A command on one entity, which is named by position. -/
def onEntity (noun name : String) (aliases : List String) (f : String → Command) :
    Grammar Command :=
  .command name aliases [] [position noun] fun ms => (ms.value? noun).map f

/-- The commands on zones. -/
def zoneCommands : List (Grammar Command) :=
  [.command "list" ["ls"]
      (pageOptions ++ [Param.value "status" (namedType ZoneStatus),
        Param.value "type" (namedType Provider), (Param.flag "connected").notWith "status"])
      [] fun ms => some (.zones (readZoneList ms)),
    onEntity "zone" "get" [] fun id => .zones (.get id),
    .command "create" []
      ([(textOption "name").needed, (Param.value "type" (namedType Provider)).needed] ++
        zoneFlagOptions) [] fun ms => do
        let name ← ms.value? "name"
        let provider ← named? Provider ms "type"
        return .zones (.create name provider (readZoneFlags ms)),
    .command "update" [] (textOption "name" :: zoneFlagOptions) [position "zone"] fun ms => do
        let id ← ms.value? "zone"
        return .zones (.update id (ms.value? "name") (readZoneFlags ms)),
    onEntity "zone" "delete" ["rm"] fun id => .zones (.delete id),
    onEntity "zone" "connect" [] fun id => .zones (.transition id "connect"),
    onEntity "zone" "disconnect" [] fun id => .zones (.transition id "disconnect")]

/-! ## Qubes -/

/-- The options of an allocation. -/
def specOptions : List Param :=
  [Param.value "vcpu" .word32, Param.value "memory" .word32, Param.value "disk" .word32,
    textOption "template"]

/-- The allocation that was given. -/
def readSpec (ms : Matches) : SpecPatch where
  vcpu := word32? ms "vcpu"
  memory := word32? ms "memory"
  disk := word32? ms "disk"
  template := ms.value? "template"
  gpu := none

/-- The options of a list of qubes. -/
def readQubeList (ms : Matches) : QubeCommand :=
  .list
    { page := word32? ms "page"
      pageSize := word32? ms "page-size"
      status := (named? QubeStatus ms "status").map Named.name
      type := (named? Workload ms "type").map Named.name
      zoneId := ms.value? "zone" }
    (ms.flag "running")

/-- The commands on qubes. -/
def qubeCommands : List (Grammar Command) :=
  [.command "list" ["ls"]
      (pageOptions ++ [(textOption "zone").orShort 'z',
        Param.value "status" (namedType QubeStatus), Param.value "type" (namedType Workload),
        (Param.flag "running").notWith "status"])
      [] fun ms => some (.qubes (readQubeList ms)),
    onEntity "qube" "get" [] fun id => .qubes (.get id),
    .command "create" []
      ([(textOption "name").needed, ((textOption "zone").orShort 'z').needed,
        (Param.value "type" (namedType Workload)).needed] ++ specOptions) [] fun ms => do
        let name ← ms.value? "name"
        let zone ← ms.value? "zone"
        let workload ← named? Workload ms "type"
        return .qubes (.create name zone workload (readSpec ms)),
    .command "update" [] (textOption "name" :: specOptions) [position "qube"] fun ms => do
        let id ← ms.value? "qube"
        return .qubes (.update id (ms.value? "name") (readSpec ms)),
    onEntity "qube" "delete" ["rm"] fun id => .qubes (.delete id),
    onEntity "qube" "start" [] fun id => .qubes (.transition id "start"),
    onEntity "qube" "stop" [] fun id => .qubes (.transition id "stop")]

/-! ## Settings and the rest -/

/-- A command that takes nothing. -/
def bare (name : String) (command : Command) : Grammar Command :=
  .command name [] [] [] fun _ => some command

/-- The commands on the settings. -/
def settingsCommands : List (Grammar Command) :=
  [bare "init" (.settings .init),
    bare "show" (.settings .view),
    bare "path" (.settings .path),
    .command "set" [] [] [position "key", position "value"] fun ms => do
        let key ← ms.value? "key"
        let value ← ms.value? "value"
        return .settings (.assign key value),
    bare "profiles" (.settings .profiles),
    .command "use" [] [] [position "name"] fun ms =>
        (ms.value? "name").map fun name => .settings (.use name)]

/-- The shells for which there are completions. -/
def shells : List String := ["bash", "elvish", "fish", "powershell", "zsh"]

/-- All commands. -/
def grammar : Grammar Command :=
  .group "qubes-air" []
    [.group "zones" ["z"] zoneCommands,
      .group "qubes" ["q", "vm"] qubeCommands,
      bare "health" .health,
      bare "status" .status,
      .group "config" [] settingsCommands,
      .command "completions" [] [] [(Param.value "shell" (.choice shells)).needed] fun ms =>
        (ms.value? "shell").map .completions]

/-- Reads the words of a command line. -/
def read (env : List (String × String)) (words : List String) : Except UsageError Invocation :=
  (CommandLine.read globals env grammar words).map fun (command, ms) =>
    ⟨command, readGlobals ms⟩

end Invocation

end ZoneConsole
