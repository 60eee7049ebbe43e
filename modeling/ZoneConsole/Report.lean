import ZoneConsole.Api.Resource
import ZoneConsole.Command
import ZoneConsole.Json
import ZoneConsole.Report.Table
import ZoneConsole.Settings
import ZoneConsole.Wire.System
import ZoneConsole.Yaml

/-!
# Reports

How values are shown in each form of output: as a table or a block of fields, as
JSON, as YAML, or by nothing but what identifies them. A `Display` is all that a
type has to say about itself for that.

**`renderList`** shows a list and **`renderOne`** a single value.
-/

namespace ZoneConsole

/-- How values of a type are shown: their codec, the header and the cells of a table, the
    fields of a block, and what identifies a value. Cells and fields may be coloured. -/
structure Display (α : Type) where
  codec : Codec α
  header : List String
  cells : Bool → α → List String
  details : Bool → α → String
  ident : α → String

/-- Is output coloured? A mode that is not settled does not colour it. -/
def ColorMode.isOn : ColorMode → Bool
  | always => true
  | auto | never => false

/-- The mode when it is known whether output goes to somebody who wants colours. -/
def ColorMode.settled (wanted : Bool) : ColorMode → ColorMode
  | auto => if wanted then always else never
  | mode => mode

/-- A text between two sequences that switch a colour on and off. -/
def paint (on off : String) (s : String) : String :=
  "\x1b[" ++ on ++ "m" ++ s ++ "\x1b[" ++ off ++ "m"

/-- A status in the colour of how healthy it is. -/
def paintStatus (color : Bool) (status : String) : String :=
  if !color then status
  else if ["connected", "running", "healthy"].contains status then paint "32" "39" status
  else if ["pending", "creating"].contains status then paint "33" "39" status
  else if ["error", "unhealthy"].contains status then paint "31" "39" status
  else paint "2" "0" status

/-- Shows a list. -/
def renderList (d : Display α) (format : OutputFormat) (color : Bool) (items : List α) : String :=
  let tree := Data.seq (items.map d.codec.encode)
  match format with
  | .table => drawTable d.header (items.map (d.cells color))
  | .json => String.ofList (Json.pretty tree)
  | .compactJson => String.ofList (Json.compact tree)
  | .yaml => Yaml.write tree
  | .plain => Text.joinTexts (items.map d.ident)

/-- Shows a single value. -/
def renderOne (d : Display α) (format : OutputFormat) (color : Bool) (a : α) : String :=
  let tree := d.codec.encode a
  match format with
  | .table => d.details color a
  | .json => String.ofList (Json.pretty tree)
  | .compactJson => String.ofList (Json.compact tree)
  | .yaml => Yaml.write tree
  | .plain => d.ident a

/-- A count in digits. -/
def countText (n : Nat) : String := String.ofList (Text.decimal n)

/-- How zones are shown. -/
def Zone.display : Display Zone where
  codec := Zone.codec
  header := ["ID", "Name", "Type", "Status", "Endpoint", "Updated"]
  cells color z := [z.id, z.name, z.provider.name, paintStatus color z.status.name,
    z.config.endpoint, z.updatedAt.writeMinute]
  details _ z := detailBlock [("ID", z.id), ("Name", z.name), ("Type", z.provider.name),
    ("Status", z.status.name), ("Endpoint", z.config.endpoint),
    ("Region", z.config.region.getD ""), ("Project", z.config.project.getD ""),
    ("Username", z.config.username.getD ""), ("Created", z.createdAt.writeWithOffset),
    ("Updated", z.updatedAt.writeWithOffset)]
  ident z := z.id

/-- The field of an allocation of graphics processors. -/
def gpuFields : Option Gpu → List (String × String)
  | some gpu => [("GPU", gpu.model ++ " x" ++ countText gpu.count.toNat)]
  | none => []

/-- How qubes are shown. -/
def Qube.display : Display Qube where
  codec := Qube.codec
  header := ["ID", "Name", "Zone", "Type", "Status", "vCPU", "Mem (MB)", "IP"]
  cells color q := [q.id, q.name, q.zoneName.getD q.zoneId, q.workload.name,
    paintStatus color q.status.name, countText q.spec.vcpu.toNat, countText q.spec.memory.toNat,
    q.ipAddress.getD "-"]
  details _ q := detailBlock ([("ID", q.id), ("Name", q.name), ("Zone", q.zoneId),
    ("Zone Name", q.zoneName.getD ""), ("Type", q.workload.name), ("Status", q.status.name),
    ("vCPU", countText q.spec.vcpu.toNat), ("Memory", countText q.spec.memory.toNat ++ " MB"),
    ("Disk", countText q.spec.disk.toNat ++ " GB"), ("Template", q.spec.template),
    ("IP", q.ipAddress.getD "")] ++ gpuFields q.spec.gpu ++
    [("Created", q.createdAt.writeWithOffset), ("Updated", q.updatedAt.writeWithOffset)])
  ident q := q.id

/-- How the health of a server is shown. -/
def Health.display : Display Health where
  codec := Health.codec
  header := []
  cells _ _ := []
  details color h := detailBlock [("Status", paintStatus color h.status),
    ("Database", h.database), ("Version", h.version.getD ""), ("Timestamp", h.timestamp.getD "")]
  ident h := h.status

/-- How the summary of a server is shown. -/
def ServerStatus.display : Display ServerStatus where
  codec := ServerStatus.codec
  header := []
  cells _ _ := []
  details _ s := detailBlock [("App", s.app), ("Version", s.version),
    ("Zones", countText s.zones.toNat), ("Qubes", countText s.qubes.toNat)]
  ident s := s.version

namespace Settings

/-- A line of a setting with a text. -/
def textLine (key value : String) : String := key ++ " = \"" ++ value ++ "\""

/-- A line of a setting with a truth value. -/
def flagLine (key : String) (value : Bool) : String :=
  key ++ " = " ++ (if value then "true" else "false")

/-- A line of a setting with a count. -/
def countLine (key : String) (value : UInt64) : String := key ++ " = " ++ countText value.toNat

/-- A line of a setting that may have no value. -/
def optionLine (f : α → String) : Option α → List String
  | some a => [f a]
  | none => []

/-- The lines that show a profile. -/
def profileLines (name : String) (p : Profile) : List String :=
  ["", "[profiles." ++ name ++ "]", textLine "server" p.server] ++
    optionLine (textLine "api_base") p.apiBase ++ optionLine (flagLine "insecure") p.insecure ++
    optionLine (countLine "timeout") p.timeout ++
    optionLine (fun o => textLine "load_ordering" o.name) p.ordering

/-- The lines that show settings. -/
def summaryLines (s : Settings) : List String :=
  optionLine (textLine "default_profile") s.defaultProfile ++
    optionLine (textLine "api_base_url") s.apiBase ++
    ["", "[defaults]", textLine "output" s.defaults.output, textLine "color" s.defaults.color,
      flagLine "insecure" s.defaults.insecure, countLine "timeout" s.defaults.timeout,
      textLine "load_ordering" s.defaults.ordering.name] ++
    s.profiles.flatMap fun (name, p) => profileLines name p

/-- Settings at a glance. -/
def summary (s : Settings) : String :=
  String.ofList (Text.trimEnd (Text.joinTexts s.summaryLines).toList)

/-- How settings are shown; their file identifies them. A tree has the profiles in some order
    of their own, the summary has them by name. -/
def display (path : String) (arrange : List (String × Profile) → List (String × Profile)) :
    Display Settings where
  codec := ⟨fun s => codec.encode { s with profiles := arrange s.profiles }, codec.decode⟩
  header := []
  cells _ _ := []
  details _ s := s.summary
  ident _ := path

end Settings

end ZoneConsole
