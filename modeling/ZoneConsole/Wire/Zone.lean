import ZoneConsole.Codec.Record
import ZoneConsole.Named
import ZoneConsole.Wire.Time

/-!
# Zones

A zone is a registered connection to a hypervisor or a cloud provider. This
module holds the snapshot of a zone as the server reports it, the requests that
create and change one, and the codecs of all three.
-/

namespace ZoneConsole

/-- The infrastructure provider behind a zone. -/
inductive Provider
  | proxmox | gcp | aws | azure
  deriving DecidableEq, Repr

namespace Provider

/-- The name of a provider. -/
def name : Provider → String
  | proxmox => "proxmox"
  | gcp => "gcp"
  | aws => "aws"
  | azure => "azure"

instance : Named Provider := ⟨[proxmox, gcp, aws, azure], name⟩

/-- Providers by name. -/
def codec : Codec Provider := .variant "ZoneType" Named.all name

end Provider

/-- Connectivity as the server last reported it. -/
inductive ZoneStatus
  | connected | disconnected
  deriving DecidableEq, Repr

namespace ZoneStatus

/-- The name of a status. -/
def name : ZoneStatus → String
  | connected => "connected"
  | disconnected => "disconnected"

instance : Named ZoneStatus := ⟨[connected, disconnected], name⟩

/-- Statuses by name. -/
def codec : Codec ZoneStatus := .variant "ZoneStatus" Named.all name

end ZoneStatus

/-- Connection settings, as far as the provider has use for them. -/
structure ZoneConfig where
  endpoint : String
  region : Option String
  project : Option String
  username : Option String
  publicKey : Option String
  deriving DecidableEq, Repr

namespace ZoneConfig

/-- Settings that name nothing. -/
def empty : ZoneConfig := ⟨"", none, none, none, none⟩

/-- The fields of the settings. -/
def fields : Record ZoneConfig ZoneConfig :=
  Record.done mk
    |>.field (.defaulted "endpoint" .text "") endpoint
    |>.field (.omittable "region" .text) region
    |>.field (.omittable "project" .text) project
    |>.field (.omittable "username" .text) username
    |>.field (.omittable "public_key" .text) publicKey

/-- The codec of connection settings. -/
def codec : Codec ZoneConfig := fields.codec "ZoneConfig"

end ZoneConfig

/-- A zone as the server reports it. -/
structure Zone where
  id : String
  name : String
  provider : Provider
  status : ZoneStatus
  config : ZoneConfig
  createdAt : Timestamp
  updatedAt : Timestamp
  deriving DecidableEq, Repr

namespace Zone

/-- Is the zone connected? -/
def isConnected (z : Zone) : Bool := z.status = .connected

/-- The fields of a zone. -/
def fields : Record Zone Zone :=
  Record.done mk
    |>.field (.required "id" .text) id
    |>.field (.required "name" .text) name
    |>.field (.required "type" Provider.codec) provider
    |>.field (.required "status" ZoneStatus.codec) status
    |>.field (.defaulted "config" ZoneConfig.codec .empty) config
    |>.field (.required "created_at" Timestamp.codec) createdAt
    |>.field (.required "updated_at" Timestamp.codec) updatedAt

/-- The codec of zones. -/
def codec : Codec Zone := fields.codec "Zone"

end Zone

/-- A request for a new zone. -/
structure ZoneDraft where
  name : String
  provider : Provider
  config : ZoneConfig
  deriving DecidableEq, Repr

namespace ZoneDraft

/-- The fields of the request. -/
def fields : Record ZoneDraft ZoneDraft :=
  Record.done mk
    |>.field (.required "name" .text) name
    |>.field (.required "type" Provider.codec) provider
    |>.field (.required "config" ZoneConfig.codec) config

/-- The codec of requests for a new zone. -/
def codec : Codec ZoneDraft := fields.codec "ZoneCreateRequest"

end ZoneDraft

/-- A change of a zone; what has no value stays as it is and is not sent. -/
structure ZonePatch where
  name : Option String
  config : Option ZoneConfig
  deriving DecidableEq, Repr

namespace ZonePatch

/-- The fields of the change. -/
def fields : Record ZonePatch ZonePatch :=
  Record.done mk
    |>.field (.omittable "name" .text) name
    |>.field (.omittable "config" ZoneConfig.codec) config

/-- The codec of changes of a zone. -/
def codec : Codec ZonePatch := fields.codec "ZoneUpdateRequest"

end ZonePatch

/-- A page of zones with the number of all. -/
structure ZonePage where
  zones : List Zone
  total : UInt64
  deriving DecidableEq, Repr

namespace ZonePage

/-- The fields of a page; null stands for no zones. -/
def fields : Record ZonePage ZonePage :=
  Record.done mk
    |>.field (.defaulted "zones" (.listOrNull Zone.codec) []) zones
    |>.field (.defaulted "total" .word64 0) total

/-- The codec of pages of zones. -/
def codec : Codec ZonePage := fields.codec "ZoneListResponse"

end ZonePage

end ZoneConsole
