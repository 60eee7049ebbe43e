import ZoneConsole.Codec.Record
import ZoneConsole.Named
import ZoneConsole.Wire.Time

/-!
# Qubes

A qube is a virtual machine in a zone. This module holds the snapshot of a qube
as the server reports it, its allocation of resources, the requests that create
and change one, and their codecs.
-/

namespace ZoneConsole

/-- The class of work a qube is for. -/
inductive Workload
  | app | work | dev | gpu | disp | sys
  deriving DecidableEq, Repr

namespace Workload

/-- The name of a class of work. -/
def name : Workload → String
  | app => "app"
  | work => "work"
  | dev => "dev"
  | gpu => "gpu"
  | disp => "disp"
  | sys => "sys"

instance : Named Workload := ⟨[app, work, dev, gpu, disp, sys], name⟩

/-- Classes of work by name. -/
def codec : Codec Workload := .variant "QubeType" Named.all name

end Workload

/-- The state of a qube, which only the server changes. -/
inductive QubeStatus
  | pending | creating | running | stopped | error
  deriving DecidableEq, Repr

namespace QubeStatus

/-- The name of a state. -/
def name : QubeStatus → String
  | pending => "pending"
  | creating => "creating"
  | running => "running"
  | stopped => "stopped"
  | error => "error"

instance : Named QubeStatus := ⟨[pending, creating, running, stopped, error], name⟩

/-- States by name. -/
def codec : Codec QubeStatus := .variant "QubeStatus" Named.all name

end QubeStatus

/-- Graphics processors of a kind. -/
structure Gpu where
  model : String
  count : UInt32
  deriving DecidableEq, Repr

namespace Gpu

/-- The fields of an allocation of graphics processors. -/
def fields : Record Gpu Gpu :=
  Record.done mk
    |>.field (.required "type" .text) model
    |>.field (.required "count" .word32) count

/-- The codec of graphics processors. -/
def codec : Codec Gpu := fields.codec "GpuSpec"

end Gpu

/-- What a qube is given: memory in megabytes, disk in gigabytes. -/
structure QubeSpec where
  vcpu : UInt32
  memory : UInt32
  disk : UInt32
  template : String
  gpu : Option Gpu
  deriving DecidableEq, Repr

namespace QubeSpec

/-- An allocation of nothing. -/
def empty : QubeSpec := ⟨0, 0, 0, "", none⟩

/-- The fields of an allocation. -/
def fields : Record QubeSpec QubeSpec :=
  Record.done mk
    |>.field (.defaulted "vcpu" .word32 0) vcpu
    |>.field (.defaulted "memory" .word32 0) memory
    |>.field (.defaulted "disk" .word32 0) disk
    |>.field (.defaulted "template" .text "") template
    |>.field (.omittable "gpu" Gpu.codec) gpu

/-- The codec of allocations. -/
def codec : Codec QubeSpec := fields.codec "QubeSpec"

end QubeSpec

/-- A change of an allocation; what has no value stays as it is. -/
structure SpecPatch where
  vcpu : Option UInt32
  memory : Option UInt32
  disk : Option UInt32
  template : Option String
  gpu : Option Gpu
  deriving DecidableEq, Repr

namespace SpecPatch

/-- A change of nothing. -/
def empty : SpecPatch := ⟨none, none, none, none, none⟩

/-- Does the change leave all as it is? -/
def isEmpty (p : SpecPatch) : Bool := p = empty

/-- The fields of a change of an allocation. -/
def fields : Record SpecPatch SpecPatch :=
  Record.done mk
    |>.field (.omittable "vcpu" .word32) vcpu
    |>.field (.omittable "memory" .word32) memory
    |>.field (.omittable "disk" .word32) disk
    |>.field (.omittable "template" .text) template
    |>.field (.omittable "gpu" Gpu.codec) gpu

/-- The codec of changes of an allocation. -/
def codec : Codec SpecPatch := fields.codec "QubeSpecPatch"

end SpecPatch

/-- A qube as the server reports it. -/
structure Qube where
  id : String
  name : String
  zoneId : String
  zoneName : Option String
  workload : Workload
  status : QubeStatus
  spec : QubeSpec
  ipAddress : Option String
  createdAt : Timestamp
  updatedAt : Timestamp
  deriving DecidableEq, Repr

namespace Qube

/-- Is the qube running? -/
def isRunning (q : Qube) : Bool := q.status = .running

/-- The fields of a qube. -/
def fields : Record Qube Qube :=
  Record.done mk
    |>.field (.required "id" .text) id
    |>.field (.required "name" .text) name
    |>.field (.defaulted "zone_id" .text "") zoneId
    |>.field (.omittable "zone_name" .text) zoneName
    |>.field (.required "type" Workload.codec) workload
    |>.field (.required "status" QubeStatus.codec) status
    |>.field (.defaulted "spec" QubeSpec.codec .empty) spec
    |>.field (.omittable "ip_address" .text) ipAddress
    |>.field (.required "created_at" Timestamp.codec) createdAt
    |>.field (.required "updated_at" Timestamp.codec) updatedAt

/-- The codec of qubes. -/
def codec : Codec Qube := fields.codec "Qube"

end Qube

/-- A request for a new qube. -/
structure QubeDraft where
  name : String
  zoneId : String
  workload : Workload
  spec : Option SpecPatch
  deriving DecidableEq, Repr

namespace QubeDraft

/-- The fields of the request. -/
def fields : Record QubeDraft QubeDraft :=
  Record.done mk
    |>.field (.required "name" .text) name
    |>.field (.required "zone_id" .text) zoneId
    |>.field (.required "type" Workload.codec) workload
    |>.field (.omittable "spec" SpecPatch.codec) spec

/-- The codec of requests for a new qube. -/
def codec : Codec QubeDraft := fields.codec "QubeCreateRequest"

end QubeDraft

/-- A change of a qube; what has no value stays as it is and is not sent. -/
structure QubePatch where
  name : Option String
  spec : Option SpecPatch
  deriving DecidableEq, Repr

namespace QubePatch

/-- The fields of the change. -/
def fields : Record QubePatch QubePatch :=
  Record.done mk
    |>.field (.omittable "name" .text) name
    |>.field (.omittable "spec" SpecPatch.codec) spec

/-- The codec of changes of a qube. -/
def codec : Codec QubePatch := fields.codec "QubeUpdateRequest"

end QubePatch

/-- A page of qubes with the number of all. -/
structure QubePage where
  qubes : List Qube
  total : UInt64
  deriving DecidableEq, Repr

namespace QubePage

/-- The fields of a page; null stands for no qubes. -/
def fields : Record QubePage QubePage :=
  Record.done mk
    |>.field (.defaulted "qubes" (.listOrNull Qube.codec) []) qubes
    |>.field (.defaulted "total" .word64 0) total

/-- The codec of pages of qubes. -/
def codec : Codec QubePage := fields.codec "QubeListResponse"

end QubePage

end ZoneConsole
