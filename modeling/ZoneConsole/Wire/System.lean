import ZoneConsole.Codec.Record

/-!
# Health and status of the server

What the server answers about itself: a probe of its health, and a summary of
what it manages. Servers differ in which of the fields they send.
-/

namespace ZoneConsole

/-- The answer to a health probe. -/
structure Health where
  status : String
  database : String
  timestamp : Option String
  version : Option String
  deriving DecidableEq, Repr

namespace Health

/-- Does the server call itself healthy? -/
def isHealthy (h : Health) : Bool := h.status = "healthy"

/-- The fields of the answer. -/
def fields : Record Health Health :=
  Record.done mk
    |>.field (.required "status" .text) status
    |>.field (.defaulted "database" .text "") database
    |>.field (.omittable "timestamp" .text) timestamp
    |>.field (.omittable "version" .text) version

/-- The codec of answers to a health probe. -/
def codec : Codec Health := fields.codec "HealthResponse"

end Health

/-- The summary of a server. -/
structure ServerStatus where
  app : String
  version : String
  zones : UInt64
  qubes : UInt64
  deriving DecidableEq, Repr

namespace ServerStatus

/-- The fields of the summary; the application may also be given as a name. -/
def fields : Record ServerStatus ServerStatus :=
  Record.done mk
    |>.field ((Field.defaulted "app" .text "").orNamed "name") app
    |>.field (.defaulted "version" .text "") version
    |>.field (.defaulted "zones_count" .word64 0) zones
    |>.field (.defaulted "qubes_count" .word64 0) qubes

/-- The codec of summaries. -/
def codec : Codec ServerStatus := fields.codec "StatusResponse"

end ServerStatus

end ZoneConsole
