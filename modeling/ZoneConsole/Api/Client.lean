import ZoneConsole.Api.ListOptions
import ZoneConsole.Api.Network
import ZoneConsole.Api.Resource
import ZoneConsole.Text.Blank
import ZoneConsole.Url.Parser
import ZoneConsole.Wire.System

/-!
# The client of the service

A `Client` knows two URLs: the origin of the server and the base of its versioned
endpoints. Each call is an `Exchange`: one request and the reading of its answer.
Errors are given back as they are.

* **`Client.resolveBase`** finds the base from its setting: a path or a whole URL.
* **`Client.endpoint`** makes the URL of an endpoint; each segment is encoded as
  one, and those that stand for a directory are left out.
* **`Response.read`** and **`Response.readEmpty`** read the answers of the calls
  that are answered with a value and of those that are not.
-/

namespace ZoneConsole

/-- The base used when none is configured. -/
def defaultApiBase : String := "/api/v1"

/-- A client: the origin of the server and the base of its versioned endpoints. -/
structure Client where
  origin : Url
  base : Url
  deriving DecidableEq, Repr

/-- An exchange with the server: the request, if it can be made, and how its answer is
    read. -/
structure Exchange (α : Type) where
  request : Except ApiError Request
  read : Response → Except ApiError α

/-- Runs an exchange over a link. -/
def Exchange.run (e : Exchange α) (link : Link) : Except ApiError α × Link :=
  match e.request with
  | .error error => (.error error, link)
  | .ok request =>
    match request.send link with
    | (.error error, link) => (.error error, link)
    | (.ok response, link) => (e.read response, link)

/-- The first characters of a body that cannot be read. -/
def preview (body : String) : String := String.ofList (body.toList.take 200)

namespace Response

/-- The error of an answer that rejects; a body that broke off counts as empty. -/
def rejection (r : Response) : ApiError := .ofBody r.status (r.body.getD "")

/-- Reads the value that an accepting answer carries. -/
def read (c : Codec α) (r : Response) : Except ApiError α :=
  if isSuccess r.status then
    match r.body with
    | none => .error (.transport .body none)
    | some body =>
      match Json.decode c body with
      | .ok a => .ok a
      | .error e =>
        .error (.undecodable (e.message ++ " (body preview: " ++ Text.quoted (preview body) ++ ")")
          body)
  else .error r.rejection

/-- Reads an answer of which only the status matters. -/
def readEmpty (r : Response) : Except ApiError Unit :=
  if isSuccess r.status then .ok () else .error r.rejection

end Response

namespace Client

/-- The base of the versioned endpoints: a blank setting stands for the usual one, and
    a relative one is resolved against the origin. It ends in a slash. -/
def resolveBase (origin : Url) (setting : String) : Except UrlError Url :=
  let trimmed := Text.trim setting
  let raw := if trimmed.isEmpty then defaultApiBase else trimmed
  match Url.parse raw with
  | .ok url => .ok url.withSlash
  | .error .relativeWithoutBase => (origin.join raw).map Url.withSlash
  | .error e => .error e

/-- The client for an origin and a setting of the base. -/
def make (origin base : String) : Except ApiError Client :=
  match Url.parse origin with
  | .error e => .error (.invalidUrl e)
  | .ok origin =>
    match resolveBase origin base with
    | .error e => .error (.invalidUrl e)
    | .ok base => .ok ⟨origin, base⟩

/-- The URL of an endpoint below the base. -/
def endpoint (c : Client) (segments : List String) : Except ApiError Url :=
  match c.base.push? segments with
  | some url => .ok url
  | none => .error (.invalidUrl .relativeToOpaque)

/-- The URL of a path of the origin, outside the base. -/
def rootEndpoint (c : Client) (path : String) : Except ApiError Url :=
  match c.origin.join path with
  | .ok url => .ok url
  | .error e => .error (.invalidUrl e)

/-- An exchange by its parts. -/
def exchange (method : Method) (url : Except ApiError Url) (body : Option String)
    (read : Response → Except ApiError α) : Exchange α :=
  ⟨url.map fun url => ⟨method, url, body⟩, read⟩

variable (E : Type) [Resource E]

/-- A page of a collection. -/
def list (c : Client) (options : ListOptions) : Exchange (Resource.Page E) :=
  exchange .get ((c.endpoint [Resource.collection E]).map (·.appendPairs options.pairs)) none
    (Response.read (Resource.pageCodec (E := E)))

/-- One entity. -/
def get (c : Client) (id : String) : Exchange E :=
  exchange .get (c.endpoint [Resource.collection E, id]) none (Response.read Resource.codec)

/-- Creates an entity. -/
def create (c : Client) (draft : Resource.Draft E) : Exchange E :=
  exchange .post (c.endpoint [Resource.collection E])
    (some (Json.encode (Resource.draftCodec (E := E)) draft)) (Response.read Resource.codec)

/-- Changes an entity. -/
def update (c : Client) (id : String) (patch : Resource.Patch E) : Exchange E :=
  exchange .put (c.endpoint [Resource.collection E, id])
    (some (Json.encode (Resource.patchCodec (E := E)) patch)) (Response.read Resource.codec)

/-- Deletes an entity. -/
def delete (c : Client) (id : String) : Exchange Unit :=
  exchange .delete (c.endpoint [Resource.collection E, id]) none Response.readEmpty

/-- Asks for a change of state, which the action names. -/
def transition (c : Client) (id action : String) : Exchange E :=
  exchange .post (c.endpoint [Resource.collection E, id, action]) none
    (Response.read Resource.codec)

/-- The probe of the health of the server, which lies outside the base. -/
def health (c : Client) : Exchange Health :=
  exchange .get (c.rootEndpoint "/health") none (Response.read Health.codec)

/-- The summary of the server. -/
def status (c : Client) : Exchange ServerStatus :=
  exchange .get (c.endpoint ["status"]) none (Response.read ServerStatus.codec)

end Client

end ZoneConsole
