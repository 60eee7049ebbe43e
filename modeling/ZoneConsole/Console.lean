import ZoneConsole.Store

/-!
# The console

A `Console` is one client with a store for each collection. It is built from a
configuration, which is plain data: whoever reads files and variables makes one.

An `Action` is anything that is asked of the server through a console. It can be
performed at once, or begun, with its request held back, and finished when a
reply is at hand.
-/

namespace ZoneConsole

/-- The origin used when none is configured. -/
def defaultOrigin : String := "http://127.0.0.1:8080"

/-- What a console is built from; the time for a request is in seconds. -/
structure ConsoleConfig where
  origin : String
  apiBase : String
  timeout : UInt64
  insecure : Bool
  ordering : LoadOrdering
  deriving DecidableEq, Repr

namespace ConsoleConfig

/-- The configuration for an origin, usual otherwise. -/
def ofOrigin (origin : String) : ConsoleConfig :=
  ⟨origin, defaultApiBase, 30, false, .lastCompletion⟩

/-- The configuration with the base that a variable of the environment gives, unless
    that is blank. -/
def withBaseOverride (c : ConsoleConfig) : Option String → ConsoleConfig
  | none => c
  | some base => if (Text.trim base).isEmpty then c else { c with apiBase := base }

end ConsoleConfig

/-- A client with a store for each collection. -/
structure Console where
  client : Client
  zones : Store Zone
  qubes : Store Qube

/-- Something asked of the server. -/
inductive Action
  | zones (op : Operation Zone)
  | qubes (op : Operation Qube)
  | health
  | status

/-- What an action answers. -/
inductive ActionAnswer
  | zones (answer : Answer Zone)
  | qubes (answer : Answer Qube)
  | health (result : Except ApiError Health)
  | status (result : Except ApiError ServerStatus)

namespace Console

/-- A console for a configuration. -/
def make (config : ConsoleConfig) : Except ApiError Console :=
  (Client.make config.origin config.apiBase).map fun client =>
    ⟨client, .make config.ordering, .make config.ordering⟩

/-- Empties both stores. -/
def reset (c : Console) : Console := { c with zones := c.zones.reset, qubes := c.qubes.reset }

/-- The request of an action. -/
def request (c : Console) : Action → Except ApiError Request
  | .zones op => op.request c.client
  | .qubes op => op.request c.client
  | .health => c.client.health.request
  | .status => c.client.status.request

/-- An action starts; the number is its token. -/
def start (c : Console) : Action → Console × Nat
  | .zones op => let (zones, token) := c.zones.start op; ({ c with zones }, token)
  | .qubes op => let (qubes, token) := c.qubes.start op; ({ c with qubes }, token)
  | .health | .status => (c, 0)

/-- The answer to an action arrives. -/
def conclude (c : Console) (action : Action) (token : Nat) (result : Except ApiError Response) :
    Console × ActionAnswer :=
  match action with
  | .zones op =>
    let (zones, answer) := c.zones.conclude op token result
    ({ c with zones }, .zones answer)
  | .qubes op =>
    let (qubes, answer) := c.qubes.conclude op token result
    ({ c with qubes }, .qubes answer)
  | .health => (c, .health (result >>= fun r => r.read Health.codec))
  | .status => (c, .status (result >>= fun r => r.read ServerStatus.codec))

/-- Performs an action at once. -/
def perform (c : Console) (action : Action) (link : Link) : Console × ActionAnswer × Link :=
  let (c, token) := c.start action
  let (result, link) := match c.request action with
    | .error e => (.error e, link)
    | .ok request => request.send link
  let (c, answer) := c.conclude action token result
  (c, answer, link)

/-- An action whose request has been sent and waits for a reply. -/
structure Pending where
  action : Action
  token : Nat
  request : Request

/-- Begins an action. It ends at once if its request does not set out. -/
def begin (c : Console) (action : Action) (network : Network) :
    Console × (ActionAnswer ⊕ Pending) :=
  let (c, token) := c.start action
  let ended (e : ApiError) : Console × (ActionAnswer ⊕ Pending) :=
    let (c, answer) := c.conclude action token (.error e)
    (c, .inl answer)
  match c.request action with
  | .error e => ended e
  | .ok request =>
    match request.obstacle? network with
    | some cause => ended (request.failure cause)
    | none => (c, .inr ⟨action, token, request⟩)

/-- Finishes an action with the reply that its request meets. If the request is sent on from
    there, the link carries it. -/
def finish (c : Console) (p : Pending) (reply : Reply) (link : Link) :
    Console × ActionAnswer × Link :=
  let course := p.request.course (link.network.meeting reply)
  let (c, answer) := c.conclude p.action p.token course.fate.response
  -- the request itself has been listed since the action was begun
  (c, answer, ⟨course.network, link.requests ++ course.sent.tail.map Request.sent⟩)

/-- The description of a console. -/
def describe (c : Console) : String :=
  "Console \x7b api_base: " ++ Text.quoted c.client.base.write ++ ", zones: " ++
    c.zones.describe ++ ", qubes: " ++ c.qubes.describe ++ " \x7d"

end Console

end ZoneConsole
