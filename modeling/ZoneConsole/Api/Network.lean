import ZoneConsole.Api.Error
import ZoneConsole.Url.Edit
import ZoneConsole.Url.Parser

/-!
# Requests and answers

A `Request` is what a call sends, and a `Network` is what becomes of requests:
either nothing can be reached, or a script says what each request meets, one
reply after the other. An answer may name another place, and whatever carries
the requests may send the request on to it; a `Carrier` says when and how, since
that is not for the client to say. The `Course` of a request is all of that, up to
an answer that is not followed or to the reason why there is none.

A `Link` is a network together with the requests that were sent over it, so that
an exchange is a function from links to links.
-/

namespace ZoneConsole

/-- The methods of requests. -/
inductive Method
  | get | post | put | delete
  deriving DecidableEq, Repr

/-- The name of a method. -/
def Method.name : Method → String
  | get => "GET"
  | post => "POST"
  | put => "PUT"
  | delete => "DELETE"

/-- A request. Its body, if there is one, is a JSON text. -/
structure Request where
  method : Method
  url : Url
  body : Option String
  deriving DecidableEq, Repr

/-- The name under which requests are sent. -/
def userAgent : String := "qubes-air/0.1.0"

/-- What a request meets: an answer, which may break off and may name another place,
    nobody to connect to, a closed connection, or nothing until the time is over. -/
inductive Reply
  | answer (status : Nat) (body : List UInt8) (complete : Bool) (location : Option String := none)
  | refuse
  | drop
  | hang
  deriving DecidableEq, Repr

/-- Can a request be made for the URL? It has to be of one of the two schemes, and
    its host a name that a request can carry. -/
def Url.isRequestable (u : Url) : Bool :=
  (u.scheme = "http" || u.scheme = "https") &&
    match u.host with
    | some (.domain name) => !name.isEmpty && name.toList.all fun c =>
        !(['"', '\x60', '\x7b', '\x7d'].contains c)
    | some _ => true
    | none => false

/-- Does an answer of the status have no body, whatever follows? -/
def isBodiless (status : Nat) : Bool := status = 204 || status = 304

/-- Does the status say that the request was accepted? -/
def isSuccess (status : Nat) : Bool := 200 ≤ status && status ≤ 299

/-- Does the status say that the request belongs to another place? -/
def isMoved (status : Nat) : Bool := [301, 302, 303, 307, 308].contains status

/-- An answer: its status and its body as a text, unless the body broke off. -/
structure Response where
  status : Nat
  body : Option String
  deriving DecidableEq, Repr

/-- The answer that a reply makes. -/
def Response.ofReply (status : Nat) (body : List UInt8) (complete : Bool) : Response :=
  if isBodiless status then ⟨status, some ""⟩
  else ⟨status, if complete then some (String.ofList (Text.readUtf8 body)) else none⟩

namespace Request

/-- The request as it is sent: the user is taken out of its URL, and the fragment stays
    behind. -/
def sent (r : Request) : Request := { r with url := r.url.withoutUser.withoutFragment }

/-- The request that follows an answer to another place. After 307 and 308 it is the same
    request; after the others it asks for what is there. -/
def moved (r : Request) (status : Nat) (location : String) : Option Request :=
  match r.url.join location with
  | .error _ => none
  | .ok url =>
    if status = 307 ∨ status = 308 then some { r with url }
    else if isMoved status then some ⟨.get, url, none⟩
    else none

/-- A request does what another one does, if perhaps at another place, or it only asks for
    something. -/
def Echoes (next r : Request) : Prop :=
  (next.method = r.method ∧ next.body = r.body) ∨ next.method = .get

end Request

/-- What carries requests, as far as the client leaves it to that: how often a request is
    sent on at most, the request that follows an answer, if one does, and the URL that the
    error of a request names, given the request that was made first. -/
structure Carrier where
  limit : Nat
  follow : Request → Nat → String → Option Request
  blamed : TransportCause → Request → Request → Url
  moved_of_follow : ∀ r status location next, follow r status location = some next →
    isMoved status = true
  echoes_of_follow : ∀ r status location next, follow r status location = some next →
    next.Echoes r
  blamed_self : ∀ cause r, blamed cause r r = r.url

namespace Carrier

/-- The usual carrier: it sends a request on ten times at most, and blames the URL at which
    it has arrived. -/
def usual : Carrier where
  limit := 10
  follow := Request.moved
  blamed _ _ last := last.url
  moved_of_follow r status location next h := by
    unfold Request.moved at h
    split at h
    · cases h
    · split at h
      · rename_i hsame
        rcases hsame with rfl | rfl <;> rfl
      · split at h
        · assumption
        · cases h
  echoes_of_follow r status location next h := by
    unfold Request.moved at h
    split at h
    · cases h
    · split at h
      · obtain rfl := Option.some.inj h
        exact .inl ⟨rfl, rfl⟩
      · split at h
        · obtain rfl := Option.some.inj h
          exact .inr rfl
        · cases h
  blamed_self _ _ := rfl

end Carrier

/-- What becomes of requests: nothing can be reached, or each meets the next reply,
    and those after the last a closed connection. -/
inductive Network
  | down
  | script (replies : List Reply) (carrier : Carrier := .usual)

/-- The network whose next reply is the given one. -/
def Network.meeting (reply : Reply) : Network → Network
  | down => down
  | script replies carrier => script (reply :: replies) carrier

/-- What a request comes to: there is no answer for it, for some cause, or there is one. -/
inductive Fate
  | failed (cause : TransportCause) (url : Url)
  | answered (status : Nat) (body : List UInt8) (complete : Bool)
  deriving DecidableEq, Repr

/-- The answer that a fate is, or the error. -/
def Fate.response : Fate → Except ApiError Response
  | failed cause url => .error (.transport cause (some url.withoutUser))
  | answered status body complete => .ok (.ofReply status body complete)

/-- The course of a request: the requests that were sent for it, what it came to, and what
    it has left of the network. -/
structure Course where
  sent : List Request
  fate : Fate
  network : Network

/-- The request that follows a reply, if one does. -/
def Carrier.onward? (c : Carrier) (r : Request) : Reply → Option Request
  | .answer status _ _ location => location.bind (c.follow r status)
  | .refuse | .drop | .hang => none

/-- What a reply makes of a request that is not sent on, if the URL is known that is blamed for
    each cause. -/
def Reply.fate (blamed : TransportCause → Url) : Reply → Fate
  | answer status body complete _ => .answered status body complete
  | refuse => .failed .connect (blamed .connect)
  | drop => .failed .dropped (blamed .dropped)
  | hang => .failed .timeout (blamed .timeout)

/-- The course of a request that may be sent on some more times, over the replies that are
    left. Whom nobody lets connect has sent nothing. -/
def Carrier.course (c : Carrier) (first : Request) : Nat → Request → List Reply → Course
  | hops, r, replies =>
    let reply := replies.headD .drop
    let network : Network := .script replies.tail c
    let blamed cause := c.blamed cause first r
    if !r.url.isRequestable then ⟨[], .failed .builder (blamed .builder), .script replies c⟩
    else
      match c.onward? r reply with
      | none => ⟨if reply = .refuse then [] else [r], reply.fate blamed, network⟩
      | some next =>
        match hops with
        | 0 => ⟨[r], .failed .redirect (blamed .redirect), network⟩
        | hops + 1 =>
          let onward := course c first hops next replies.tail
          { onward with sent := r :: onward.sent }

namespace Request

/-- The error of a request that gets no answer. -/
def failure (r : Request) (cause : TransportCause) : ApiError :=
  .transport cause (some r.url.withoutUser)

/-- Why a request does not even set out, if it does not. -/
def obstacle? (r : Request) (network : Network) : Option TransportCause :=
  if !r.url.isRequestable then some .builder
  else
    match network with
    | .down => some .connect
    | .script _ _ => none

/-- The course of a request over a network. -/
def course (r : Request) : Network → Course
  | .down => ⟨[], .failed (if r.url.isRequestable then .connect else .builder) r.url, .down⟩
  | .script replies carrier => carrier.course r carrier.limit r replies

end Request

/-- A network and the requests that were sent over it. -/
structure Link where
  network : Network
  requests : List Request

/-- A link over which nothing has been sent. -/
def Link.ofNetwork (network : Network) : Link := ⟨network, []⟩

/-- Sends a request, and lists whatever is sent for it. -/
def Request.send (r : Request) (link : Link) : Except ApiError Response × Link :=
  let course := r.course link.network
  (course.fate.response, ⟨course.network, link.requests ++ course.sent.map Request.sent⟩)

end ZoneConsole
