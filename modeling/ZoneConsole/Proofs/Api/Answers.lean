import ZoneConsole.Proofs.Api.Course
import ZoneConsole.Proofs.Api.Endpoint
import ZoneConsole.Proofs.Url.Rooted

/-!
# What calls make of answers

Every call of the service is one request and the reading of what becomes of it.  What a call gives
is a function of the status and of the body: no answer is a transport error, any status that does
not accept is a rejection with that status, and of an accepting answer only a call that gives a
value looks at the body.  An answer that the request is sent on from is not seen by the call.

* **`Call`** — all calls, each with the type of what it gives, and what it expects of a body.
* **`Classified`** — what a call that expects something has to give for the fate of its request.
* **`Exchange.Expects.classified_run`** — so it does, however its request is carried.
* **`Exchange.SendsOnce`** — one request goes out, and unless it is sent on it meets one reply.
* **`Call.sendsOnce`** — so it is for every call that is resolved against a path of segments.
* **`ApiError.status?_eq_some`**, **`ApiError.isTransient_iff`** — what errors tell of answers.
* **`calls_classified`** — all of it, for the clients that can be made.
-/

namespace ZoneConsole

open Url

variable {α : Type}

/-! ### Exchanges -/

namespace Exchange

/-- What the request of an exchange meets on a link, if it can be made. -/
def met (e : Exchange α) (link : Link) : Except ApiError Response :=
  match e.request with
  | .error error => .error error
  | .ok request => (request.send link).1

/-- An exchange reads what becomes of its one request. -/
theorem run_fst (e : Exchange α) (link : Link) : (e.run link).1 = e.met link >>= e.read := by
  unfold run met
  cases e.request with
  | error error => rfl
  | ok request =>
      simp only
      generalize request.send link = sent
      obtain ⟨answer, link'⟩ := sent
      cases answer <;> rfl

/-- What an exchange leaves of a link is what its one request leaves of it. -/
theorem run_snd {e : Exchange α} {r : Request} (hr : e.request = .ok r) (link : Link) :
    (e.run link).2 = (r.send link).2 := by
  unfold run
  rw [hr]
  simp only
  generalize r.send link = sent
  obtain ⟨answer, link'⟩ := sent
  cases answer <;> rfl

/-- How an exchange reads answers: with a codec, or by their status only. -/
def Expects (e : Exchange α) : Option (Codec α) → Prop
  | some codec => e.read = Response.read codec
  | none => ∃ a, e.read = fun r => if isSuccess r.status then .ok a else .error r.rejection

end Exchange

/-- What has to be given for the body of an accepting answer: nothing can be read of one that
    broke off, and one that cannot be decoded is kept as a whole. -/
inductive BodyRead (codec : Codec α) : Option String → Except ApiError α → Prop
  | brokenOff : BodyRead codec none (.error (.transport .body none))
  | decoded {text : String} {a : α} (hdecode : Json.decode codec text = .ok a) :
      BodyRead codec (some text) (.ok a)
  | undecodable {text : String} {complaint : Complaint} (message : String)
      (hdecode : Json.decode codec text = .error complaint) :
      BodyRead codec (some text) (.error (.undecodable message text))

/-- **What a call has to give for the fate of its request**, if it expects values of a codec, or no
    value. -/
inductive Classified (expected : Option (Codec α)) : Fate → Except ApiError α → Prop
  | failed (cause : TransportCause) (url : Url) :
      Classified expected (.failed cause url) (.error (.transport cause (some url.withoutUser)))
  | rejected {status : Nat} (body : List UInt8) (complete : Bool) (code message : String)
      (details : Option (List (String × String))) (hstatus : isSuccess status = false) :
      Classified expected (.answered status body complete)
        (.error (.rejected status code message details))
  | accepted {status : Nat} (body : List UInt8) (complete : Bool) (a : α)
      (hstatus : isSuccess status = true) (hexpected : expected = none) :
      Classified expected (.answered status body complete) (.ok a)
  | read {codec : Codec α} {status : Nat} {body : List UInt8} {complete : Bool}
      {result : Except ApiError α} (hstatus : isSuccess status = true)
      (hexpected : expected = some codec)
      (hbody : BodyRead codec (Response.ofReply status body complete).body result) :
      Classified expected (.answered status body complete) result

/-- An answer has the status of its reply, be there a body or not. -/
theorem Response.status_ofReply (status : Nat) (body : List UInt8) (complete : Bool) :
    (Response.ofReply status body complete).status = status := by
  unfold Response.ofReply
  split <;> rfl

/-- An accepting answer is read as its body says. -/
theorem Response.bodyRead (codec : Codec α) {r : Response} (hstatus : isSuccess r.status = true) :
    BodyRead codec r.body (r.read codec) := by
  rw [Response.read, if_pos hstatus]
  cases r.body with
  | none => exact .brokenOff
  | some text =>
      simp only
      cases hdecode : Json.decode codec text with
      | ok a => exact .decoded hdecode
      | error complaint => exact .undecodable _ hdecode

/-- An error of a body of a rejection carries the status it came with. -/
theorem ApiError.exists_ofBody (status : Nat) (body : String) :
    ∃ code message details, ApiError.ofBody status body = .rejected status code message details :=
  ⟨_, _, _, rfl⟩

namespace Exchange

/-- An answer that rejects is read as its rejection, whatever the exchange expects. -/
theorem Expects.read_of_rejecting {e : Exchange α} {expected : Option (Codec α)}
    (he : e.Expects expected) {r : Response} (hstatus : isSuccess r.status = false) :
    e.read r = .error r.rejection := by
  cases expected with
  | none =>
      obtain ⟨a, ha⟩ := he
      simp [ha, hstatus]
  | some codec => rw [he, Response.read, if_neg (by simp [hstatus])]

/-- **What an exchange makes of a fate** is classified, whatever the status and the body. -/
theorem Expects.classified {e : Exchange α} {expected : Option (Codec α)} (he : e.Expects expected)
    (fate : Fate) : Classified expected fate (fate.response >>= e.read) := by
  cases fate with
  | failed cause url => exact .failed cause url
  | answered status body complete =>
      show Classified expected _ (e.read (.ofReply status body complete))
      have hsame := Response.status_ofReply status body complete
      cases hstatus : isSuccess status with
      | false =>
          have hread := he.read_of_rejecting (hsame.symm ▸ hstatus)
          obtain ⟨code, message, details, herror⟩ := ApiError.exists_ofBody status
            ((Response.ofReply status body complete).body.getD "")
          rw [hread, Response.rejection, hsame, herror]
          exact .rejected body complete code message details hstatus
      | true =>
          cases expected with
          | none =>
              obtain ⟨a, ha⟩ := he
              simp only [ha, hsame, hstatus, if_true]
              exact .accepted body complete a hstatus rfl
          | some codec =>
              rw [he]
              exact .read hstatus rfl (Response.bodyRead codec (hsame.symm ▸ hstatus))

/-- **However a request is carried**, the exchange classifies what became of it, and leaves what
    the request leaves. -/
theorem Expects.classified_run {e : Exchange α} {expected : Option (Codec α)}
    (he : e.Expects expected) {r : Request} (hr : e.request = .ok r) (link : Link) :
    ∃ result, Classified expected (r.course link.network).fate result ∧
      e.run link = (result, (r.send link).2) := by
  refine ⟨_, he.classified (r.course link.network).fate, Prod.ext ?_ (run_snd hr link)⟩
  rw [run_fst, met, hr]
  rfl

/-- One request goes out.  If something keeps it from setting out, that is the error; otherwise it
    meets the next reply of the network, and unless it is sent on from there, the reply is
    classified and nothing else is sent or used up. -/
structure SendsOnce (e : Exchange α) (expected : Option (Codec α)) (r : Request) : Prop where
  request : e.request = .ok r
  unanswered : ∀ link cause, r.obstacle? link.network = some cause →
    (e.run link).1 = .error (.transport cause (some r.url.withoutUser)) ∧
      (e.run link).2.network = link.network ∧ (e.run link).2.requests = link.requests
  answered : ∀ replies carrier listed, r.obstacle? (.script replies carrier) = none →
    carrier.onward? r (replies.headD .drop) = none →
    ∃ result, Classified expected ((replies.headD .drop).fate fun _ => r.url) result ∧
      e.run ⟨.script replies carrier, listed⟩ = (result, ⟨.script replies.tail carrier,
        listed ++ if replies.headD .drop = .refuse then [] else [r.sent]⟩)

/-- **An exchange with a request** sends it once. -/
theorem Expects.sendsOnce {e : Exchange α} {expected : Option (Codec α)} (he : e.Expects expected)
    {r : Request} (hr : e.request = .ok r) : e.SendsOnce expected r := by
  refine ⟨hr, fun link cause hcause => ?_, fun replies carrier listed hnone hsettled => ?_⟩
  · obtain ⟨result, hresult, hrun⟩ := he.classified_run hr link
    have hcourse := Request.course_of_obstacle hcause
    rw [hcourse] at hresult
    cases hresult
    rw [hrun, Request.send, hcourse]
    exact ⟨rfl, rfl, List.append_nil _⟩
  · obtain ⟨result, hresult, hrun⟩ := he.classified_run hr ⟨.script replies carrier, listed⟩
    have hcourse := Request.course_of_settled hnone hsettled
    rw [hcourse] at hresult
    refine ⟨result, hresult, ?_⟩
    rw [hrun, Request.send, hcourse]
    split <;> rfl

/-- An exchange whose request cannot be made ends in that error, and nothing is sent. -/
theorem run_of_error {e : Exchange α} {error : ApiError} (he : e.request = .error error)
    (link : Link) : e.run link = (.error error, link) := by
  rw [run, he]

end Exchange

/-! ### Calls -/

/-- The calls on a collection, each with the type of what it gives. -/
inductive CollectionCall (E : Type) [Resource E] : Type → Type
  | list (options : ListOptions) : CollectionCall E (Resource.Page E)
  | get (id : String) : CollectionCall E E
  | create (draft : Resource.Draft E) : CollectionCall E E
  | update (id : String) (patch : Resource.Patch E) : CollectionCall E E
  | delete (id : String) : CollectionCall E Unit
  | transition (id action : String) : CollectionCall E E

namespace CollectionCall

variable {E : Type} [Resource E]

/-- The exchange of a call. -/
def exchange (c : Client) : CollectionCall E α → Exchange α
  | list options => c.list E options
  | get id => c.get E id
  | create draft => c.create E draft
  | update id patch => c.update E id patch
  | delete id => c.delete E id
  | transition id action => c.transition E id action

/-- What a call expects of the body of an accepting answer.  A deletion expects nothing. -/
def expected : CollectionCall E α → Option (Codec α)
  | list _ => some Resource.pageCodec
  | get _ | create _ | update _ _ | transition _ _ => some Resource.codec
  | delete _ => none

theorem expects (c : Client) (call : CollectionCall E α) :
    (call.exchange c).Expects call.expected := by
  cases call with
  | delete id => exact ⟨(), rfl⟩
  | list _ | get _ | create _ | update _ _ | transition _ _ => rfl

/-- A call is sent to an endpoint of its collection, with a query if it is a list. -/
theorem exists_endpoint (c : Client) (call : CollectionCall E α) :
    ∃ method rest pairs body, (call.exchange c).request =
      (c.endpoint (Resource.collection E :: rest)).map fun url =>
        ⟨method, url.appendPairs pairs, body⟩ := by
  cases call with
  | list options =>
      refine ⟨.get, [], options.pairs, none, ?_⟩
      show ((c.endpoint _).map _).map _ = _
      cases c.endpoint [Resource.collection E] <;> rfl
  | get id => exact ⟨.get, [id], [], none, rfl⟩
  | create draft => exact ⟨.post, [], [], _, rfl⟩
  | update id patch => exact ⟨.put, [id], [], _, rfl⟩
  | delete id => exact ⟨.delete, [id], [], none, rfl⟩
  | transition id action => exact ⟨.post, [id, action], [], none, rfl⟩

end CollectionCall

/-- All calls of the service, each with the type of what it gives. -/
inductive Call : Type → Type 1
  | zones {α : Type} (call : CollectionCall Zone α) : Call α
  | qubes {α : Type} (call : CollectionCall Qube α) : Call α
  | health : Call Health
  | status : Call ServerStatus

namespace Call

/-- The exchange of a call. -/
def exchange (c : Client) : Call α → Exchange α
  | zones call => call.exchange c
  | qubes call => call.exchange c
  | health => c.health
  | status => c.status

/-- What a call expects of the body of an accepting answer. -/
def expected : Call α → Option (Codec α)
  | zones call => call.expected
  | qubes call => call.expected
  | health => some Health.codec
  | status => some ServerStatus.codec

/-- Is the call the probe of the health of the server? -/
def isHealth : Call α → Bool
  | health => true
  | zones _ | qubes _ | status => false

/-- What the URL of a call is resolved against: the origin for the probe of health, and the base
    for all other calls. -/
def root (c : Client) (call : Call α) : Url := if call.isHealth then c.origin else c.base

theorem expects (c : Client) (call : Call α) : (call.exchange c).Expects call.expected := by
  cases call with
  | zones call => exact call.expects c
  | qubes call => exact call.expects c
  | health | status => rfl

end Call

/-! ### Where the requests go -/

namespace Url

/-- The URL names the scheme and the host of another one. -/
def SharesHost (u v : Url) : Prop := u.scheme = v.scheme ∧ u.host = v.host

/-- Appended pairs leave the host as it is. -/
theorem sharesHost_appendPairs (u : Url) (pairs : List (String × String)) :
    (u.appendPairs pairs).SharesHost u := by
  unfold appendPairs
  split
  · exact ⟨rfl, rfl⟩
  · exact ⟨rfl, rfl⟩

/-- The path of the health of a server can be resolved against a path of segments. -/
theorem exists_join_health {u : Url} (hu : u.HasSegments) :
    ∃ v, u.join "/health" = .ok v ∧ (u.scheme ≠ "file" → v.SharesHost u) := by
  by_cases hdrive : u.OnDrive
  · obtain ⟨drive, v, -, hjoin, -⟩ := join_health_onDrive hdrive
    exact ⟨v, hjoin, fun hfile => absurd hdrive.1 hfile⟩
  · exact ⟨_, join_health hu hdrive, fun _ => ⟨rfl, rfl⟩⟩

/-- Against an opaque path it cannot. -/
theorem join_health_opaque {u : Url} (hu : ¬ u.HasSegments) :
    u.join "/health" = .error .relativeToOpaque := by
  obtain ⟨scheme, user, password, host, port, path, query, fragment⟩ := u
  cases path with
  | segments list => exact absurd ⟨list, rfl⟩ hu
  | opaqueText text => rfl

end Url

/-- A request to an endpoint below a path of segments can be made, and goes to the host of the
    base. -/
theorem Client.exists_request {c : Client} (hbase : c.base.HasSegments) (method : Method)
    (segments : List String) (pairs : List (String × String)) (body : Option String) :
    ∃ r : Request, ((c.endpoint segments).map fun url =>
      (⟨method, url.appendPairs pairs, body⟩ : Request)) = .ok r ∧ r.url.SharesHost c.base := by
  obtain ⟨list, hlist⟩ := hbase
  rw [endpoint, push?, hlist]
  exact ⟨_, rfl, Url.sharesHost_appendPairs _ pairs⟩

/-- A request can be made to a host to which one can be made. -/
theorem Url.SharesHost.isRequestable {u root : Url} (h : u.SharesHost root)
    (hroot : root.isRequestable = true) : u.isRequestable = true := by
  rw [Url.isRequestable, h.1, h.2]
  exact hroot

/-- A URL to which a request can be made is not that of a file. -/
theorem Url.ne_file_of_isRequestable {u : Url} (h : u.isRequestable = true) :
    u.scheme ≠ "file" := by
  intro hfile
  rw [Url.isRequestable, hfile] at h
  cases h

theorem CollectionCall.exists_request {E : Type} [Resource E] {c : Client}
    (call : CollectionCall E α) (hbase : c.base.HasSegments) :
    ∃ r, (call.exchange c).request = .ok r ∧ r.url.SharesHost c.base := by
  obtain ⟨method, rest, pairs, body, hrequest⟩ := call.exists_endpoint c
  rw [hrequest]
  exact Client.exists_request hbase method _ pairs body

namespace Call

/-- The request of a call that is resolved against a path of segments. -/
theorem exists_request {c : Client} (call : Call α) (hroot : (call.root c).HasSegments) :
    ∃ r, (call.exchange c).request = .ok r ∧
      ((call.root c).scheme ≠ "file" → r.url.SharesHost (call.root c)) := by
  cases call with
  | zones call =>
      obtain ⟨r, hr, hhost⟩ := call.exists_request hroot
      exact ⟨r, hr, fun _ => hhost⟩
  | qubes call =>
      obtain ⟨r, hr, hhost⟩ := call.exists_request hroot
      exact ⟨r, hr, fun _ => hhost⟩
  | status =>
      obtain ⟨r, hr, hhost⟩ := Client.exists_request hroot .get ["status"] [] none
      exact ⟨r, hr, fun _ => hhost⟩
  | health =>
      obtain ⟨url, hurl, hhost⟩ := Url.exists_join_health hroot
      have hendpoint : c.rootEndpoint "/health" = .ok url := by
        rw [Client.rootEndpoint, show c.origin.join "/health" = .ok url from hurl]
      exact ⟨⟨.get, url, none⟩, congrArg (Except.map _) hendpoint, hhost⟩

/-- **A call that is resolved against a path of segments** sends one request, which sets out if one
    can be made to the root of the call and there is something to reach. -/
theorem sendsOnce {c : Client} (call : Call α) (hroot : (call.root c).HasSegments) :
    ∃ r, (call.exchange c).SendsOnce call.expected r ∧
      ((call.root c).isRequestable = true →
        ∀ replies carrier, r.obstacle? (.script replies carrier) = none) := by
  obtain ⟨r, hr, hhost⟩ := call.exists_request hroot
  refine ⟨r, (call.expects c).sendsOnce hr, fun hreq => ?_⟩
  have hfile := Url.ne_file_of_isRequestable hreq
  exact Request.obstacle?_script ((hhost hfile).isRequestable hreq)

/-- The probe of health ends before there is a request if its origin has an opaque path. -/
theorem run_health_opaque {c : Client} (horigin : ¬ c.origin.HasSegments) (link : Link) :
    (health.exchange c).run link = (.error (.invalidUrl .relativeToOpaque), link) := by
  refine Exchange.run_of_error ?_ link
  have hendpoint : c.rootEndpoint "/health" = .error (.invalidUrl .relativeToOpaque) := by
    rw [Client.rootEndpoint, Url.join_health_opaque horigin]
  exact congrArg (Except.map _) hendpoint

end Call

/-! ### What errors tell -/

namespace ApiError

/-- **An error has a status exactly if a server rejected the request**, and it is the status
    of the answer. -/
theorem status?_eq_some (e : ApiError) (status : Nat) : e.status? = some status ↔
    ∃ code message details, e = .rejected status code message details := by
  constructor
  · intro h
    cases e with
    | rejected status' code message details =>
        cases h
        exact ⟨code, message, details, rfl⟩
    | transport _ _ | invalidUrl _ | undecodable _ _ => cases h
  · rintro ⟨code, message, details, rfl⟩
    rfl

/-- **An error is transient exactly if** no connection was made, or the time was over, or a
    gateway answered for the server. -/
theorem isTransient_iff (e : ApiError) : e.isTransient = true ↔
    (∃ url, e = .transport .connect url) ∨ (∃ url, e = .transport .timeout url) ∨
      ∃ status, e.status? = some status ∧ 502 ≤ status ∧ status ≤ 504 := by
  cases e with
  | transport cause url => simp [isTransient, status?]
  | rejected status code message details => simp [isTransient, status?]
  | invalidUrl _ | undecodable _ _ => simp [isTransient, status?]

end ApiError

/-- **What calls make of answers**, for every client whose base is read as an http URL.  A call
    other than the probe of health is always resolved against a path of segments.  A call that
    is sends one request and classifies what it meets, unless the request is sent on from there; a
    probe of health whose origin has an opaque path, such as `mailto:x`, ends before there is a
    request. -/
theorem calls_classified {origin setting : String} {c : Client}
    (hc : Client.make origin setting = .ok c) (hs : c.base.scheme = "http") (call : Call α) :
    (call.isHealth = false → (call.root c).HasSegments) ∧
    ((call.root c).HasSegments → ∃ r, (call.exchange c).SendsOnce call.expected r ∧
      ((call.root c).isRequestable = true →
        ∀ replies carrier, r.obstacle? (.script replies carrier) = none)) ∧
    (¬ (call.root c).HasSegments → ∀ link,
      (call.exchange c).run link = (.error (.invalidUrl .relativeToOpaque), link)) ∧
    ∀ e : ApiError,
      (∀ status, e.status? = some status ↔
        ∃ code message details, e = .rejected status code message details) ∧
      (e.isTransient = true ↔
        (∃ url, e = .transport .connect url) ∨ (∃ url, e = .transport .timeout url) ∨
          ∃ status, e.status? = some status ∧ 502 ≤ status ∧ status ≤ 504) := by
  -- an http URL has a path of segments, so only the probe of health may have no request
  have hbase : c.base.HasSegments := by
    obtain ⟨dir, hb⟩ := Client.base_of_make hc (by rw [hs]; rfl)
    exact ⟨_, hb.path⟩
  have hroot : call.isHealth = false → (call.root c).HasSegments := by
    intro hhealth
    rw [Call.root, hhealth]
    exact hbase
  refine ⟨hroot, call.sendsOnce, fun hopaque => ?_, fun e =>
    ⟨e.status?_eq_some, e.isTransient_iff⟩⟩
  cases call with
  | health => exact Call.run_health_opaque hopaque
  | zones _ | qubes _ | status => exact absurd (hroot rfl) hopaque

open EntityCall in
/-- A refusal whose body breaks off, and is no text either, ends a deletion with its status. -/
theorem calls_classified_brokenOff :
    Client.make "http://console.lan:8080" "" = .ok consoleLan ∧
    consoleLan.base.scheme = "http" ∧
    ∃ code message details, (((Call.zones (.delete "z1")).exchange consoleLan).run
      (.ofNetwork (.script [.answer 500 [0xFF] false]))).1 =
        .error (.rejected 500 code message details) := by
  obtain ⟨hroot, hsends, -⟩ := calls_classified make_consoleLan rfl (.zones (.delete "z1"))
  obtain ⟨r, hr, hreach⟩ := hsends (hroot rfl)
  obtain ⟨result, hresult, hrun⟩ := hr.answered [.answer 500 [0xFF] false] .usual []
    (hreach (by decide) _ _) rfl
  refine ⟨make_consoleLan, rfl, ?_⟩
  rw [Link.ofNetwork, hrun]
  cases hresult with
  | rejected body complete code message details hstatus => exact ⟨code, message, details, rfl⟩
  | accepted body complete a hstatus hexpected => exact absurd hstatus (by decide)
  | read hstatus hexpected hbody => cases hexpected

/-- A client of the same console whose origin is an address of mail. -/
def mailClient : Client where
  origin := ⟨"mailto", "", none, none, none, .opaqueText "x", none, none⟩
  base := EntityCall.consoleLan.base

/-- The next answer names another place to which the same request belongs, where it is accepted. -/
def elsewhere : Network := .script [.answer 307 [] true (some "/elsewhere"), .answer 204 [] true]

/-- The base of such a client is an http URL, but a probe of health gets nowhere: there is no
    request, and what comes back is not the error of a request without an answer.  And a deletion
    that is sent on is sent twice, and ends well although the answer to it did not accept it. -/
theorem health_unsent_deletion_repeated :
    Client.make "mailto:x" "http://console.lan:8080/api/v1" = .ok mailClient ∧
    mailClient.base.scheme = "http" ∧
    (Call.health.exchange mailClient).run (.ofNetwork (.script [.drop])) =
      (.error (.invalidUrl .relativeToOpaque), .ofNetwork (.script [.drop])) ∧
    (∀ url, ¬ Classified Call.health.expected (.failed .dropped url)
      ((Call.health.exchange mailClient).run (.ofNetwork (.script [.drop]))).1) ∧
    (((Call.zones (.delete "z1")).exchange mailClient).run (.ofNetwork elsewhere)).1 = .ok () ∧
    ((((Call.zones (.delete "z1")).exchange mailClient).run
      (.ofNetwork elsewhere)).2.requests.map (·.method)) = [.delete, .delete] := by
  refine ⟨eq_ok_of_toOption (by decide +kernel), rfl, rfl, fun url h => ?_,
    eq_ok_of_toOption (by decide +kernel), by decide +kernel⟩
  cases h

end ZoneConsole
