import ZoneConsole.Api.Network

/-!
# What becomes of requests

A request that is not sent on meets one reply, and what that is becomes of it.  One that is sent on
takes a reply each time, and what is sent after it asks for something or does what it did: a
request that asks for something is never followed by one that changes something.

* **`Carrier.onward?_of_unmoved`** — what is not sent on, whatever carries it.
* **`Request.course_of_obstacle`**, **`Request.course_of_settled`** — the course of a request that
  does not set out, and of one that is not sent on.
* **`Request.sent_course`** — what is sent for a request is the request, and then others that echo
  it.
* **`Link.after`**, **`Link.wire`**, **`Link.hops`** — requests over a link, one after the other:
  what they leave, all that is sent for them, and what is sent beside them.
* **`Link.requests_after`** — a link lists all that is sent over it.
* **`Link.echoes_of_wire`**, **`Link.filter_wire`**, **`Link.exists_of_hop`** — how what is sent
  depends on what was made.
-/

namespace ZoneConsole

/-! ### The course of a request -/

namespace Request

/-- A request does what it does. -/
theorem echoes_self (r : Request) : r.Echoes r := .inl ⟨rfl, rfl⟩

theorem Echoes.trans {last next r : Request} (h : last.Echoes next) (h' : next.Echoes r) :
    last.Echoes r := by
  rcases h with ⟨hmethod, hbody⟩ | hget
  · rcases h' with ⟨hmethod', hbody'⟩ | hget
    · exact .inl ⟨hmethod.trans hmethod', hbody.trans hbody'⟩
    · exact .inr (hmethod.trans hget)
  · exact .inr hget

/-- What echoes a request and changes something has the method and the body of the request. -/
theorem Echoes.same {next r : Request} (h : next.Echoes r) (hchanges : next.method ≠ .get) :
    next.method = r.method ∧ next.body = r.body := h.resolve_right hchanges

/-- What echoes a request that asks for something asks for something. -/
theorem Echoes.get {next r : Request} (h : next.Echoes r) (hget : r.method = .get) :
    next.method = .get := by
  rcases h with ⟨hmethod, -⟩ | hget'
  · exact hmethod.trans hget
  · exact hget'

end Request

namespace Carrier

/-- Only an answer that belongs to another place and names it is sent on. -/
theorem onward?_of_unmoved (c : Carrier) (r : Request) {status : Nat} {location : Option String}
    (h : location = none ∨ isMoved status = false) (body : List UInt8) (complete : Bool) :
    c.onward? r (.answer status body complete location) = none := by
  cases location with
  | none => rfl
  | some place =>
      refine Option.eq_none_iff_forall_ne_some.2 fun next hnext => ?_
      have hmoved := c.moved_of_follow r status place next hnext
      rcases h with h | h
      · cases h
      · cases hmoved.symm.trans h

/-- What follows a request echoes it. -/
theorem echoes_of_onward? {c : Carrier} {r next : Request} {reply : Reply}
    (h : c.onward? r reply = some next) : next.Echoes r := by
  cases reply with
  | refuse | drop | hang => cases h
  | answer status body complete location =>
      obtain ⟨place, -, hfollow⟩ := Option.bind_eq_some_iff.1 h
      exact c.echoes_of_follow r status place next hfollow

section

variable {c : Carrier} {first r : Request} {replies : List Reply}

/-- A request that cannot be made. -/
theorem course_of_unmade (hr : r.url.isRequestable = false) (hops : Nat) :
    c.course first hops r replies =
      ⟨[], .failed .builder (c.blamed .builder first r), .script replies c⟩ := by
  rw [course, hr]
  rfl

/-- A request that sets out and is not sent on. -/
theorem course_of_settled (hr : r.url.isRequestable = true)
    (h : c.onward? r (replies.headD .drop) = none) (hops : Nat) :
    c.course first hops r replies =
      ⟨if replies.headD .drop = .refuse then [] else [r],
        (replies.headD .drop).fate fun cause => c.blamed cause first r,
        .script replies.tail c⟩ := by
  rw [course, hr, h]
  rfl

/-- A request that would be sent on once too often. -/
theorem course_of_limit (hr : r.url.isRequestable = true) {next : Request}
    (h : c.onward? r (replies.headD .drop) = some next) :
    c.course first 0 r replies =
      ⟨[r], .failed .redirect (c.blamed .redirect first r), .script replies.tail c⟩ := by
  rw [course, hr, h]
  rfl

/-- A request that is sent on. -/
theorem course_of_onward (hr : r.url.isRequestable = true) {next : Request}
    (h : c.onward? r (replies.headD .drop) = some next) (hops : Nat) :
    c.course first (hops + 1) r replies =
      { c.course first hops next replies.tail with
        sent := r :: (c.course first hops next replies.tail).sent } := by
  rw [course, hr, h]
  rfl

/-- What is sent for a request that is not sent on. -/
theorem sent_of_settled (hr : r.url.isRequestable = true)
    (h : c.onward? r (replies.headD .drop) = none) (hops : Nat) :
    (c.course first hops r replies).sent = [] ∨
      ∃ onward, (c.course first hops r replies).sent = r :: onward ∧
        ∀ next ∈ onward, next.Echoes r := by
  rw [course_of_settled hr h]
  by_cases hrefused : replies.headD .drop = .refuse
  · exact .inl (if_pos hrefused)
  · exact .inr ⟨[], if_neg hrefused, fun _ h => absurd h List.not_mem_nil⟩

end

/-- **What is sent for a request**, however often it is sent on: nothing, or the request and then
    others that echo it. -/
theorem sent_course (c : Carrier) (first : Request) (hops : Nat) (r : Request)
    (replies : List Reply) :
    (c.course first hops r replies).sent = [] ∨
      ∃ onward, (c.course first hops r replies).sent = r :: onward ∧
        ∀ next ∈ onward, next.Echoes r := by
  -- the induction is on how often the request may still be sent on
  induction hops generalizing r replies with
  | zero =>
      cases hr : r.url.isRequestable with
      | false => exact .inl (congrArg Course.sent (course_of_unmade hr 0))
      | true =>
          cases honward : c.onward? r (replies.headD .drop) with
          | some next =>
              exact .inr ⟨[], congrArg Course.sent (course_of_limit hr honward),
                fun _ h => absurd h List.not_mem_nil⟩
          | none => exact sent_of_settled hr honward 0
  | succ hops ih =>
      cases hr : r.url.isRequestable with
      | false => exact .inl (congrArg Course.sent (course_of_unmade hr _))
      | true =>
          cases honward : c.onward? r (replies.headD .drop) with
          | none => exact sent_of_settled hr honward _
          | some next =>
              have hechoes := echoes_of_onward? honward
              refine .inr ⟨_, congrArg Course.sent (course_of_onward hr honward hops), ?_⟩
              intro later hlater
              rcases ih next replies.tail with hnone | ⟨onward, hsent, hall⟩
              · rw [hnone] at hlater
                cases hlater
              · rw [hsent] at hlater
                rcases List.mem_cons.1 hlater with rfl | hlater
                · exact hechoes
                · exact (hall later hlater).trans hechoes

/-- Whoever answers has been sent the request. -/
theorem sent_of_answered {c : Carrier} {first r : Request} {hops : Nat} {replies : List Reply}
    {status : Nat} {body : List UInt8} {complete : Bool}
    (h : (c.course first hops r replies).fate = .answered status body complete) :
    r ∈ (c.course first hops r replies).sent := by
  cases hr : r.url.isRequestable with
  | false =>
      rw [course_of_unmade hr] at h
      cases h
  | true =>
      cases honward : c.onward? r (replies.headD .drop) with
      | some next =>
          cases hops with
          | zero =>
              rw [course_of_limit hr honward] at h
              cases h
          | succ hops =>
              rw [course_of_onward hr honward]
              exact List.mem_cons_self
      | none =>
          rw [course_of_settled hr honward] at h ⊢
          -- nobody who refuses to connect answers
          have hreply : replies.headD .drop ≠ .refuse := by
            intro hrefused
            rw [hrefused] at h
            cases h
          rw [if_neg hreply]
          exact List.mem_singleton_self r

end Carrier

namespace Request

/-- **A request that does not set out** sends nothing and leaves the network as it is. -/
theorem course_of_obstacle {r : Request} {network : Network} {cause : TransportCause}
    (h : r.obstacle? network = some cause) :
    r.course network = ⟨[], .failed cause r.url, network⟩ := by
  unfold obstacle? at h
  cases hr : r.url.isRequestable with
  | true =>
      rw [hr] at h
      cases network with
      | script replies carrier => cases h
      | down =>
          obtain rfl := Option.some.inj h
          rw [course, hr]
          rfl
  | false =>
      rw [hr] at h
      obtain rfl := Option.some.inj h
      cases network with
      | down =>
          rw [course, hr]
          rfl
      | script replies carrier =>
          rw [course, Carrier.course_of_unmade hr, carrier.blamed_self]

/-- A request sets out if there is something to reach and it can be made. -/
theorem obstacle?_script {r : Request} (hr : r.url.isRequestable = true) (replies : List Reply)
    (carrier : Carrier) : r.obstacle? (.script replies carrier) = none := by
  rw [obstacle?, hr]
  rfl

theorem isRequestable_of_obstacle? {r : Request} {network : Network}
    (h : r.obstacle? network = none) : r.url.isRequestable = true := by
  unfold obstacle? at h
  cases hr : r.url.isRequestable with
  | true => rfl
  | false =>
      rw [hr] at h
      cases h

/-- **A request that sets out and is not sent on** meets one reply, and the rest is left. -/
theorem course_of_settled {r : Request} {replies : List Reply} {carrier : Carrier}
    (h : r.obstacle? (.script replies carrier) = none)
    (hsettled : carrier.onward? r (replies.headD .drop) = none) :
    r.course (.script replies carrier) =
      ⟨if replies.headD .drop = .refuse then [] else [r],
        (replies.headD .drop).fate fun _ => r.url, .script replies.tail carrier⟩ := by
  have hblamed : (fun cause => carrier.blamed cause r r) = fun _ => r.url :=
    funext fun cause => carrier.blamed_self cause r
  rw [course, Carrier.course_of_settled (isRequestable_of_obstacle? h) hsettled, hblamed]

/-- **What is sent for a request** over a network. -/
theorem sent_course (r : Request) (network : Network) :
    (r.course network).sent = [] ∨ ∃ onward, (r.course network).sent = r :: onward ∧
      ∀ next ∈ onward, next.Echoes r := by
  cases network with
  | down => exact .inl rfl
  | script replies carrier => exact carrier.sent_course r carrier.limit r replies

/-- Whoever answers has been sent the request. -/
theorem sent_of_answered {r : Request} {network : Network} {status : Nat} {body : List UInt8}
    {complete : Bool} (h : (r.course network).fate = .answered status body complete) :
    r ∈ (r.course network).sent := by
  cases network with
  | down =>
      rw [course] at h
      cases h
  | script replies carrier => exact Carrier.sent_of_answered h

end Request

/-! ### Requests one after the other -/

namespace Link

/-- The link after requests have been made over it, one after the other. -/
def after (link : Link) (made : List Request) : Link :=
  made.foldl (fun link r => (r.send link).2) link

@[simp] theorem after_nil (link : Link) : link.after [] = link := rfl

theorem after_append (link : Link) (first rest : List Request) :
    link.after (first ++ rest) = (link.after first).after rest := List.foldl_append

/-- All that is sent for requests that are made over a link, one after the other. -/
def wire (link : Link) : List Request → List Request
  | [] => []
  | r :: rest => (r.course link.network).sent ++ wire (r.send link).2 rest

/-- What is sent beside the requests themselves. -/
def hops (link : Link) : List Request → List Request
  | [] => []
  | r :: rest => (r.course link.network).sent.tail ++ hops (r.send link).2 rest

@[simp] theorem wire_nil (link : Link) : link.wire [] = [] := rfl

@[simp] theorem hops_nil (link : Link) : link.hops [] = [] := rfl

/-- **A link lists all that is sent over it.** -/
theorem requests_after (link : Link) (made : List Request) :
    (link.after made).requests = link.requests ++ (link.wire made).map Request.sent := by
  induction made generalizing link with
  | nil => exact (List.append_nil _).symm
  | cons r rest ih =>
      show ((r.send link).2.after rest).requests = _
      rw [ih, wire, List.map_append, ← List.append_assoc]
      rfl

/-- **Whatever is sent** echoes a request that was made. -/
theorem echoes_of_wire {link : Link} {made : List Request} {r : Request}
    (h : r ∈ link.wire made) : ∃ first ∈ made, r.Echoes first := by
  induction made generalizing link with
  | nil => cases h
  | cons first rest ih =>
      rcases List.mem_append.1 h with hhere | hlater
      · refine ⟨first, List.mem_cons_self, ?_⟩
        rcases first.sent_course link.network with hnone | ⟨onward, hsent, hall⟩
        · rw [hnone] at hhere
          cases hhere
        · rw [hsent] at hhere
          rcases List.mem_cons.1 hhere with rfl | hhere
          · exact r.echoes_self
          · exact hall r hhere
      · obtain ⟨later, hmem, hechoes⟩ := ih hlater
        exact ⟨later, List.mem_cons_of_mem _ hmem, hechoes⟩

/-- **What is sent and is not sent beside the requests** is some of them, in their order; so it is
    for those that a test tells from all that is sent beside them. -/
theorem filter_wire {link : Link} {made : List Request} {p : Request → Bool}
    (h : ∀ hop ∈ link.hops made, p hop = false) :
    ((link.wire made).filter p).Sublist (made.filter p) := by
  induction made generalizing link with
  | nil => exact List.Sublist.refl _
  | cons r rest ih =>
      have hrest : (((r.send link).2.wire rest).filter p).Sublist (rest.filter p) :=
        ih fun hop hhop => h hop (List.mem_append_right _ hhop)
      have hone : ((r.course link.network).sent.filter p).Sublist ([r].filter p) := by
        rcases r.sent_course link.network with hnone | ⟨onward, hsent, -⟩
        · rw [hnone]
          exact List.nil_sublist _
        · have hbeside : onward.filter p = [] := by
            refine List.filter_eq_nil_iff.2 fun hop hhop => ?_
            rw [h hop (List.mem_append_left _ (by rw [hsent]; exact hhop))]
            exact Bool.false_ne_true
          have halone : (r.course link.network).sent.filter p = [r].filter p := by
            rw [hsent, show r :: onward = [r] ++ onward from rfl, List.filter_append, hbeside,
              List.append_nil]
          exact halone ▸ List.Sublist.refl _
      rw [wire, show r :: rest = [r] ++ rest from rfl, List.filter_append, List.filter_append]
      exact hone.append hrest

/-- If nothing is sent beside the requests, some of them are all that is sent. -/
theorem wire_sublist {link : Link} {made : List Request} (h : link.hops made = []) :
    (link.wire made).Sublist made := by
  have hall (rs : List Request) : rs.filter (fun _ => true) = rs :=
    List.filter_eq_self.2 fun _ _ => rfl
  have hfilter : ((link.wire made).filter fun _ => true).Sublist (made.filter fun _ => true) :=
    filter_wire (by simp [h])
  rwa [hall, hall] at hfilter

/-- **What is sent beside the requests** follows one that was sent, and echoes it. -/
theorem exists_of_hop {link : Link} {made : List Request} {hop : Request}
    (h : hop ∈ link.hops made) : ∃ before r onward after,
      link.wire made = before ++ r :: onward ++ after ∧ hop ∈ onward ∧ hop.Echoes r := by
  induction made generalizing link with
  | nil => cases h
  | cons r rest ih =>
      rcases List.mem_append.1 h with hhere | hlater
      · rcases r.sent_course link.network with hnone | ⟨onward, hsent, hall⟩
        · rw [hnone] at hhere
          cases hhere
        · rw [hsent] at hhere
          refine ⟨[], r, onward, (r.send link).2.wire rest, ?_, hhere, hall hop hhere⟩
          rw [wire, hsent]
          rfl
      · obtain ⟨before, first, onward, after, hwire, hmem, hechoes⟩ := ih hlater
        refine ⟨(r.course link.network).sent ++ before, first, onward, after, ?_, hmem, hechoes⟩
        rw [wire, hwire]
        simp only [List.append_assoc]

end Link

/-- Nothing is sent on from any of the replies that are left. -/
def Network.Stationary : Network → Prop
  | down => True
  | script replies carrier => ∀ reply ∈ replies, ∀ r, carrier.onward? r reply = none

/-- Over such a network a request is all that is sent for it, and the network stays so. -/
theorem Network.Stationary.course {network : Network} (h : network.Stationary) (r : Request) :
    (r.course network).sent.tail = [] ∧ (r.course network).network.Stationary := by
  cases hobstacle : r.obstacle? network with
  | some cause =>
      rw [Request.course_of_obstacle hobstacle]
      exact ⟨rfl, h⟩
  | none =>
      cases network with
      | down =>
          unfold Request.obstacle? at hobstacle
          split at hobstacle <;> cases hobstacle
      | script replies carrier =>
          have hsettled : carrier.onward? r (replies.headD .drop) = none := by
            cases replies with
            | nil => rfl
            | cons reply rest => exact h reply List.mem_cons_self r
          rw [Request.course_of_settled hobstacle hsettled]
          constructor
          · split <;> rfl
          · exact fun reply hreply => h reply (List.mem_of_mem_tail hreply)

/-- **If nothing is sent on**, nothing is sent beside the requests. -/
theorem Link.hops_of_stationary {link : Link} (h : link.network.Stationary)
    (made : List Request) : link.hops made = [] := by
  induction made generalizing link with
  | nil => rfl
  | cons r rest ih =>
      obtain ⟨hnone, hstays⟩ := h.course r
      rw [hops, hnone, List.nil_append]
      exact ih hstays

end ZoneConsole
