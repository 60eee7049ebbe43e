import ZoneConsole.Proofs.Api.Confined

/-!
# Verdicts on calls

What came of a call, as far as it matters to somebody who waits for its end: a value that is
accepted, or one of a few reasons why there is none.  A verdict is found in what becomes of the one
request of the call, before any error is made of it, and the errors that calls give tell it again.

* **`Call.verdict`** — the verdict on a call, from the fate of its request.
* **`ApiError.verdict`** — the verdict that an error tells.
* **`Call.verdict_eq`** — what a call gives tells the verdict on it.
* **`Call.verdict_unaddressed_iff`** — when a call has no request.
-/

namespace ZoneConsole

variable {α : Type}

/-- What came of a call: it is done, or what it was given is not accepted, its request has no URL,
    was not answered in time or not at all, or was refused with a status, or the body of the answer
    cannot be read. -/
inductive Verdict
  | done
  | unhealthy
  | unaddressed
  | timedOut
  | unreached
  | refused (status : Nat)
  | unreadable
  deriving DecidableEq, Repr

/-! ### Verdicts on fates -/

/-- The verdict on the body of an accepting answer from which a value is read.  A body that broke
    off was never received. -/
def Codec.verdict (codec : Codec α) (accepts : α → Bool) : Option String → Verdict
  | none => .unreached
  | some text =>
    match Json.decode codec text with
    | .ok a => if accepts a then .done else .unhealthy
    | .error _ => .unreadable

/-- The verdict on a cause for which there is no answer. -/
def TransportCause.verdict : TransportCause → Verdict
  | timeout => .timedOut
  | connect | dropped | body | builder | redirect => .unreached

/-- The verdict on what became of a request, if a value of a codec is expected or none. -/
def Fate.verdict (expected : Option (Codec α)) (accepts : α → Bool) : Fate → Verdict
  | failed cause _ => cause.verdict
  | answered status body complete =>
    if isSuccess status then
      match expected with
      | none => .done
      | some codec => codec.verdict accepts (Response.ofReply status body complete).body
    else .refused status

namespace Call

/-- Is the value of a call accepted?  Only the health of the server may be found wanting. -/
def accepts : Call α → α → Bool
  | health, h => h.status = "healthy"
  | zones _, _ | qubes _, _ | status, _ => true

/-- The verdict on a call: it has no request, or it is that on what becomes of its request. -/
def verdict (c : Client) (call : Call α) (link : Link) : Verdict :=
  match (call.exchange c).request with
  | .error _ => .unaddressed
  | .ok r => (r.course link.network).fate.verdict call.expected call.accepts

end Call

/-! ### Verdicts that errors tell -/

/-- The verdict that an error tells. -/
def ApiError.verdict : ApiError → Verdict
  | transport cause _ => cause.verdict
  | invalidUrl _ => .unaddressed
  | rejected status _ _ _ => .refused status
  | undecodable _ _ => .unreadable

/-- The verdict that the result of a call tells. -/
def resultVerdict (accepts : α → Bool) : Except ApiError α → Verdict
  | .ok a => if accepts a then .done else .unhealthy
  | .error e => e.verdict

/-- What is read of a body tells the verdict on it. -/
theorem BodyRead.verdict {codec : Codec α} {body : Option String} {result : Except ApiError α}
    (h : BodyRead codec body result) (accepts : α → Bool) :
    resultVerdict accepts result = codec.verdict accepts body := by
  cases h with
  | brokenOff => rfl
  | decoded hdecode => simp only [Codec.verdict, hdecode, resultVerdict]
  | undecodable message hdecode =>
      simp only [Codec.verdict, hdecode, resultVerdict, ApiError.verdict]

/-- **What is made of a fate tells the verdict on it**, if nothing but what is read of a body may
    be found wanting. -/
theorem Classified.verdict {expected : Option (Codec α)} {fate : Fate}
    {result : Except ApiError α} (h : Classified expected fate result) {accepts : α → Bool}
    (hnone : expected = none → ∀ a, accepts a = true) :
    resultVerdict accepts result = fate.verdict expected accepts := by
  cases h with
  | failed cause url => rfl
  | rejected body complete code message details hstatus =>
      simp [Fate.verdict, hstatus, resultVerdict, ApiError.verdict]
  | accepted body complete a hstatus hexpected =>
      simp [Fate.verdict, hstatus, hexpected, resultVerdict, hnone hexpected]
  | read hstatus hexpected hbody =>
      simp [Fate.verdict, hstatus, hexpected, hbody.verdict accepts]

/-! ### Calls without a request -/

/-- An endpoint below an opaque path has no URL. -/
theorem Client.endpoint_opaque {c : Client} (hbase : ¬ c.base.HasSegments)
    (segments : List String) :
    c.endpoint segments = .error (.invalidUrl .relativeToOpaque) := by
  have hnone : c.base.push? segments = none := by
    unfold Url.push?
    split
    · rfl
    · rename_i list hlist
      exact absurd ⟨list, hlist⟩ hbase
  rw [endpoint, hnone]

/-- A call on a collection has no request below an opaque path. -/
theorem CollectionCall.request_opaque {E : Type} [Resource E] {c : Client}
    (hbase : ¬ c.base.HasSegments)
    (call : CollectionCall E α) :
    (call.exchange c).request = .error (.invalidUrl .relativeToOpaque) := by
  obtain ⟨method, rest, pairs, body, hrequest⟩ := call.exists_endpoint c
  rw [hrequest, Client.endpoint_opaque hbase]
  rfl

namespace Call

/-- Of a call that expects no value nothing is found wanting. -/
theorem accepts_of_expected (call : Call α) (h : call.expected = none) (a : α) :
    call.accepts a = true := by
  cases call with
  | health => cases h
  | zones call | qubes call | status => rfl

/-- **Against an opaque path** a call has no request. -/
theorem request_opaque {c : Client} (call : Call α) (hroot : ¬ (call.root c).HasSegments) :
    (call.exchange c).request = .error (.invalidUrl .relativeToOpaque) := by
  cases call with
  | zones call => exact call.request_opaque hroot
  | qubes call => exact call.request_opaque hroot
  | status => exact congrArg (Except.map _) (Client.endpoint_opaque hroot ["status"])
  | health =>
      have horigin : ¬ c.origin.HasSegments := hroot
      rw [exchange, Client.health_request_eq, Url.join_health_opaque horigin]

section

variable {c : Client} {call : Call α} {link : Link}

/-- The verdict on a call that has no request. -/
theorem verdict_of_error {e : ApiError} (h : (call.exchange c).request = .error e) :
    call.verdict c link = .unaddressed := by
  rw [verdict, h]

/-- The verdict on a call that has one. -/
theorem verdict_of_request {r : Request} (h : (call.exchange c).request = .ok r) :
    call.verdict c link = (r.course link.network).fate.verdict call.expected call.accepts := by
  rw [verdict, h]

end

/-- **What a call gives tells the verdict on it.** -/
theorem verdict_eq (c : Client) (call : Call α) (link : Link) :
    call.verdict c link = resultVerdict call.accepts ((call.exchange c).run link).1 := by
  -- a request is made exactly if there is a path to add segments to
  by_cases hroot : (call.root c).HasSegments
  · obtain ⟨r, hr, -⟩ := call.exists_request hroot
    obtain ⟨result, hresult, hrun⟩ := (call.expects c).classified_run hr link
    rw [verdict_of_request hr, hrun]
    exact (hresult.verdict call.accepts_of_expected).symm
  · have herror := call.request_opaque hroot
    rw [verdict_of_error herror, Exchange.run_of_error herror]
    rfl

/-- A body has come from somewhere. -/
theorem body_ne_unaddressed (codec : Codec α) (accepts : α → Bool) (body : Option String) :
    codec.verdict accepts body ≠ .unaddressed := by
  unfold Codec.verdict
  repeat' split
  all_goals simp

/-- What becomes of a request has been asked for. -/
theorem fate_ne_unaddressed (expected : Option (Codec α)) (accepts : α → Bool) (fate : Fate) :
    fate.verdict expected accepts ≠ .unaddressed := by
  cases fate with
  | failed cause url => cases cause <;> simp [Fate.verdict, TransportCause.verdict]
  | answered status body complete =>
      cases hstatus : isSuccess status with
      | false => simp [Fate.verdict, hstatus]
      | true =>
          cases expected with
          | none => simp [Fate.verdict, hstatus]
          | some codec =>
              simpa [Fate.verdict, hstatus] using body_ne_unaddressed codec accepts _

/-- **A call is unaddressed exactly if** it is resolved against an opaque path. -/
theorem verdict_unaddressed_iff {c : Client} {call : Call α} {link : Link} :
    call.verdict c link = .unaddressed ↔ ¬ (call.root c).HasSegments := by
  constructor
  · intro h hroot
    obtain ⟨r, hr, -⟩ := call.exists_request hroot
    rw [verdict_of_request hr] at h
    exact fate_ne_unaddressed _ _ _ h
  · intro hroot
    exact verdict_of_error (call.request_opaque hroot)

end Call

end ZoneConsole
