import ZoneConsole.Proofs.Api.Answers
import ZoneConsole.Store

/-!
# Requests made over a link

An exchange makes one request, if it can, and what it leaves of a link is what its request leaves,
however that is carried.

* **`Exchange.makes`** — what an exchange asks for: one request, if it can be made.
* **`Exchange.run_after`**, **`Store.perform_after`** — what they leave is what their requests
  leave.
* **`Exchange.Expects.makes_eq_nil`** — only an exchange that makes no request complains of a URL.
* **`Client.request_get_update`** — an entity is changed where it is asked for.
-/

namespace ZoneConsole

variable {α : Type}

namespace Exchange

/-- The requests that an exchange makes: its one request, if it can be made. -/
def makes (e : Exchange α) : List Request :=
  match e.request with
  | .ok r => [r]
  | .error _ => []

theorem makes_of_request {e : Exchange α} {r : Request} (h : e.request = .ok r) :
    e.makes = [r] := by
  rw [makes, h]

theorem makes_of_error {e : Exchange α} {error : ApiError} (h : e.request = .error error) :
    e.makes = [] := by
  rw [makes, h]

theorem length_makes_le (e : Exchange α) : e.makes.length ≤ 1 := by
  unfold makes
  split
  · exact Nat.le_refl 1
  · exact Nat.zero_le 1

/-- **An exchange leaves what its request leaves.** -/
theorem run_after (e : Exchange α) (link : Link) : (e.run link).2 = link.after e.makes := by
  cases h : e.request with
  | ok r => rw [makes_of_request h, run_snd h]; rfl
  | error error => rw [makes_of_error h, run_of_error h]; rfl

/-- What is read of a body is no complaint of a URL, and neither is what is made of a fate. -/
theorem ne_invalidUrl_of_bodyRead {codec : Codec α} {body : Option String}
    {result : Except ApiError α} (h : BodyRead codec body result) (u : UrlError) :
    result ≠ .error (.invalidUrl u) := by
  rintro rfl
  cases h

theorem ne_invalidUrl_of_classified {expected : Option (Codec α)} {fate : Fate}
    {result : Except ApiError α} (h : Classified expected fate result) (u : UrlError) :
    result ≠ .error (.invalidUrl u) := by
  cases h with
  | read hstatus hexpected hbody => exact ne_invalidUrl_of_bodyRead hbody u
  | failed | rejected | accepted => rintro ⟨⟩

/-- **Only an exchange that makes no request** complains of a URL. -/
theorem Expects.makes_eq_nil {e : Exchange α} {expected : Option (Codec α)}
    (he : e.Expects expected) {link : Link} {u : UrlError}
    (h : (e.run link).1 = .error (.invalidUrl u)) : e.makes = [] := by
  cases hr : e.request with
  | error error => exact makes_of_error hr
  | ok r =>
      obtain ⟨result, hresult, hrun⟩ := he.classified_run hr link
      rw [hrun] at h
      exact absurd h (ne_invalidUrl_of_classified hresult u)

end Exchange

/-- **A load leaves what its request leaves**, whatever becomes of the store. -/
theorem Store.perform_after {E : Type} [Resource E] (client : Client) (store : Store E)
    (options : ListOptions) (link : Link) :
    (store.perform client (.load options) link).2.2 =
      link.after (client.list E options).makes := by
  unfold perform Exchange.makes
  simp only [Operation.request]
  cases (client.list E options).request <;> rfl

namespace Client

/-- What an exchange asks for that is made of its parts. -/
theorem makes_exchange (method : Method) (url : Except ApiError Url) (body : Option String)
    (read : Response → Except ApiError α) :
    (exchange method url body read).makes =
      match url with
      | .ok url => [⟨method, url, body⟩]
      | .error _ => [] := by
  cases url <;> rfl

theorem method_of_mem_makes {method : Method} {url : Except ApiError Url} {body : Option String}
    {read : Response → Except ApiError α} {r : Request}
    (h : r ∈ (exchange method url body read).makes) : r.method = method := by
  rw [makes_exchange] at h
  split at h
  · rw [List.mem_singleton.1 h]
  · cases h

/-- **An entity is changed where it is asked for**: if the one request can be made, so can the
    other, and to the same URL. -/
theorem request_get_update {E : Type} [Resource E] (client : Client) (id : String)
    (patch : Resource.Patch E) :
    (∃ error, (client.get E id).request = .error error ∧
      (client.update E id patch).request = .error error) ∨
    ∃ asked changed : Request, (client.get E id).request = .ok asked ∧
      (client.update E id patch).request = .ok changed ∧
        asked.method = .get ∧ changed.method = .put ∧ changed.url = asked.url := by
  unfold get update exchange
  cases client.endpoint [Resource.collection E, id] with
  | ok url => exact .inr ⟨_, _, rfl, rfl, rfl, rfl, rfl⟩
  | error error => exact .inl ⟨error, rfl, rfl⟩

end Client

end ZoneConsole
