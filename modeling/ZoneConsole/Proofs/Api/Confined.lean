import ZoneConsole.Proofs.Api.Answers

/-!
# How far requests can go

An identity is any text, and a text with tabs and line breaks can name the directory above once
these are dropped.  The name of the collection stands before it, and that is as far up as one
segment can lead: no request leaves the directory of the base, and what is before the path stays
as it is.  The probe of health does not look at the base at all.

* **`Url.Within`** — a URL agrees with a base on all before the path, and its path begins with
  that of the base.
* **`Client.endpoint_below`** — the URL of every endpoint is one below the directory of the base.
* **`Call.exists_within`** — so is that of the request of every call but the probe of health.
* **`Client.health_request`** — the URL of the probe of health, as the origin is.
* **`requests_confined`** — all of it, for the clients that can be made.
-/

namespace ZoneConsole

open Url

variable {α : Type} {c : Client} {dir : List String}

namespace Url

/-- The URL stays within a base: it agrees with it on all before the path, and its path begins
    with the path of the base. -/
structure Within (u base : Url) : Prop where
  authority : u.SharesAuthority base
  path : writePath base.path <+: writePath u.path

/-- The URL is that of the health of an origin: `/health`, with nothing after it. -/
structure ProbesHealth (u origin : Url) : Prop where
  authority : u.SharesAuthority origin
  path : writePath u.path = "/health".toList
  query : u.query = none

/-- Pairs are appended after the path. -/
theorem appendPairs_eq (u : Url) (pairs : List (String × String)) :
    ∃ query, u.appendPairs pairs = { u with query := query } := by
  unfold appendPairs
  split
  · exact ⟨u.query, rfl⟩
  · exact ⟨_, rfl⟩

theorem Within.appendPairs {u base : Url} (h : u.Within base) (pairs : List (String × String)) :
    (u.appendPairs pairs).Within base := by
  obtain ⟨query, heq⟩ := u.appendPairs_eq pairs
  rw [heq]
  exact ⟨⟨h.authority.scheme, h.authority.user, h.authority.password, h.authority.host,
    h.authority.port⟩, h.path⟩

end Url

/-! ### Endpoints -/

/-- **The URL of an endpoint** is below the directory of the base, whatever is appended to the
    name that it begins with. -/
theorem Client.endpoint_below (hb : c.Below dir) {name : String} (hname : IsPlain name)
    (rest : List String) : ∃ more, more ≠ [] ∧
      c.endpoint (name :: rest) = .ok { c.base with path := .segments (dir ++ more) } := by
  obtain ⟨more, hmore, happend⟩ := appendSegments_below (isSpecial c.base.scheme) dir
    (List.cons_ne_nil (encodeSegment (isSpecial c.base.scheme) name) []) rest
  refine ⟨more, hmore, ?_⟩
  rw [endpoint, push?_base hb.path hb.last hname, happend]

/-- Below the directory of the base is within the base. -/
theorem Client.Below.within (hb : c.Below dir) {more : List String} (hmore : more ≠ []) :
    ({ c.base with path := .segments (dir ++ more) } : Url).Within c.base := by
  refine ⟨⟨rfl, rfl, rfl, rfl, rfl⟩, ?_⟩
  rw [hb.path]
  exact writePath_below dir hmore

/-- The request of an endpoint is within the base. -/
theorem Client.Below.exists_within (hb : c.Below dir) {name : String} (hname : IsPlain name)
    (rest : List String) (method : Method) (pairs : List (String × String))
    (body : Option String) :
    ∃ r : Request, ((c.endpoint (name :: rest)).map fun url =>
      (⟨method, url.appendPairs pairs, body⟩ : Request)) = .ok r ∧ r.url.Within c.base := by
  obtain ⟨more, hmore, hendpoint⟩ := Client.endpoint_below hb hname rest
  rw [hendpoint]
  exact ⟨_, rfl, (hb.within hmore).appendPairs pairs⟩

theorem CollectionCall.exists_within {E : Type} [Resource E] (hb : c.Below dir)
    (hname : IsPlain (Resource.collection E)) (call : CollectionCall E α) :
    ∃ r, (call.exchange c).request = .ok r ∧ r.url.Within c.base := by
  obtain ⟨method, rest, pairs, body, hrequest⟩ := call.exists_endpoint c
  rw [hrequest]
  exact hb.exists_within hname rest method pairs body

/-- **The request of every call** but the probe of health is within the base. -/
theorem Call.exists_within (hb : c.Below dir) (call : Call α) (h : call.isHealth = false) :
    ∃ r, (call.exchange c).request = .ok r ∧ r.url.Within c.base := by
  cases call with
  | zones call => exact call.exists_within hb (by decide)
  | qubes call => exact call.exists_within hb (by decide)
  | status => exact hb.exists_within (by decide) [] .get [] none
  | health => cases h

/-! ### The probe of health -/

/-- The probe of health asks for what its path is resolved to. -/
theorem Client.health_request_eq (c : Client) : c.health.request =
    match c.origin.join "/health" with
    | .ok url => .ok ⟨.get, url, none⟩
    | .error e => .error (.invalidUrl e) := by
  show (c.rootEndpoint "/health").map _ = _
  rw [rootEndpoint]
  cases c.origin.join "/health" <;> rfl

/-- **The request of the probe of health**: there is one if the origin has a path of segments,
    and unless the path keeps a drive it goes to the health of the origin. -/
theorem Client.health_request (c : Client) :
    (c.origin.HasSegments ↔ ∃ r, c.health.request = .ok r) ∧
      ∀ r, c.health.request = .ok r → (r.url.ProbesHealth c.origin ↔ ¬ c.origin.OnDrive) := by
  by_cases hsegments : c.origin.HasSegments
  · by_cases hdrive : c.origin.OnDrive
    · obtain ⟨drive, url, -, hjoin, hpath⟩ := join_health_onDrive hdrive
      rw [health_request_eq, hjoin]
      refine ⟨iff_of_true hsegments ⟨_, rfl⟩, ?_⟩
      rintro r ⟨⟩
      refine iff_of_false (fun hprobe => ?_) (fun h => h hdrive)
      -- the path has the drive before the rest, and so is too long
      have hwritten := hprobe.path
      rw [hpath] at hwritten
      have hlen := congrArg List.length hwritten
      simp [writePath, writeSegments] at hlen
    · rw [health_request_eq, join_health hsegments hdrive]
      refine ⟨iff_of_true hsegments ⟨_, rfl⟩, ?_⟩
      rintro r ⟨⟩
      exact iff_of_true ⟨sharesAuthority_withPath _ _, rfl, rfl⟩ hdrive
  · rw [health_request_eq, join_health_opaque hsegments]
    constructor
    · refine iff_of_false hsegments ?_
      rintro ⟨r, hr⟩
      cases hr
    · intro r hr
      cases hr

/-! ### Clients -/

/-- **Requests stay within the base**, for every client whose base is an http or https URL: every
    call but the probe of health has a request, whatever the identity, and its URL has the scheme,
    user, password, host and port of the base and a path that begins with its path.  The probe of
    health has a request if the origin has a path of segments; it goes to `/health` of the origin
    unless the origin is a file on a drive; and it does not depend on the base. -/
theorem requests_confined {origin setting : String} (hc : Client.make origin setting = .ok c)
    (hs : c.base.scheme = "http" ∨ c.base.scheme = "https") :
    (∀ (α : Type) (call : Call α), call.isHealth = false →
      ∃ r, (call.exchange c).request = .ok r ∧ r.url.Within c.base) ∧
    (c.origin.HasSegments ↔ ∃ r, c.health.request = .ok r) ∧
    (∀ r, c.health.request = .ok r → (r.url.ProbesHealth c.origin ↔ ¬ c.origin.OnDrive)) ∧
    ∀ c' : Client, c'.origin = c.origin → c'.health.request = c.health.request := by
  have hspecial : isSpecial c.base.scheme = true := by
    rcases hs with h | h
    · rw [h]
      rfl
    · rw [h]
      rfl
  obtain ⟨dir, hb⟩ := Client.base_of_make hc hspecial
  refine ⟨fun α call h => call.exists_within hb h, c.health_request.1, c.health_request.2, ?_⟩
  intro c' horigin
  rw [Client.health_request_eq, Client.health_request_eq, horigin]

/-- A client whose base has a user, a port, a path and a query of its own. -/
def tenantClient : Client where
  origin := ⟨"http", "", none, some (.domain "console.lan"), none, .segments [""], none, none⟩
  base := ⟨"http", "u", some "p", some (.domain "api.lan"), some 81, .segments ["t", "v1", ""],
    some "k=1", none⟩

/-- A tab before two dots is dropped, and the request climbs to the base itself, but no further. -/
theorem requests_confined_climbing :
    Client.make "http://console.lan" "http://u:p@api.lan:81/t/v1?k=1" = .ok tenantClient ∧
    (tenantClient.base.scheme = "http" ∨ tenantClient.base.scheme = "https") ∧
    ∃ r, ((Call.zones (.delete "\t..")).exchange tenantClient).request = .ok r ∧
      r.url.Within tenantClient.base ∧ r.url = tenantClient.base := by
  have hmake : Client.make "http://console.lan" "http://u:p@api.lan:81/t/v1?k=1" =
      .ok tenantClient := eq_ok_of_toOption (by decide +kernel)
  obtain ⟨r, hr, hwithin⟩ :=
    (requests_confined hmake (.inl rfl)).1 Unit (.zones (.delete "\t..")) rfl
  refine ⟨hmake, .inl rfl, r, hr, hwithin, ?_⟩
  exact congrArg Request.url (Except.ok.inj hr).symm

/-- A client whose origin is a file on a drive. -/
def driveClient : Client where
  origin := ⟨"file", "", none, some (.domain ""), none, .segments ["C:", "x"], none, none⟩
  base := EntityCall.consoleLan.base

/-- Its base is an http URL, but its probe of health does not go to `/health`. -/
theorem health_on_drive :
    Client.make "file:///C:/x" "http://console.lan:8080/api/v1" = .ok driveClient ∧
    driveClient.base.scheme = "http" ∧
    ∃ r, driveClient.health.request = .ok r ∧
      writePath r.url.path = "/C:/health".toList ∧ ¬ r.url.ProbesHealth driveClient.origin := by
  refine ⟨eq_ok_of_toOption (by decide +kernel), rfl, _, rfl, rfl, fun h => ?_⟩
  exact absurd h.path (by decide)

end ZoneConsole
