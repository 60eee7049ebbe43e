import ZoneConsole.Proofs.Command.FailedLoads
import ZoneConsole.Proofs.Command.Sent
import ZoneConsole.Proofs.Wire

/-!
# What a change of a zone asks for

The server replaces the connection settings of a zone as a whole.  A change of some of them is made
of the settings as the server gave them, with those that were given on the command line in their
places; nothing else is asked for, and nothing at all if the server did not give the zone.

* **`ZoneFlags.Overlays`** — settings that are others with some put in their places.
* **`ZonePatch.isChange`** — what the body of a change says.
* **`ZoneCommand.exists_reconnection`** — a change of connection settings is asked for once the zone
  was given.
* **`Run.run_update_error`** — a change fails with the request for the zone.
* **`zoneChange_exact`** — all of it, for every command line that changes a zone.
-/

namespace ZoneConsole

open Rejection (Written written_compact)

/-! ### Settings put in their places -/

/-- A connection setting: what is given for it, and what it is. -/
structure Setting where
  given : ZoneFlags → Option String
  held : ZoneConfig → Option String

/-- The connection settings.  There is always an endpoint. -/
def ZoneConfig.settings : List Setting :=
  [⟨ZoneFlags.endpoint, fun c => some c.endpoint⟩, ⟨ZoneFlags.region, region⟩,
    ⟨ZoneFlags.project, project⟩, ⟨ZoneFlags.username, username⟩,
    ⟨ZoneFlags.publicKey, publicKey⟩]

namespace ZoneFlags

/-- The new settings are the old ones with those that are given in their places. -/
def Overlays (flags : ZoneFlags) (old new : ZoneConfig) : Prop :=
  ∀ s ∈ ZoneConfig.settings,
    (∀ v, s.given flags = some v → s.held new = some v) ∧
      (s.given flags = .none → s.held new = s.held old)

/-- A value is put in its place, and one that is not given is kept. -/
theorem placed_iff (given held new : Option String) :
    ((∀ v, given = some v → new = some v) ∧ (given = .none → new = held)) ↔
      new = given.or held := by
  cases given with
  | none => simp
  | some v => simp

/-- **What is given is put in its place** and all else is kept, and that is all there is to it. -/
theorem overlays_iff (flags : ZoneFlags) (old new : ZoneConfig) :
    flags.Overlays old new ↔ new = flags.applyTo old := by
  obtain ⟨endpoint, region, project, username, publicKey⟩ := new
  have hendpoint : some endpoint = flags.endpoint.or (some old.endpoint) ↔
      endpoint = flags.endpoint.getD old.endpoint := by
    cases flags.endpoint <;> simp
  unfold Overlays ZoneConfig.settings
  simp only [List.forall_mem_cons, placed_iff, hendpoint, applyTo, ZoneConfig.mk.injEq,
    List.not_mem_nil, false_imp_iff, implies_true, and_true]

end ZoneFlags

/-! ### Bodies of changes -/

/-- The text asks for a change: it is an object that has a name exactly if one is given, connection
    settings exactly if there are some, each at most once, and nothing else. -/
def IsChange (text : String) (name : Option String) (config : Option Reading) : Prop :=
  ∃ members, Written text members ∧ (members.map (·.1)).Nodup ∧
    (∀ m ∈ members, m.1 = "name" ∨ m.1 = "config") ∧
    lookup? "name" members = name.map Reading.str ∧ lookup? "config" members = config

/-- **The body of a change** says what is changed. -/
theorem ZonePatch.isChange (name : Option String) (config : Option ZoneConfig) :
    IsChange (Json.encode codec ⟨name, config⟩) name
      (config.map fun c => Reading.ofData (ZoneConfig.codec.encode c)) := by
  refine ⟨_, written_compact (ZonePatch.recovers ⟨name, config⟩).plain, ?_⟩
  cases name <;> cases config <;> simp [fields, Record.members, Field.omittable, Codec.optional,
    Codec.text, Reading.ofData, lookup?]

/-- Settings that are sent are read as what they are. -/
theorem ZoneConfig.decode_sent (c : ZoneConfig) :
    codec.decode (Reading.ofData (codec.encode c)) = .ok c :=
  c.recovers.reads _ (Reading.shows_ofData c.recovers.plain)

/-- The request for a change has the change for a body. -/
theorem Client.body_of_update {E : Type} [Resource E] {client : Client} {id : String}
    {patch : Resource.Patch E} {r : Request} (h : (client.update E id patch).request = .ok r) :
    r.method = .put ∧ r.body = some (Json.encode (Resource.patchCodec (E := E)) patch) := by
  obtain ⟨url, -, rfl⟩ := exists_of_map_ok h
  exact ⟨rfl, rfl⟩

/-! ### The requests for a change -/

section Requests

variable {agrees : String → Bool} {client : Client} {link : Link} {id : String}
  {name : Option String} {flags : ZoneFlags}

/-- The request asks for a change of a zone that keeps its connection settings. -/
def Request.Renames (r : Request) (name : Option String) : Prop :=
  r.method = .put ∧ ∃ text, r.body = some text ∧ IsChange text name none

/-- **A change of the name alone** is asked for in one request. -/
theorem ZoneCommand.renames_of_mem_requests {r : Request}
    (hr : r ∈ (update id name .none).requests agrees client link) : r.Renames name := by
  rw [requests_update_empty] at hr
  split at hr
  · cases hr
  · cases hrequest : (client.update Zone id (⟨name, none⟩ : ZonePatch)).request with
    | error e =>
        rw [Exchange.makes_of_error hrequest] at hr
        cases hr
    | ok put =>
        rw [Exchange.makes_of_request hrequest] at hr
        obtain rfl := List.mem_singleton.1 hr
        obtain ⟨hmethod, hbody⟩ := Client.body_of_update hrequest
        exact ⟨hmethod, _, hbody, ZonePatch.isChange name none⟩

/-- It is asked for if a name is given and the base can carry the request. -/
theorem ZoneCommand.exists_renaming (hname : name.isSome = true)
    (hbase : client.base.HasSegments) :
    ∃ r, (update id name .none).requests agrees client link = [r] := by
  have hgiven : name.isNone = false := by rw [← Option.not_isSome, hname]; rfl
  obtain ⟨put, hrequest, -⟩ := CollectionCall.exists_request (E := Zone)
    (.update id (⟨name, none⟩ : ZonePatch)) hbase
  rw [requests_update_empty, hgiven]
  exact ⟨put, Exchange.makes_of_request hrequest⟩

/-- The two requests ask for a zone, and for a change of it at the same place that gives it a name
    exactly if one is given, and connection settings that are its own ones with those that are
    given in their places. -/
structure Reconnection (client : Client) (id : String) (name : Option String)
    (flags : ZoneFlags) (zone : Zone) (asked changed : Request) : Prop where
  request : (client.get Zone id).request = .ok asked
  asks : asked.method = .get
  changes : changed.method = .put
  url : changed.url = asked.url
  body : ∃ text reading new, changed.body = some text ∧ IsChange text name (some reading) ∧
    ZoneConfig.codec.decode reading = .ok new ∧ flags.Overlays zone.config new

/-- **A change of connection settings** is asked for once the zone was given. -/
theorem ZoneCommand.exists_reconnection (hflags : flags ≠ .none) {zone : Zone}
    (hzone : ((client.get Zone id).run link).1 = .ok zone) :
    ∃ asked changed, (update id name flags).requests agrees client link = [asked, changed] ∧
      Reconnection client id name flags zone asked changed := by
  rw [requests_update_given _ _ _ _ _ hflags, hzone]
  rcases Client.request_get_update (E := Zone) client id
    (⟨name, some (flags.applyTo zone.config)⟩ : ZonePatch) with
    ⟨error, hasked, -⟩ | ⟨asked, changed, hasked, hchanged, hget, hput, hurl⟩
  · -- without a request there would have been no zone
    rw [Exchange.run_of_error hasked] at hzone
    cases hzone
  · obtain ⟨-, hbody⟩ := Client.body_of_update hchanged
    refine ⟨asked, changed, ?_, hasked, hget, hput, hurl, _, _, _, hbody,
      ZonePatch.isChange name (some (flags.applyTo zone.config)), ZoneConfig.decode_sent _,
      (flags.overlays_iff _ _).2 rfl⟩
    rw [Exchange.makes_of_request hasked]
    exact congrArg ([asked] ++ ·) (Exchange.makes_of_request hchanged)

/-- If the zone is not given, it is all that is asked for. -/
theorem ZoneCommand.method_of_mem_requests (hflags : flags ≠ .none) {e : ApiError}
    (he : ((client.get Zone id).run link).1 = .error e) {r : Request}
    (hr : r ∈ (update id name flags).requests agrees client link) : r.method = .get := by
  rw [requests_update_given _ _ _ _ _ hflags, he, List.append_nil] at hr
  exact Client.method_of_mem_makes hr

end Requests

/-! ### Changes that fail -/

/-- **A change fails with the request for the zone.** -/
theorem Run.run_update_error {m : Machine} {o : GlobalOptions} {console : Console} {id : String}
    {name : Option String} {flags : ZoneFlags} {t : Transcript} {e : ApiError}
    (hflags : flags ≠ .none)
    (hfails : ((console.client.get Zone id).run t.link).1 = .error e) :
    ((zones m o console (.update id name flags)).run.run t).1 =
      .error (.ofEntity "zone" id e) := by
  have hasked : ((exchange (.ofEntity "zone" id) (console.client.get Zone id)).run.run t).1 =
      .error (.ofEntity "zone" id e) := by
    rw [run_exchange, hfails]
    rfl
  have hgiven : flags.isEmpty = false := decide_eq_false hflags
  simp only [zones, hgiven, Bool.and_false, Bool.false_eq_true, if_false]
  exact fst_bind_error hasked _

/-! ### Changes of zones -/

/-- **What a change of a zone asks for**, whatever is given and whatever there was, and on every
    machine.  The requests are made over the link, and it lists what is sent for them, of which
    more may be sent than is made if answers are followed to other places.  If no connection
    setting is given, whatever is sent and changes something has a body without settings.
    Otherwise the zone is asked for first.  If the server gives it, the change is asked for at the
    same place with settings that are those of the zone with the given ones in their places, and
    whatever is sent and changes something has that body; if not, nothing that changes anything is
    sent, and the command fails as the request for the zone did.  A body has a name exactly if one
    is given. -/
theorem zoneChange_exact {around : Surroundings} {words : List String} {i : Invocation}
    {console : Console} {id : String} {name : Option String} {flags : ZoneFlags}
    (hread : Invocation.read around.env words = .ok i)
    (hconsole : around.console i.options = .ok console)
    (hcommand : i.command = .zones (.update id name flags)) (m : Machine) :
    let link := Link.ofNetwork around.network
    let made := around.made words m
    let sent := around.sent words m
    ((invoke around words m).linkAfter link = link.after made ∧
      (link.after made).requests = sent.map Request.sent) ∧
    (flags = .none →
      (∀ r ∈ made, r.Renames name) ∧ (∀ r ∈ sent, r.method ≠ .get → r.Renames name) ∧
      (name.isSome = true → console.client.base.HasSegments → ∃ r, made = [r])) ∧
    (flags ≠ .none → ∀ zone, ((console.client.get Zone id).run link).1 = .ok zone →
      ∃ asked changed, made = [asked, changed] ∧
        Reconnection console.client id name flags zone asked changed ∧
        ∀ r ∈ sent, r.method ≠ .get → r.method = .put ∧ r.body = changed.body) ∧
    (flags ≠ .none → ∀ e, ((console.client.get Zone id).run link).1 = .error e →
      (∀ r ∈ sent, r.method = .get) ∧
        ∃ t, invoke around words m = .ran (some (.ofEntity "zone" id e)) t) := by
  obtain ⟨command, options⟩ := i
  obtain rfl : command = .zones (.update id name flags) := hcommand
  intro link made sent
  have hmade : made =
      (ZoneCommand.update id name flags).requests (m.agrees options) console.client link := by
    show around.made words m = _
    rw [made_of_read hread, Invocation.requests, hconsole]
    rfl
  -- whatever is sent and changes something does what a request that was made does
  have hsent {r : Request} (hr : r ∈ sent) : ∃ first ∈ made, r.Echoes first :=
    Link.echoes_of_wire hr
  refine ⟨⟨invoke_linkAfter around words m, Link.requests_after link made⟩,
    fun hflags => ⟨?_, ?_, ?_⟩, fun hflags zone hzone => ?_, fun hflags e he => ⟨?_, ?_⟩⟩
  · -- without flags there is nothing but a change of the name
    rw [hmade, hflags]
    exact fun r hr => ZoneCommand.renames_of_mem_requests hr
  · intro r hr hchanges
    obtain ⟨first, hfirst, hechoes⟩ := hsent hr
    rw [hmade, hflags] at hfirst
    obtain ⟨hmethod, hbody⟩ := hechoes.same hchanges
    rw [Request.Renames, hmethod, hbody]
    exact ZoneCommand.renames_of_mem_requests hfirst
  · rw [hmade, hflags]
    exact ZoneCommand.exists_renaming
  · obtain ⟨asked, changed, hrequests, hreconnects⟩ : ∃ asked changed, made = [asked, changed] ∧
        Reconnection console.client id name flags zone asked changed := by
      rw [hmade]
      exact ZoneCommand.exists_reconnection hflags hzone
    refine ⟨asked, changed, hrequests, hreconnects, fun r hr hchanges => ?_⟩
    obtain ⟨first, hfirst, hechoes⟩ := hsent hr
    rw [hrequests] at hfirst
    obtain ⟨hmethod, hbody⟩ := hechoes.same hchanges
    -- it does not do what the request for the zone does
    rcases List.mem_cons.1 hfirst with rfl | hfirst
    · exact absurd (hechoes.get hreconnects.asks) hchanges
    · obtain rfl := List.mem_singleton.1 hfirst
      exact ⟨hmethod.trans hreconnects.changes, hbody⟩
  · intro r hr
    obtain ⟨first, hfirst, hechoes⟩ := hsent hr
    rw [hmade] at hfirst
    exact hechoes.get (ZoneCommand.method_of_mem_requests hflags he hfirst)
  · -- the answer that tells of no zone ends the command before a change is asked for
    have hfails := Run.run_console_error hconsole
      (k := fun c => Run.zones m (options.on m around.env) c (.update id name flags))
      (Run.run_update_error (t := around.start) hflags he)
    rw [invoke_eq hread]
    exact ⟨_, congrArg (Ending.ran · _) (congrArg failureOf hfails)⟩

/-- A server that does not know the zone. -/
def unknownZone : Surroundings := scripted [.answer 404 [] true]

theorem read_moveWords : Invocation.read [] moveWords =
    .ok ⟨.zones (.update "z1" none moveFlags), usualOptions⟩ :=
  eq_ok_of_toOption (by decide +kernel)

/-- A move asks for the endpoint as it is and the new region, and for no name; and it is not asked
    for if there is no such zone. -/
theorem zoneChange_exact_moved :
    (∃ asked changed text reading, twoAnswers.made moveWords .usual = [asked, changed] ∧
      changed.method = .put ∧ changed.body = some text ∧ IsChange text none (some reading) ∧
      ZoneConfig.codec.decode reading = .ok ⟨"e", some "eu", none, none, none⟩) ∧
    (∀ r ∈ unknownZone.sent moveWords .usual, r.method = .get) ∧
    (invoke unknownZone moveWords).exitCode = 4 := by
  have hflags : moveFlags ≠ .none := by decide
  constructor
  · have hgiven : ((twoAnswers.console usualOptions).toOption.bind fun c =>
        (((c.client.get Zone "z1").run (.ofNetwork twoAnswers.network)).1.toOption).map
          (·.config)) =
          some ⟨"e", none, none, none, none⟩ := by decide +kernel
    obtain ⟨console, hconsole, hgiven⟩ := Option.bind_eq_some_iff.1 hgiven
    obtain ⟨zone, hzone, hconfig⟩ := Option.map_eq_some_iff.1 hgiven
    have hread : Invocation.read twoAnswers.env moveWords =
        .ok ⟨.zones (.update "z1" none moveFlags), usualOptions⟩ := read_moveWords
    obtain ⟨-, -, hchanged, -⟩ := zoneChange_exact hread (eq_ok_of_toOption hconsole) rfl .usual
    obtain ⟨asked, changed, hmade, ⟨-, -, hput, -, hbody⟩, -⟩ :=
      hchanged hflags zone (eq_ok_of_toOption hzone)
    obtain ⟨text, reading, new, hbody, hchange, hdecode, hoverlays⟩ := hbody
    refine ⟨asked, changed, text, reading, hmade, hput, hbody, hchange, ?_⟩
    rw [hdecode, (moveFlags.overlays_iff _ _).1 hoverlays, hconfig]
    rfl
  · have hmissing : ((unknownZone.console usualOptions).toOption.bind fun c =>
        (errorOf? ((c.client.get Zone "z1").run (.ofNetwork unknownZone.network)).1).map
          (·.status?)) = some (some 404) := by decide +kernel
    obtain ⟨console, hconsole, hmissing⟩ := Option.bind_eq_some_iff.1 hmissing
    obtain ⟨e, he, hstatus⟩ := Option.map_eq_some_iff.1 hmissing
    have hread : Invocation.read unknownZone.env moveWords =
        .ok ⟨.zones (.update "z1" none moveFlags), usualOptions⟩ := read_moveWords
    obtain ⟨-, -, -, hfails⟩ := zoneChange_exact hread (eq_ok_of_toOption hconsole) rfl .usual
    obtain ⟨hsent, t, hran⟩ := hfails hflags e (eq_error_of_errorOf? he)
    refine ⟨hsent, ?_⟩
    rw [hran, Failure.ofEntity, ApiError.isNotFound, hstatus]
    rfl

end ZoneConsole
