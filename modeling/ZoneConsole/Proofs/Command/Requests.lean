import ZoneConsole.Proofs.Api.Traffic
import ZoneConsole.Proofs.Command.Settings

/-!
# The requests of invocations

Which requests a command makes is settled by the command and the console, by what the user agrees
to, and by what becomes of the first request if there is a second one.  A failure with exit code 2
tells of a wrong use; of what comes back from a server only the complaint of a URL is one, and such
a request was never made.

* **`Run.Makes`** — from a transcript a run makes some requests, and none if it tells of a wrong
  use; **`Run.Makes.bind`** and **`Run.Makes.bind_ok`** put runs together.
* **`ZoneCommand.requests`**, **`QubeCommand.requests`** — the requests of commands over a link.
* **`Run.makes_zones`**, **`Run.makes_qubes`** — they make these.
* **`Run.makes_command`** — so does every command that asks for a console, which makes none if it
  gets none.
-/

namespace ZoneConsole

variable {α β : Type}

/-! ### Failures that tell of a wrong use -/

namespace Failure

/-- Errors become failures that tell of a wrong use only if they complain of a URL. -/
def BlamesUrl (f : ApiError → Failure) : Prop :=
  ∀ e, (f e).exitCode = 2 → ∃ u, e = .invalidUrl u

theorem blamesUrl_ofApi : BlamesUrl ofApi := by
  intro e h
  cases e with
  | invalidUrl u => exact ⟨u, rfl⟩
  | transport cause url => cases cause <;> cases h
  | rejected status code message details =>
      simp only [ofApi, exitCode] at h
      split at h
      · cases h
      · split at h <;> cases h
  | undecodable message body => cases h

theorem blamesUrl_ofEntity (noun id : String) : BlamesUrl (ofEntity noun id) := by
  intro e h
  unfold ofEntity at h
  split at h
  · cases h
  · exact blamesUrl_ofApi e h

end Failure

/-! ### Runs that make requests -/

/-- Does the user agree to an action, or was it confirmed beforehand? -/
def Machine.agrees (m : Machine) (o : GlobalOptions) (action : String) : Bool :=
  o.yes || match m.user with
    | some user => user.agrees action
    | none => false

/-- Colours make no difference to what is agreed to. -/
theorem Machine.agrees_on (m : Machine) (o : GlobalOptions) (env : Environment) :
    m.agrees (o.on m env) = m.agrees o := rfl

namespace Run

/-- The run makes no request, leaves the file alone, and its failures do not tell of a wrong
    use. -/
def Tame (x : Run α) : Prop :=
  ∀ t, SameBehind (x.run.run t).2 t ∧ ∀ f, (x.run.run t).1 = .error f → f.exitCode ≠ 2

/-- From a transcript the run makes requests and leaves the file alone, and a failure that
    tells of a wrong use comes only if it makes none. -/
structure Makes (x : Run α) (t : Transcript) (made : List Request) : Prop where
  link : (x.run.run t).2.link = t.link.after made
  file : (x.run.run t).2.file = t.file
  usage : ∀ f, (x.run.run t).1 = .error f → f.exitCode = 2 → made = []

theorem tame_pure (a : α) : Tame (pure a : Run α) := fun _ => ⟨⟨rfl, rfl⟩, nofun⟩

theorem tame_throw {f : Failure} (h : f.exitCode ≠ 2) : Tame (throw f : Run α) := by
  intro t
  refine ⟨⟨rfl, rfl⟩, fun g hg => ?_⟩
  obtain rfl := Except.error.inj hg
  exact h

theorem tame_settings (env : Environment) : Tame (settings env) := fun _ => ⟨⟨rfl, rfl⟩, nofun⟩

/-- A run that only prints something is tame. -/
theorem Shows.tame {x : Run Unit} (h : Shows x) : Tame x := by
  intro t
  obtain ⟨hresult, hbehind⟩ := h t
  refine ⟨hbehind, fun f hf => ?_⟩
  cases hresult.symm.trans hf

theorem tame_report (o : GlobalOptions) (text : String) : Tame (report o text) :=
  (shows_report o text).tame

theorem tame_notify (o : GlobalOptions) (line : String) : Tame (notify o line) :=
  (shows_notify o line).tame

theorem Tame.bind {x : Run α} {k : α → Run β} (hx : Tame x) (hk : ∀ a, Tame (k a)) :
    Tame (x >>= k) := by
  intro t
  have hfirst := hx t
  rcases hrun : x.run.run t with ⟨result, next⟩
  rw [hrun] at hfirst
  obtain ⟨hbehind, husage⟩ := hfirst
  cases result with
  | ok a =>
      rw [run_bind_ok hrun]
      obtain ⟨hbehind', husage'⟩ := hk a next
      exact ⟨⟨hbehind'.file.trans hbehind.file, hbehind'.link.trans hbehind.link⟩, husage'⟩
  | error f =>
      rw [run_bind_error hrun]
      refine ⟨hbehind, fun g hg => husage g ?_⟩
      rw [Except.error.inj hg]

theorem tame_forM {f : α → Run PUnit} (h : ∀ a, Tame (f a)) (list : List α) :
    Tame (list.forM f) := by
  induction list with
  | nil => exact tame_pure _
  | cons a rest ih => exact (h a).bind fun _ => ih

/-- A run that fails at once makes no request. -/
theorem makes_throw (f : Failure) (t : Transcript) : Makes (throw f : Run α) t [] :=
  ⟨rfl, rfl, fun _ _ _ => rfl⟩

/-- The requests of a run whose first part fails. -/
theorem Makes.bind_error {x : Run α} {k : α → Run β} {f : Failure} {t next : Transcript}
    {made : List Request} (hx : Makes x t made) (hrun : x.run.run t = (.error f, next)) :
    Makes (x >>= k) t made := by
  obtain ⟨hlink, hfile, husage⟩ := hx
  rw [hrun] at hlink hfile husage
  refine ⟨?_, ?_, fun g hg => husage g ?_⟩
  · rw [run_bind_error hrun]
    exact hlink
  · rw [run_bind_error hrun]
    exact hfile
  · rw [run_bind_error hrun] at hg
    rw [Except.error.inj hg]

/-- The requests of a run in two parts, if the second one does not tell of a wrong use after the
    first one has made some. -/
theorem Makes.bind_ok {x : Run α} {k : α → Run β} {a : α} {t next : Transcript}
    {first rest : List Request} (hx : Makes x t first) (hrun : x.run.run t = (.ok a, next))
    (hk : Makes (k a) next rest)
    (husage : ∀ f, ((k a).run.run next).1 = .error f → f.exitCode = 2 → first = []) :
    Makes (x >>= k) t (first ++ rest) := by
  obtain ⟨hlink, hfile, -⟩ := hx
  rw [hrun] at hlink hfile
  refine ⟨?_, ?_, fun f hf h => ?_⟩
  · rw [run_bind_ok hrun, hk.link, hlink, Link.after_append]
  · rw [run_bind_ok hrun, hk.file, hfile]
  · rw [run_bind_ok hrun] at hf
    rw [hk.usage f hf h, husage f hf h]
    rfl

/-- **The requests of a run with a tame one after it.** -/
theorem Makes.bind {x : Run α} {k : α → Run β} {t : Transcript} {made : List Request}
    (hx : Makes x t made) (hk : ∀ a, Tame (k a)) : Makes (x >>= k) t made := by
  rcases hrun : x.run.run t with ⟨result, next⟩
  cases result with
  | error f => exact hx.bind_error hrun
  | ok a =>
      obtain ⟨hbehind, husage⟩ := hk a next
      rw [← List.append_nil made]
      exact hx.bind_ok hrun ⟨hbehind.link, hbehind.file, fun _ _ _ => rfl⟩
        fun f hf h => absurd h (husage f hf)

/-- **An exchange makes its request.** -/
theorem makes_exchange {f : ApiError → Failure} (hf : Failure.BlamesUrl f) {e : Exchange α}
    {expected : Option (Codec α)} (he : e.Expects expected) (t : Transcript) :
    Makes (exchange f e) t e.makes := by
  have hrun := run_exchange f e t
  refine ⟨?_, ?_, fun g hg h => ?_⟩
  · rw [hrun]
    exact e.run_after t.link
  · rw [hrun]
  · rw [hrun] at hg
    cases hresult : (e.run t.link).1 with
    | ok a =>
        rw [hresult] at hg
        cases hg
    | error error =>
        rw [hresult] at hg
        obtain rfl := Except.error.inj hg
        obtain ⟨u, rfl⟩ := hf error h
        exact he.makes_eq_nil hresult

/-- **A load makes the request for its page.** -/
theorem makes_load {E : Type} [Resource E] (client : Client) (store : Store E)
    (options : ListOptions) (t : Transcript) :
    Makes (load client store options) t (client.list E options).makes := by
  have hrun := run_load client store options t
  refine ⟨?_, ?_, fun g hg h => ?_⟩
  · rw [hrun]
    exact Store.perform_after client store options t.link
  · rw [hrun]
  · rw [hrun] at hg
    unfold loaded at hg
    split at hg
    · obtain rfl := Except.error.inj hg
      cases h
    · cases hg

theorem makes_entities {E : Type} [Resource E] (client : Client) (store : Store E)
    (options : ListOptions) (view : Option (Collection E → List (Shared E))) (t : Transcript) :
    Makes (entities client store options view) t (client.list E options).makes := by
  unfold entities
  cases view with
  | none => exact (makes_load client store options t).bind fun _ => tame_pure _
  | some project =>
      refine (makes_load client _ options t).bind fun store => ?_
      split
      · exact tame_pure _
      · exact tame_pure _

/-- The requests of a run that may be refused at once. -/
theorem makes_unless {refused : Bool} {f : Failure} {k : Unit → Run α} {t : Transcript}
    {made : List Request} (h : refused = false → Makes (k ()) t made) :
    Makes (if refused then throw f >>= k else k ()) t (if refused then [] else made) := by
  cases refused with
  | true => exact (makes_throw f t).bind_error rfl
  | false => exact h rfl

/-- The requests of a run that has to be confirmed. -/
theorem makes_confirm {m : Machine} {o : GlobalOptions} {action : String} {k : Run Unit}
    {t : Transcript} {made : List Request} (h : Makes k t made) :
    Makes (confirm m o action >>= fun agreed => if agreed = true then k else pure ()) t
      (if m.agrees o action then made else []) := by
  have hnone : Makes (pure () : Run Unit) t [] := ⟨rfl, rfl, nofun⟩
  unfold confirm Machine.agrees
  cases o.yes with
  | true => exact h
  | false =>
      cases m.user with
      | none => exact (makes_throw _ t).bind_error rfl
      | some user =>
          show Makes (if user.agrees action = true then k else pure ()) t
            (if user.agrees action = true then made else [])
          cases user.agrees action with
          | true => exact h
          | false => exact hnone

end Run

/-! ### The requests of commands -/

/-- The requests of a command on zones, if it is known what the user agrees to.  A change of
    connection settings asks for the zone first, and goes on only if it is given one. -/
def ZoneCommand.requests (agrees : String → Bool) (client : Client) (link : Link) :
    ZoneCommand → List Request
  | list options _ => (client.list Zone options).makes
  | get id => (client.get Zone id).makes
  | create name provider flags =>
    if (flags.endpoint.getD "").isEmpty then []
    else (client.create Zone (⟨name, provider, flags.applyTo .empty⟩ : ZoneDraft)).makes
  | update id name flags =>
    if name.isNone && flags = .none then []
    else if flags = .none then (client.update Zone id (⟨name, none⟩ : ZonePatch)).makes
    else (client.get Zone id).makes ++
      match ((client.get Zone id).run link).1 with
      | .ok zone =>
        (client.update Zone id (⟨name, some (flags.applyTo zone.config)⟩ : ZonePatch)).makes
      | .error _ => []
  | delete id => if agrees (zoneQuestion id) then (client.delete Zone id).makes else []
  | transition id action => (client.transition Zone id action).makes

section Update

variable (agrees : String → Bool) (client : Client) (link : Link) (id : String)
  (name : Option String)

/-- A change of connection settings asks for the zone first. -/
theorem ZoneCommand.requests_update_given {flags : ZoneFlags} (hflags : flags ≠ .none) :
    (update id name flags).requests agrees client link = (client.get Zone id).makes ++
      match ((client.get Zone id).run link).1 with
      | .ok zone => (client.update Zone id
          (⟨name, some (flags.applyTo zone.config)⟩ : ZonePatch)).makes
      | .error _ => [] := by
  simp [requests, hflags]

/-- A change of the name alone does not. -/
theorem ZoneCommand.requests_update_empty :
    (update id name .none).requests agrees client link = if name.isNone then [] else
      (client.update Zone id (⟨name, none⟩ : ZonePatch)).makes := by
  simp [requests]

end Update

/-- The change of an allocation that is asked for: none if nothing of it is given. -/
def SpecPatch.given? (spec : SpecPatch) : Option SpecPatch :=
  if spec = .empty then none else some spec

theorem specOf_eq (spec : SpecPatch) : Run.specOf spec = spec.given? := by
  by_cases h : spec = .empty <;> simp [Run.specOf, SpecPatch.isEmpty, SpecPatch.given?, h]

/-- The requests of a command on qubes, if it is known what the user agrees to. -/
def QubeCommand.requests (agrees : String → Bool) (client : Client) : QubeCommand → List Request
  | list options _ => (client.list Qube options).makes
  | get id => (client.get Qube id).makes
  | create name zone workload spec =>
    (client.create Qube (⟨name, zone, workload, spec.given?⟩ : QubeDraft)).makes
  | update id name spec =>
    if name.isNone && spec = .empty then []
    else (client.update Qube id (⟨name, spec.given?⟩ : QubePatch)).makes
  | delete id => if agrees (qubeQuestion id) then (client.delete Qube id).makes else []
  | transition id action => (client.transition Qube id action).makes

namespace Run

variable {m : Machine} {o : GlobalOptions} {console : Console} {t : Transcript}

/-- A call of which the answer is only shown makes its request. -/
theorem makes_call {E : Type} [Resource E] {f : ApiError → Failure} (hf : Failure.BlamesUrl f)
    (client : Client) (call : CollectionCall E α) {k : α → Run β} (t : Transcript)
    (hk : ∀ a, Tame (k a)) :
    Makes (exchange f (call.exchange client) >>= k) t (call.exchange client).makes :=
  (makes_exchange hf (call.expects client) t).bind hk

/-- **The requests of a command on qubes.** -/
theorem makes_qubes (m : Machine) (o : GlobalOptions) (console : Console) (c : QubeCommand)
    (t : Transcript) :
    Makes (qubes m o console c) t (c.requests (m.agrees o) console.client) := by
  cases c with
  | list options runningOnly =>
      exact (makes_entities _ _ _ _ t).bind fun qubes => tame_report o _
  | get id =>
      exact makes_call (Failure.blamesUrl_ofEntity "qube" id) console.client
        (CollectionCall.get (E := Qube) id) t fun qube => tame_report o _
  | create name zone workload spec =>
      rw [QubeCommand.requests, ← specOf_eq]
      exact makes_call Failure.blamesUrl_ofApi console.client
        (CollectionCall.create (E := Qube) (⟨name, zone, workload, specOf spec⟩ : QubeDraft)) t
          fun qube => (tame_notify o _).bind fun _ => tame_report o _
  | update id name spec =>
      rw [QubeCommand.requests, ← specOf_eq]
      unfold qubes
      refine makes_unless fun _ => ?_
      exact makes_call (Failure.blamesUrl_ofEntity "qube" id) console.client
        (CollectionCall.update (E := Qube) id (⟨name, specOf spec⟩ : QubePatch)) t
          fun qube => tame_report o _
  | delete id =>
      exact makes_confirm (makes_call (Failure.blamesUrl_ofEntity "qube" id) console.client
        (CollectionCall.delete (E := Qube) id) t fun _ => tame_notify o _)
  | transition id action =>
      exact makes_call (Failure.blamesUrl_ofEntity "qube" id) console.client
        (CollectionCall.transition (E := Qube) id action) t fun qube => tame_notify o _

/-- The requests of a change that depends on the zone as it is. -/
theorem makes_changed (client : Client) (id : String) (patch : Zone → ZonePatch)
    {k : Zone → Run β} (t : Transcript) (hk : ∀ a, Tame (k a)) :
    Makes (exchange (.ofEntity "zone" id) (client.get Zone id) >>= fun zone =>
        exchange (.ofEntity "zone" id) (client.update Zone id (patch zone)) >>= k) t
      ((client.get Zone id).makes ++
        match ((client.get Zone id).run t.link).1 with
        | .ok zone => (client.update Zone id (patch zone)).makes
        | .error _ => []) := by
  have hblames := Failure.blamesUrl_ofEntity "zone" id
  have hget := makes_exchange hblames ((CollectionCall.get (E := Zone) id).expects client) t
  have hrun := run_exchange (.ofEntity "zone" id) (client.get Zone id) t
  cases hresult : ((client.get Zone id).run t.link).1 with
  | error error =>
      rw [hresult] at hrun
      rw [List.append_nil]
      exact hget.bind_error hrun
  | ok zone =>
      rw [hresult] at hrun
      have hput := makes_call hblames client
        (CollectionCall.update (E := Zone) id (patch zone))
        { t with link := ((client.get Zone id).run t.link).2 } hk
      refine hget.bind_ok hrun hput fun f hf h => ?_
      -- a change whose request cannot be made would not have been asked for
      rcases Client.request_get_update (E := Zone) client id (patch zone) with
        ⟨error, hnone, -⟩ | ⟨_, changed, -, hchanged, -⟩
      · exact Exchange.makes_of_error hnone
      · have hnone := hput.usage f hf h
        cases (Exchange.makes_of_request hchanged).symm.trans hnone

/-- **The requests of a command on zones.** -/
theorem makes_zones (m : Machine) (o : GlobalOptions) (console : Console) (c : ZoneCommand)
    (t : Transcript) :
    Makes (zones m o console c) t (c.requests (m.agrees o) console.client t.link) := by
  cases c with
  | list options connectedOnly =>
      exact (makes_entities _ _ _ _ t).bind fun zones => tame_report o _
  | get id =>
      exact makes_call (Failure.blamesUrl_ofEntity "zone" id) console.client
        (CollectionCall.get (E := Zone) id) t fun zone => tame_report o _
  | create name provider flags =>
      unfold zones ZoneCommand.requests
      refine makes_unless fun _ => ?_
      exact makes_call Failure.blamesUrl_ofApi console.client
        (CollectionCall.create (E := Zone) (⟨name, provider, flags.applyTo .empty⟩ : ZoneDraft)) t
          fun zone => (tame_notify o _).bind fun _ => tame_report o _
  | update id name flags =>
      unfold zones ZoneCommand.requests
      refine makes_unless fun _ => ?_
      by_cases hflags : flags = .none
      · rw [if_pos hflags, ZoneFlags.isEmpty, decide_eq_true hflags]
        exact makes_call (Failure.blamesUrl_ofEntity "zone" id) console.client
          (CollectionCall.update (E := Zone) id (⟨name, none⟩ : ZonePatch)) t
            fun zone => tame_report o _
      · rw [if_neg hflags, ZoneFlags.isEmpty, decide_eq_false hflags]
        exact makes_changed console.client id
          (fun zone => ⟨name, some (flags.applyTo zone.config)⟩) t fun zone => tame_report o _
  | delete id =>
      exact makes_confirm (makes_call (Failure.blamesUrl_ofEntity "zone" id) console.client
        (CollectionCall.delete (E := Zone) id) t fun _ => tame_notify o _)
  | transition id action =>
      exact makes_call (Failure.blamesUrl_ofEntity "zone" id) console.client
        (CollectionCall.transition (E := Zone) id action) t fun zone => tame_notify o _

theorem makes_health (o : GlobalOptions) (console : Console) (t : Transcript) :
    Makes (health o console) t console.client.health.makes := by
  refine (makes_exchange Failure.blamesUrl_ofApi (Call.health.expects console.client) t).bind
    fun health => (tame_report o _).bind fun _ => ?_
  split
  · exact tame_throw (show 1 ≠ 2 by decide)
  · exact tame_pure ()

theorem makes_status (o : GlobalOptions) (console : Console) (t : Transcript) :
    Makes (status o console) t console.client.status.makes :=
  (makes_exchange Failure.blamesUrl_ofApi (Call.status.expects console.client) t).bind
    fun _ => tame_report o _

end Run

/-! ### Commands -/

/-- The requests of a command over a link.  One on the settings makes none. -/
def Command.requests (agrees : String → Bool) (client : Client) (link : Link) :
    Command → List Request
  | zones c => c.requests agrees client link
  | qubes c => c.requests agrees client
  | health => client.health.makes
  | status => client.status.makes
  | settings _ | completions _ => []

/-- Does the command ask for a console? -/
def Command.isServerBound : Command → Bool
  | zones _ | qubes _ | health | status => true
  | settings _ | completions _ => false

namespace Surroundings

/-- What is there when a command starts. -/
def start (around : Surroundings) : Transcript := ⟨"", "", around.file, .ofNetwork around.network⟩

/-- The console that the settings and the options make, or why they make none. -/
def console (around : Surroundings) (o : GlobalOptions) : Except Failure Console :=
  match (Settings.loadOrUsual around.file.text? around.env).resolve o with
  | .error f => .error f
  | .ok config => (Console.make config).mapError .ofApi

/-- Colours make no difference to a console. -/
theorem console_on (around : Surroundings) (o : GlobalOptions) (m : Machine) :
    around.console (o.on m around.env) = around.console o := rfl

end Surroundings

/-- The requests of an invocation whose command runs on a machine. -/
def Invocation.requests (i : Invocation) (around : Surroundings) (m : Machine) : List Request :=
  match around.console i.options with
  | .ok console =>
    i.command.requests (m.agrees i.options) console.client (.ofNetwork around.network)
  | .error _ => []

namespace Run

/-- **To make a console** changes nothing. -/
theorem run_console (around : Surroundings) (o : GlobalOptions) :
    (console around.env o).run.run around.start = (around.console o, around.start) := by
  have hsettings := run_settings around.env around.start
  rw [console, run_bind_ok hsettings, Surroundings.console]
  show (orFail id ((Settings.loadOrUsual around.file.text? around.env).resolve o) >>= fun config =>
    orFail .ofApi (Console.make config)).run.run around.start = _
  cases (Settings.loadOrUsual around.file.text? around.env).resolve o with
  | error f => rfl
  | ok config =>
      rw [run_bind_ok (run_orFail_ok id config around.start)]
      exact run_orFail .ofApi (Console.make config) around.start

/-- The requests of a run on a console. -/
theorem makes_console (around : Surroundings) (o : GlobalOptions) {k : Console → Run Unit}
    {made : Console → List Request}
    (hk : ∀ console, Makes (k console) around.start (made console)) :
    Makes (console around.env o >>= k) around.start
      (match around.console o with
      | .ok console => made console
      | .error _ => []) := by
  have hrun := run_console around o
  have hnone : Makes (console around.env o) around.start [] := by
    refine ⟨?_, ?_, fun _ _ _ => rfl⟩
    · rw [hrun]
      rfl
    · rw [hrun]
  cases hconsole : around.console o with
  | error f => exact hnone.bind_error (hrun.trans (by rw [hconsole]))
  | ok console =>
      exact hnone.bind_ok (hrun.trans (by rw [hconsole])) (hk console) fun _ _ _ => rfl

/-- **The requests of a command** that asks for a console. -/
theorem makes_command (m : Machine) (around : Surroundings) (i : Invocation)
    (h : i.command.isServerBound = true) :
    Makes (command m around (i.options.on m around.env) i.command) around.start
      (i.requests around m) := by
  obtain ⟨c, o⟩ := i
  cases c with
  | zones c =>
      exact makes_console around _ fun console => makes_zones m _ console c around.start
  | qubes c =>
      exact makes_console around _ fun console => makes_qubes m _ console c around.start
  | health => exact makes_console around _ fun console => makes_health _ console around.start
  | status => exact makes_console around _ fun console => makes_status _ console around.start
  | settings c => cases h
  | completions shell => cases h

end Run

end ZoneConsole
