import ZoneConsole.Proofs.Api.Verdict
import ZoneConsole.Proofs.Command.Loads
import ZoneConsole.Proofs.Command.Sent

/-!
# What exit codes tell

A command that asks something of the server ends with the exit code of what came of the request
that decides it.  There is one such request, but for a change of connection settings: that asks for
the zone first, and is decided there unless it is given the zone.  Errors become failures in two
ways, with the name of an entity and without, and both keep the exit code.  A list command tells
only whether its load has succeeded.

* **`Verdict.exitCode`** — the exit code that tells a verdict.
* **`Failure.grades_ofApi`**, **`Failure.grades_ofEntity`** — failures tell the verdicts of the
  errors they are made of.
* **`Command.verdict`** — the verdict on the request that decides a command.
* **`Run.ends_zones`**, **`Run.ends_qubes`**, **`Run.ends_health`** — commands end with the code
  of that.
* **`exitCodes_exact`** — so does every invocation that asks for a console and is used rightly.
-/

namespace ZoneConsole

variable {α β : Type}

/-- The exit code that tells a verdict. -/
def Verdict.exitCode : Verdict → Nat
  | done => 0
  | unaddressed => 2
  | refused status => if status = 404 then 4 else if status = 409 then 6 else 1
  | unreached => 7
  | timedOut => 8
  | unreadable | unhealthy => 1

/-! ### Failures -/

namespace Failure

/-- Errors become failures whose exit codes tell the verdicts of the errors. -/
def Grades (f : ApiError → Failure) : Prop := ∀ e, (f e).exitCode = e.verdict.exitCode

theorem grades_ofApi : Grades ofApi := by
  intro e
  cases e with
  | transport cause url => cases cause <;> rfl
  | invalidUrl u => rfl
  | undecodable message body => rfl
  | rejected status code message details =>
      -- the two tables ask for the statuses in different orders
      show (if status = 409 then 6 else if status = 404 then 4 else 1) =
        if status = 404 then 4 else if status = 409 then 6 else 1
      split <;> split <;> omega

/-- To name the entity that the server does not know keeps the exit code. -/
theorem grades_ofEntity (noun id : String) : Grades (ofEntity noun id) := by
  intro e
  unfold ofEntity
  split
  · rename_i hmissing
    obtain ⟨code, message, details, rfl⟩ := (e.status?_eq_some 404).1 (of_decide_eq_true hmissing)
    rfl
  · exact grades_ofApi e

end Failure

/-! ### Runs -/

namespace Run

/-- The exit code of what a run ends with. -/
def resultCode : Except Failure α → Nat
  | .ok _ => 0
  | .error f => f.exitCode

/-- From a transcript the run ends with an exit code. -/
def Ends (x : Run α) (t : Transcript) (code : Nat) : Prop := resultCode (x.run.run t).1 = code

variable {x : Run α} {k : α → Run β} {t : Transcript} {code : Nat}

/-- A run that only prints something ends well. -/
theorem Shows.ends {x : Run Unit} (h : Shows x) (t : Transcript) : Ends x t 0 := by
  rw [Ends, (h t).1]
  rfl

/-- A run in two parts ends as the second one does, if the first one ends well. -/
theorem ends_bind_ok {a : α} {next : Transcript} (hrun : x.run.run t = (.ok a, next))
    (h : Ends (k a) next code) : Ends (x >>= k) t code := by
  rw [Ends, run_bind_ok hrun]
  exact h

/-- A run that fails with its first part has the exit code of that. -/
theorem ends_bind_error {f : Failure} (h : (x.run.run t).1 = .error f) :
    Ends (x >>= k) t f.exitCode := by
  rw [Ends, fst_bind_error h]
  rfl

/-- A run that is not refused ends as it goes on. -/
theorem ends_unless {refused : Bool} {f : Failure} {k : Unit → Run α} (hrefused : refused = false)
    (h : Ends (k ()) t code) : Ends (if refused then throw f >>= k else k ()) t code := by
  rw [hrefused]
  exact h

/-- A run that has been confirmed ends as it goes on. -/
theorem ends_confirm {m : Machine} {o : GlobalOptions} {action : String} {k : Run Unit}
    (hagrees : m.agrees o action = true) (h : Ends k t code) :
    Ends (confirm m o action >>= fun agreed => if agreed = true then k else pure ()) t code := by
  unfold Machine.agrees at hagrees
  unfold confirm
  cases hyes : o.yes with
  | true => exact h
  | false =>
      rw [hyes, Bool.false_or] at hagrees
      cases huser : m.user with
      | none =>
          rw [huser] at hagrees
          cases hagrees
      | some user =>
          rw [huser] at hagrees
          have hagreed : user.agrees action = true := hagrees
          show Ends (if user.agrees action = true then k else pure ()) t code
          rw [if_pos hagreed]
          exact h

/-- **A call that fails** decides the run, which has the exit code of the verdict on it. -/
theorem ends_call_error {f : ApiError → Failure} (hf : Failure.Grades f) {client : Client}
    (call : Call α) {e : ApiError} (he : ((call.exchange client).run t.link).1 = .error e) :
    Ends (exchange f (call.exchange client) >>= k) t (call.verdict client t.link).exitCode := by
  have hrun := run_exchange f (call.exchange client) t
  have hverdict : call.verdict client t.link = e.verdict := by
    rw [call.verdict_eq, he]
    rfl
  rw [he] at hrun
  rw [hverdict, ← hf e]
  exact ends_bind_error (congrArg Prod.fst hrun)

/-- **A call whose answer decides the run**: it ends with the exit code of the verdict, if what is
    done with the answer ends well exactly where the answer is accepted. -/
theorem ends_call {f : ApiError → Failure} (hf : Failure.Grades f) (client : Client)
    (call : Call α) (t : Transcript)
    (hk : ∀ a next, Ends (k a) next (if call.accepts a then 0 else 1)) :
    Ends (exchange f (call.exchange client) >>= k) t (call.verdict client t.link).exitCode := by
  cases hresult : ((call.exchange client).run t.link).1 with
  | error e => exact ends_call_error hf call hresult
  | ok a =>
      have hrun := run_exchange f (call.exchange client) t
      have hverdict : (call.verdict client t.link).exitCode =
          if call.accepts a then 0 else 1 := by
        rw [call.verdict_eq, hresult, resultVerdict]
        cases call.accepts a <;> rfl
      rw [hresult] at hrun
      rw [hverdict]
      exact ends_bind_ok hrun (hk a _)

/-- A call of which every answer is accepted, and only shown. -/
theorem ends_shown {f : ApiError → Failure} (hf : Failure.Grades f) (client : Client)
    (call : Call α) (t : Transcript) {k : α → Run Unit} (haccepts : ∀ a, call.accepts a = true)
    (hk : ∀ a, Shows (k a)) :
    Ends (exchange f (call.exchange client) >>= k) t (call.verdict client t.link).exitCode := by
  refine ends_call hf client call t fun a next => ?_
  rw [haccepts a]
  exact (hk a).ends next

end Run

/-! ### The request that decides a command -/

/-- The verdict on a change that depends on the zone as it is.  The request for the zone decides,
    unless it is given the zone. -/
def ZoneCommand.changeVerdict (client : Client) (link : Link) (id : String)
    (patch : Zone → ZonePatch) : Verdict :=
  match (client.get Zone id).run link with
  | (.ok zone, next) => (Call.zones (.update id (patch zone))).verdict client next
  | (.error _, _) => (Call.zones (.get id)).verdict client link

/-- The verdict on the request that decides a command on zones. -/
def ZoneCommand.verdict (client : Client) (link : Link) : ZoneCommand → Verdict
  | list options _ => (Call.zones (.list options)).verdict client link
  | get id => (Call.zones (.get id)).verdict client link
  | create name provider flags =>
    (Call.zones (.create (⟨name, provider, flags.applyTo .empty⟩ : ZoneDraft))).verdict client link
  | update id name flags =>
    if flags = .none then
      (Call.zones (.update id (⟨name, none⟩ : ZonePatch))).verdict client link
    else changeVerdict client link id fun zone => ⟨name, some (flags.applyTo zone.config)⟩
  | delete id => (Call.zones (.delete id)).verdict client link
  | transition id action => (Call.zones (.transition id action)).verdict client link

/-- The verdict on the request that decides a command on qubes. -/
def QubeCommand.verdict (client : Client) (link : Link) : QubeCommand → Verdict
  | list options _ => (Call.qubes (.list options)).verdict client link
  | get id => (Call.qubes (.get id)).verdict client link
  | create name zone workload spec =>
    (Call.qubes (.create (⟨name, zone, workload, spec.given?⟩ : QubeDraft))).verdict client link
  | update id name spec =>
    (Call.qubes (.update id (⟨name, spec.given?⟩ : QubePatch))).verdict client link
  | delete id => (Call.qubes (.delete id)).verdict client link
  | transition id action => (Call.qubes (.transition id action)).verdict client link

namespace Command

/-- The verdict on the request that decides a command.  One that asks for no console has none. -/
def verdict (client : Client) (link : Link) : Command → Verdict
  | zones c => c.verdict client link
  | qubes c => c.verdict client link
  | health => Call.health.verdict client link
  | status => Call.status.verdict client link
  | settings _ | completions _ => .done

/-- Is the command used rightly?  What it needs beside the words that are required is checked before
    anything is sent: an endpoint for a new zone, something to change, a confirmation. -/
def isChecked (agrees : String → Bool) : Command → Bool
  | zones (.create _ _ flags) => flags.endpoint.getD "" ≠ ""
  | zones (.update _ name flags) => name ≠ none || flags ≠ .none
  | qubes (.update _ name spec) => name ≠ none || spec ≠ .empty
  | zones (.delete id) => agrees (zoneQuestion id)
  | qubes (.delete id) => agrees (qubeQuestion id)
  | _ => true

/-- Does the command list a collection? -/
def isList : Command → Bool
  | zones (.list _ _) | qubes (.list _ _) => true
  | _ => false

/-- The exit code of a command, by the verdict on it: a list command tells success from failure and
    nothing else. -/
def exitCode (c : Command) (v : Verdict) : Nat :=
  if c.isList then (if v = .done then 0 else 1) else v.exitCode

end Command

/-! ### What commands end with -/

namespace Run

variable {m : Machine} {o : GlobalOptions} {console : Console}

/-- **A list of entities** ends well exactly if its load is done, and fails with the same code
    otherwise. -/
theorem ends_entities {E : Type} [Resource E] {client : Client} {options : ListOptions}
    {ordering : LoadOrdering} {t : Transcript} {verdict : Verdict}
    (hverdict : verdict = resultVerdict (fun _ => true) ((client.list E options).run t.link).1)
    (view : Option (Collection E → List (Shared E))) {k : List E → Run Unit}
    (hk : ∀ es, Shows (k es)) :
    Ends (entities client (.make ordering) options view >>= k) t
      (if verdict = .done then 0 else 1) := by
  subst hverdict
  cases hresult : ((client.list E options).run t.link).1 with
  | ok page => exact ends_bind_ok (run_entities_ok ordering hresult view) ((hk _).ends _)
  | error e =>
      have hne : resultVerdict (fun _ : Resource.Page E => true) (.error e) ≠ .done := by
        cases e with
        | transport cause url =>
            cases cause <;> simp [resultVerdict, ApiError.verdict, TransportCause.verdict]
        | invalidUrl _ | rejected _ _ _ _ | undecodable _ _ =>
            simp [resultVerdict, ApiError.verdict]
      rw [if_neg hne]
      exact ends_bind_error (run_entities_error (Store.live_make ordering) hresult view)

/-- **A change that depends on the zone as it is** is decided by the request for the zone, or after
    that has been given the zone by the one that changes it. -/
theorem ends_changed (client : Client) (id : String) (patch : Zone → ZonePatch)
    {k : Zone → Run Unit} (t : Transcript) (hk : ∀ zone, Shows (k zone)) :
    Ends (exchange (.ofEntity "zone" id) (client.get Zone id) >>= fun zone =>
        exchange (.ofEntity "zone" id) (client.update Zone id (patch zone)) >>= k) t
      (ZoneCommand.changeVerdict client t.link id patch).exitCode := by
  have hgrades := Failure.grades_ofEntity "zone" id
  have hrun := run_exchange (.ofEntity "zone" id) (client.get Zone id) t
  -- the second request meets the link as the first one has left it
  unfold ZoneCommand.changeVerdict
  rcases hasked : (client.get Zone id).run t.link with ⟨result, next⟩
  cases result with
  | error e =>
      exact ends_call_error hgrades (.zones (.get id)) (congrArg Prod.fst hasked)
  | ok zone =>
      rw [hasked] at hrun
      refine ends_bind_ok hrun ?_
      exact ends_shown hgrades client (.zones (.update id (patch zone))) { t with link := next }
        (fun _ => rfl) hk

/-- **A command on zones** ends with the exit code of the verdict on the request that decides it. -/
theorem ends_zones {ordering : LoadOrdering} (hstore : console.zones = .make ordering)
    (c : ZoneCommand) (hchecked : (Command.zones c).isChecked (m.agrees o) = true)
    (t : Transcript) :
    Ends (zones m o console c) t
      ((Command.zones c).exitCode (c.verdict console.client t.link)) := by
  cases c with
  | list options connectedOnly =>
      rw [zones, hstore]
      exact ends_entities (Call.verdict_eq console.client (.zones (.list options)) t.link) _
        fun es => shows_report o _
  | get id =>
      exact ends_shown (Failure.grades_ofEntity "zone" id) console.client (.zones (.get id)) t
        (fun _ => rfl) fun zone => shows_report o _
  | create name provider flags =>
      have hgiven : (flags.endpoint.getD "").isEmpty = false := by
        simpa [Command.isChecked] using hchecked
      unfold zones
      refine ends_unless hgiven ?_
      exact ends_shown Failure.grades_ofApi console.client
        (.zones (.create (⟨name, provider, flags.applyTo .empty⟩ : ZoneDraft))) t (fun _ => rfl)
          fun zone => (shows_notify o _).bind (shows_report o _)
  | update id name flags =>
      have hgiven : (name.isNone && flags.isEmpty) = false := by
        cases name with
        | none => simpa [Command.isChecked, ZoneFlags.isEmpty] using hchecked
        | some name => rfl
      -- with flags the zone is asked for first, and one of the two requests decides
      show Ends (zones m o console (.update id name flags)) t (Verdict.exitCode (ite _ _ _))
      unfold zones
      refine ends_unless hgiven ?_
      by_cases hflags : flags = .none
      · rw [if_pos hflags, ZoneFlags.isEmpty, decide_eq_true hflags]
        exact ends_shown (Failure.grades_ofEntity "zone" id) console.client
          (.zones (.update id (⟨name, none⟩ : ZonePatch))) t (fun _ => rfl)
            fun zone => shows_report o _
      · rw [if_neg hflags, ZoneFlags.isEmpty, decide_eq_false hflags]
        exact ends_changed console.client id
          (fun zone => ⟨name, some (flags.applyTo zone.config)⟩) t fun zone => shows_report o _
  | delete id =>
      exact ends_confirm hchecked (ends_shown (Failure.grades_ofEntity "zone" id) console.client
        (.zones (.delete id)) t (fun _ => rfl) fun _ => shows_notify o _)
  | transition id action =>
      exact ends_shown (Failure.grades_ofEntity "zone" id) console.client
        (.zones (.transition id action)) t (fun _ => rfl) fun zone => shows_notify o _

/-- **A command on qubes** does so too. -/
theorem ends_qubes {ordering : LoadOrdering} (hstore : console.qubes = .make ordering)
    (c : QubeCommand) (hchecked : (Command.qubes c).isChecked (m.agrees o) = true)
    (t : Transcript) :
    Ends (qubes m o console c) t
      ((Command.qubes c).exitCode (c.verdict console.client t.link)) := by
  cases c with
  | list options runningOnly =>
      rw [qubes, hstore]
      exact ends_entities (Call.verdict_eq console.client (.qubes (.list options)) t.link) _
        fun es => shows_report o _
  | get id =>
      exact ends_shown (Failure.grades_ofEntity "qube" id) console.client (.qubes (.get id)) t
        (fun _ => rfl) fun qube => shows_report o _
  | create name zone workload spec =>
      rw [QubeCommand.verdict, ← specOf_eq]
      exact ends_shown Failure.grades_ofApi console.client
        (.qubes (.create (⟨name, zone, workload, specOf spec⟩ : QubeDraft))) t (fun _ => rfl)
          fun qube => (shows_notify o _).bind (shows_report o _)
  | update id name spec =>
      -- a change of nothing is refused before any request
      have hgiven : (name.isNone && spec.isEmpty) = false := by
        cases name with
        | none => simpa [Command.isChecked, SpecPatch.isEmpty] using hchecked
        | some name => rfl
      rw [QubeCommand.verdict, ← specOf_eq]
      unfold qubes
      refine ends_unless hgiven ?_
      exact ends_shown (Failure.grades_ofEntity "qube" id) console.client
        (.qubes (.update id (⟨name, specOf spec⟩ : QubePatch))) t (fun _ => rfl)
          fun qube => shows_report o _
  | delete id =>
      exact ends_confirm hchecked (ends_shown (Failure.grades_ofEntity "qube" id) console.client
        (.qubes (.delete id)) t (fun _ => rfl) fun _ => shows_notify o _)
  | transition id action =>
      exact ends_shown (Failure.grades_ofEntity "qube" id) console.client
        (.qubes (.transition id action)) t (fun _ => rfl) fun qube => shows_notify o _

/-- **The health of the server** decides beside the verdict on the answer that tells it. -/
theorem ends_health (o : GlobalOptions) (console : Console) (t : Transcript) :
    Ends (health o console) t (Call.health.verdict console.client t.link).exitCode := by
  refine ends_call Failure.grades_ofApi console.client .health t fun h next => ?_
  obtain ⟨hok, -⟩ := shows_report o (renderOne Health.display o.output o.color.isOn h) next
  refine ends_bind_ok (Prod.ext hok rfl) ?_
  show Ends (if !h.isHealthy then throw (.unhealthy h.status) else pure ()) _
    (if decide (h.status = "healthy") then 0 else 1)
  unfold Health.isHealthy
  cases decide (h.status = "healthy") <;> rfl

theorem ends_status (o : GlobalOptions) (console : Console) (t : Transcript) :
    Ends (status o console) t (Call.status.verdict console.client t.link).exitCode :=
  ends_shown Failure.grades_ofApi console.client .status t (fun _ => rfl)
    fun _ => shows_report o _

end Run

/-! ### Commands that cannot be sent -/

section Unaddressed

variable {client : Client} {link : Link}

/-- A change that depends on the zone as it is cannot be sent exactly if the zone cannot be asked
    for. -/
theorem ZoneCommand.changeVerdict_unaddressed_iff (id : String) (patch : Zone → ZonePatch) :
    changeVerdict client link id patch = .unaddressed ↔ ¬ client.base.HasSegments := by
  unfold changeVerdict
  rcases (client.get Zone id).run link with ⟨result, next⟩
  cases result with
  | ok zone => exact Call.verdict_unaddressed_iff
  | error e => exact Call.verdict_unaddressed_iff

/-- A command on zones has no request exactly if the base has an opaque path. -/
theorem ZoneCommand.unaddressed_iff (c : ZoneCommand) :
    c.verdict client link = .unaddressed ↔ ¬ client.base.HasSegments := by
  cases c with
  | list _ _ | get _ | create _ _ _ | delete _ | transition _ _ =>
      exact Call.verdict_unaddressed_iff
  | update id name flags =>
      show ite _ _ _ = Verdict.unaddressed ↔ _
      split
      · exact Call.verdict_unaddressed_iff
      · exact changeVerdict_unaddressed_iff id _

theorem QubeCommand.unaddressed_iff (c : QubeCommand) :
    c.verdict client link = .unaddressed ↔ ¬ client.base.HasSegments := by
  cases c <;> exact Call.verdict_unaddressed_iff

/-- **A command that asks for a console** has no request exactly if it is not the probe of health
    and the base has an opaque path. -/
theorem Command.unaddressed_iff {c : Command} (hbound : c.isServerBound = true)
    (horigin : client.origin.HasSegments) :
    c.verdict client link = .unaddressed ↔ c ≠ .health ∧ ¬ client.base.HasSegments := by
  cases c with
  | zones c =>
      show c.verdict client link = .unaddressed ↔ _
      simpa using c.unaddressed_iff
  | qubes c =>
      show c.verdict client link = .unaddressed ↔ _
      simpa using c.unaddressed_iff
  | status =>
      have hstatus : Call.status.verdict client link = .unaddressed ↔ ¬ client.base.HasSegments :=
        Call.verdict_unaddressed_iff
      show Call.status.verdict client link = .unaddressed ↔ _
      simpa using hstatus
  | health =>
      have hhealth : Call.health.verdict client link = .unaddressed ↔
        ¬ client.origin.HasSegments := Call.verdict_unaddressed_iff
      refine iff_of_false (fun h => hhealth.1 h horigin) fun h => h.1 rfl
  | settings _ | completions _ => cases hbound

end Unaddressed

/-! ### Invocations -/

/-- Whatever keeps a console from being made is a complaint of a URL. -/
theorem Console.exists_invalidUrl {config : ConsoleConfig} {e : ApiError}
    (h : make config = .error e) : ∃ u, e = .invalidUrl u := by
  have hclient : Client.make config.origin config.apiBase = .error e := by
    rw [make] at h
    cases hmake : Client.make config.origin config.apiBase with
    | ok client =>
        rw [hmake] at h
        cases h
    | error e' =>
        rw [hmake] at h
        exact congrArg _ (Except.error.inj h)
  unfold Client.make at hclient
  split at hclient
  · exact ⟨_, (Except.error.inj hclient).symm⟩
  · split at hclient
    · exact ⟨_, (Except.error.inj hclient).symm⟩
    · cases hclient

/-- **A command that asks for a console** ends with the exit code of the verdict on the request
    that decides it. -/
theorem Run.ends_command {around : Surroundings} {i : Invocation} {c : Console} {m : Machine}
    (hbound : i.command.isServerBound = true)
    (hchecked : i.command.isChecked (m.agrees i.options) = true)
    (hconsole : around.console i.options = .ok c) :
    Ends (command m around (i.options.on m around.env) i.command) around.start
      (i.command.exitCode (i.command.verdict c.client (.ofNetwork around.network))) := by
  obtain ⟨config, -, -, hzones, hqubes⟩ := around.exists_of_console hconsole
  have hrun : (console around.env (i.options.on m around.env)).run.run around.start =
      (.ok c, around.start) := by
    rw [run_console, around.console_on, hconsole]
  rw [← m.agrees_on i.options around.env] at hchecked
  obtain ⟨command, o⟩ := i
  cases command with
  | zones command => exact ends_bind_ok hrun (ends_zones hzones command hchecked around.start)
  | qubes command => exact ends_bind_ok hrun (ends_qubes hqubes command hchecked around.start)
  | health => exact ends_bind_ok hrun (ends_health _ c around.start)
  | status => exact ends_bind_ok hrun (ends_status _ c around.start)
  | settings _ | completions _ => cases hbound

/-- A command that asks for a console and gets none fails with the reason. -/
theorem Run.ends_command_error {around : Surroundings} {i : Invocation} {f : Failure}
    (hbound : i.command.isServerBound = true) (hconsole : around.console i.options = .error f)
    (m : Machine) :
    Ends (command m around (i.options.on m around.env) i.command) around.start f.exitCode := by
  have hrun : ((console around.env (i.options.on m around.env)).run.run around.start).1 =
      .error f := by
    rw [run_console, around.console_on, hconsole]
  obtain ⟨command, o⟩ := i
  cases command with
  | zones _ | qubes _ | health | status => exact ends_bind_error hrun
  | settings _ | completions _ => cases hbound

/-- An invocation ends with the exit code that its run ends with. -/
theorem exitCode_of_ends {around : Surroundings} {words : List String} {i : Invocation}
    {code : Nat} {m : Machine} (hread : Invocation.read around.env words = .ok i)
    (h : Run.Ends (Run.command m around (i.options.on m around.env) i.command) around.start code) :
    (invoke around words m).exitCode = code := by
  rw [invoke_eq hread, ← h]
  generalize (Run.command m around (i.options.on m around.env) i.command).run.run
    around.start = run
  obtain ⟨result, t⟩ := run
  cases result <;> rfl

/-- **What exit codes tell**, for every command line that asks for a console and is used rightly,
    all settings and options that are resolved, and every server and machine.  With a console the
    exit code is that of the verdict on the request that decides the command, and a list command
    tells only whether that is done; the request is missing exactly if the command is not the probe
    of health and the base of the console has an opaque path.  Without one, because the base is no
    URL at all, every such command is used wrongly. -/
theorem exitCodes_exact {around : Surroundings} {words : List String} {i : Invocation}
    {config : ConsoleConfig} {m : Machine} (hread : Invocation.read around.env words = .ok i)
    (hbound : i.command.isServerBound = true)
    (hchecked : i.command.isChecked (m.agrees i.options) = true)
    (hresolve : (Settings.loadOrUsual around.file.text? around.env).resolve i.options =
      .ok config) :
    (∀ c, Console.make config = .ok c →
      let verdict := i.command.verdict c.client (.ofNetwork around.network)
      (invoke around words m).exitCode = i.command.exitCode verdict ∧
        (verdict = .unaddressed ↔ i.command ≠ .health ∧ ¬ c.client.base.HasSegments)) ∧
    ∀ e, Console.make config = .error e → (invoke around words m).exitCode = 2 := by
  constructor
  · intro c hmake verdict
    have hconsole : around.console i.options = .ok c := by
      rw [Surroundings.console, hresolve]
      exact congrArg (Except.mapError _) hmake
    exact ⟨exitCode_of_ends hread (Run.ends_command hbound hchecked hconsole),
      Command.unaddressed_iff hbound (around.origin_hasSegments hconsole)⟩
  · intro e hmake
    have hconsole : around.console i.options = .error (.ofApi e) := by
      rw [Surroundings.console, hresolve]
      exact congrArg (Except.mapError _) hmake
    obtain ⟨u, rfl⟩ := Console.exists_invalidUrl hmake
    exact exitCode_of_ends hread (Run.ends_command_error hbound hconsole m)

/-- No settings, and a server that answers with the zone and then tells of a conflict. -/
def conflicted : Surroundings where
  env := []
  directory := "/home/op/.config/qubes-air"
  file := .absent
  network := .script [.answer 200 (Text.utf8 zoneText.toList) true, .answer 409 [] true]

/-- To move a zone that somebody else is changing ends with 6: the zone was given, and it is the
    second request that decides. -/
theorem exitCodes_exact_conflict : ∃ i config c,
    Invocation.read conflicted.env moveWords = .ok i ∧ i.command.isServerBound = true ∧
    i.command.isChecked (Machine.usual.agrees i.options) = true ∧
    (Settings.loadOrUsual conflicted.file.text? conflicted.env).resolve i.options = .ok config ∧
    Console.make config = .ok c ∧
    i.command.verdict c.client (.ofNetwork conflicted.network) = .refused 409 ∧
    (invoke conflicted moveWords).exitCode = 6 := by
  have hread : (Invocation.read conflicted.env moveWords).toOption = some
      ⟨.zones (.update "z1" none ⟨none, some "eu", none, none, none⟩), usualOptions⟩ := by
    decide +kernel
  have hresolve : ((Settings.loadOrUsual conflicted.file.text? conflicted.env).resolve
      usualOptions).toOption = some (.ofOrigin defaultOrigin) := by decide +kernel
  have hrefused : ((Console.make (.ofOrigin defaultOrigin)).toOption.map fun c =>
      (Command.zones (.update "z1" none ⟨none, some "eu", none, none, none⟩)).verdict c.client
        (.ofNetwork conflicted.network)) = some (.refused 409) := by decide +kernel
  obtain ⟨c, hc, hverdict⟩ := Option.map_eq_some_iff.1 hrefused
  obtain ⟨hcode, -⟩ := (exitCodes_exact (eq_ok_of_toOption hread) rfl rfl
    (eq_ok_of_toOption hresolve)).1 c (eq_ok_of_toOption hc)
  refine ⟨_, _, c, eq_ok_of_toOption hread, rfl, rfl, eq_ok_of_toOption hresolve,
    eq_ok_of_toOption hc, hverdict, ?_⟩
  rw [hcode, hverdict]
  rfl

end ZoneConsole
