import ZoneConsole.Proofs.Command.Requests

/-!
# What invocations may do

A command line that is used wrongly does nothing.  A command that reads makes one request for it,
and one that changes something makes one request that does; only a change of connection settings
asks for the zone before.  A command that fails leaves the file of settings as it was.

All of this is about the requests that commands make.  What is sent for them is another matter.

* **`invoke_eq`** — an invocation ends as the run of its command does.
* **`Command.requests_reading`**, **`Command.requests_changing`** — the requests of commands, by
  what they are for.
* **`ZoneCommand.requests_asked`** — a change of connection settings follows an answer.
* **`Run.guarded_settingsCommand`** — a command on the settings that fails leaves the file as it
  was.
* **`invoke_linkAfter`** — over the link an invocation makes its requests.
* **`Invocation.asks`** — they are what the command may ask for.
-/

namespace ZoneConsole

variable {α : Type}

/-! ### Endings -/

/-- The link after an ending.  A command line that is refused leaves it as it was. -/
def Ending.linkAfter (before : Link) : Ending → Link
  | refused _ => before
  | ran _ t => t.link

/-- The failure that a run has ended with. -/
def failureOf : Except Failure Unit → Option Failure
  | .ok _ => none
  | .error f => some f

namespace Surroundings

variable (around : Surroundings) (words : List String) (m : Machine)

/-- The requests that a command line makes.  One that is refused makes none. -/
def made : List Request :=
  match Invocation.read around.env words with
  | .ok i => i.requests around m
  | .error _ => []

/-- All that is sent for a command line. -/
def sent : List Request := (Link.ofNetwork around.network).wire (around.made words m)

/-- What is sent for a command line beside the requests that it makes. -/
def hops : List Request := (Link.ofNetwork around.network).hops (around.made words m)

end Surroundings

section Reading

variable {around : Surroundings} {words : List String} {i : Invocation}
  (hread : Invocation.read around.env words = .ok i) (m : Machine)
include hread

/-- **An invocation that is read** ends as the run of its command does. -/
theorem invoke_eq : invoke around words m =
    .ran (failureOf ((Run.command m around (i.options.on m around.env) i.command).run.run
        around.start).1)
      ((Run.command m around (i.options.on m around.env) i.command).run.run around.start).2 := by
  rw [invoke, hread]
  show i.run around m = _
  rw [Invocation.run, Surroundings.start]
  rcases (Run.command m around (i.options.on m around.env) i.command).run.run
    ⟨"", "", around.file, .ofNetwork around.network⟩ with ⟨result, t⟩
  cases result <;> rfl

theorem made_of_read : around.made words m = i.requests around m := by
  rw [Surroundings.made, hread]

end Reading

/-! ### Requests by what they are for -/

/-- Does the command only read? -/
def ZoneCommand.isReading : ZoneCommand → Bool
  | list _ _ | get _ => true
  | create _ _ _ | update _ _ _ | delete _ | transition _ _ => false

@[inherit_doc ZoneCommand.isReading]
def QubeCommand.isReading : QubeCommand → Bool
  | list _ _ | get _ => true
  | create _ _ _ _ | update _ _ _ | delete _ | transition _ _ => false

@[inherit_doc ZoneCommand.isReading]
def Command.isReading : Command → Bool
  | zones c => c.isReading
  | qubes c => c.isReading
  | health | status => true
  | settings _ | completions _ => false

/-- Those of some requests that change something. -/
def changesOf (rs : List Request) : List Request := rs.filter (·.method ≠ .get)

/-- There is one request at most, and it changes something. -/
structure ChangesOnce (rs : List Request) : Prop where
  length : rs.length ≤ 1
  method : ∀ r ∈ rs, r.method ≠ .get

theorem changesOnce_nil : ChangesOnce [] := ⟨Nat.zero_le 1, fun _ hr => absurd hr List.not_mem_nil⟩

theorem changesOnce_makes {method : Method} (hmethod : method ≠ .get) (url : Except ApiError Url)
    (body : Option String) (read : Response → Except ApiError α) :
    ChangesOnce (Client.exchange method url body read).makes := by
  refine ⟨Exchange.length_makes_le _, fun r hr => ?_⟩
  rw [Client.method_of_mem_makes hr]
  exact hmethod

theorem changesOnce_unless {refused : Bool} {rs : List Request} (h : ChangesOnce rs) :
    ChangesOnce (if refused then [] else rs) := by
  cases refused with
  | true => exact changesOnce_nil
  | false => exact h

theorem changesOnce_if {agreed : Bool} {rs : List Request} (h : ChangesOnce rs) :
    ChangesOnce (if agreed then rs else []) := by
  cases agreed with
  | true => exact h
  | false => exact changesOnce_nil

/-- Of requests that are no more than one no more than one changes something. -/
theorem length_changesOf_le {rs : List Request} (h : rs.length ≤ 1) :
    (changesOf rs).length ≤ 1 :=
  Nat.le_trans (List.length_filter_le _ _) h

/-- There is one request at most, and it reads. -/
structure ReadsOnce (rs : List Request) : Prop where
  length : rs.length ≤ 1
  method : ∀ r ∈ rs, r.method = .get

theorem readsOnce_nil : ReadsOnce [] := ⟨Nat.zero_le 1, fun _ hr => absurd hr List.not_mem_nil⟩

/-- Of requests that read none changes something. -/
theorem ReadsOnce.changesOf_eq_nil {rs : List Request} (h : ReadsOnce rs) : changesOf rs = [] :=
  List.filter_eq_nil_iff.2 fun r hr => by simp [h.method r hr]

theorem ReadsOnce.sublist {rs rs' : List Request} (h : ReadsOnce rs) (hsub : rs'.Sublist rs) :
    ReadsOnce rs' :=
  ⟨Nat.le_trans hsub.length_le h.length, fun r hr => h.method r (hsub.subset hr)⟩

theorem readsOnce_makes (url : Except ApiError Url) (read : Response → Except ApiError α) :
    ReadsOnce (Client.exchange .get url none read).makes :=
  ⟨Exchange.length_makes_le _, fun _ hr => Client.method_of_mem_makes hr⟩

/-- **A command that reads** makes one request for it at most. -/
theorem Command.requests_reading {c : Command} (hc : c.isReading = true)
    (agrees : String → Bool) (client : Client) (link : Link) :
    ReadsOnce (c.requests agrees client link) := by
  cases c with
  | zones c =>
      cases c with
      | list _ _ | get _ => exact readsOnce_makes _ _
      | create _ _ _ | update _ _ _ | delete _ | transition _ _ => cases hc
  | qubes c =>
      cases c with
      | list _ _ | get _ => exact readsOnce_makes _ _
      | create _ _ _ _ | update _ _ _ | delete _ | transition _ _ => cases hc
  | health | status => exact readsOnce_makes _ _
  | settings _ | completions _ => cases hc

/-- The command changes connection settings of a zone. -/
def Command.Reconnects (c : Command) : Prop :=
  ∃ id name flags, c = .zones (.update id name flags) ∧ flags ≠ .none

/-- **A command that changes something** makes one request that does at most, and no other one
    unless it changes connection settings. -/
theorem Command.requests_changing {c : Command} (hc : c.isReading = false)
    (hsettings : ¬ c.Reconnects) (agrees : String → Bool) (client : Client) (link : Link) :
    ChangesOnce (c.requests agrees client link) := by
  cases c with
  | zones c =>
      cases c with
      | list _ _ | get _ => cases hc
      | create _ _ _ => exact changesOnce_unless (changesOnce_makes (by decide) _ _ _)
      | update id name flags =>
          have hnone : flags = .none :=
            Decidable.of_not_not fun h => hsettings ⟨id, name, flags, rfl, h⟩
          rw [hnone, Command.requests, ZoneCommand.requests_update_empty]
          exact changesOnce_unless (changesOnce_makes (by decide) _ _ _)
      | delete _ => exact changesOnce_if (changesOnce_makes (by decide) _ _ _)
      | transition _ _ => exact changesOnce_makes (by decide) _ _ _
  | qubes c =>
      cases c with
      | list _ _ | get _ => cases hc
      | create _ _ _ _ => exact changesOnce_makes (by decide) _ _ _
      | update _ _ _ => exact changesOnce_unless (changesOnce_makes (by decide) _ _ _)
      | delete _ => exact changesOnce_if (changesOnce_makes (by decide) _ _ _)
      | transition _ _ => exact changesOnce_makes (by decide) _ _ _
  | health | status => cases hc
  | settings _ | completions _ => exact changesOnce_nil

/-- **Connection settings are changed after an answer**: the one request for the zone, or after
    it has been given the zone the one request that changes it, at the same place. -/
theorem ZoneCommand.requests_asked (agrees : String → Bool) (client : Client) (link : Link)
    (id : String) (name : Option String) {flags : ZoneFlags} (hflags : flags ≠ .none) :
    ReadsOnce ((update id name flags).requests agrees client link) ∨
      ∃ asked changed zone, (update id name flags).requests agrees client link = [asked, changed] ∧
        (client.get Zone id).request = .ok asked ∧ asked.method = .get ∧
        ((client.get Zone id).run link).1 = .ok zone ∧
        changed.method = .put ∧ changed.url = asked.url := by
  rw [requests_update_given agrees client link id name hflags]
  cases hresult : ((client.get Zone id).run link).1 with
  | error error =>
      rw [List.append_nil]
      exact .inl (readsOnce_makes _ _)
  | ok zone =>
      rcases Client.request_get_update (E := Zone) client id
        (⟨name, some (flags.applyTo zone.config)⟩ : ZonePatch) with
        ⟨error, hasked, -⟩ | ⟨asked, changed, hasked, hchanged, hget, hput, hurl⟩
      · -- without a request there would have been no zone
        rw [Exchange.run_of_error hasked] at hresult
        cases hresult
      · refine .inr ⟨asked, changed, zone, ?_, hasked, hget, rfl, hput, hurl⟩
        rw [Exchange.makes_of_request hasked]
        exact congrArg ([asked] ++ ·) (Exchange.makes_of_request hchanged)

/-! ### Commands on the settings -/

namespace Run

/-- The run makes no request, and if it fails it leaves the file as it was. -/
def Guarded (x : Run α) (t : Transcript) : Prop :=
  (x.run.run t).2.link = t.link ∧ ∀ f, (x.run.run t).1 = .error f → (x.run.run t).2.file = t.file

theorem Tame.guarded {x : Run α} (h : Tame x) (t : Transcript) : Guarded x t := by
  obtain ⟨hbehind, -⟩ := h t
  exact ⟨hbehind.link, fun _ _ => hbehind.file⟩

theorem guarded_throw (f : Failure) (t : Transcript) : Guarded (throw f : Run α) t :=
  ⟨rfl, fun _ _ => rfl⟩

/-- Before settings are written nothing has happened, and afterwards nothing fails. -/
theorem guarded_save (m : Machine) (s : Settings) {k : Run Unit} (hk : Shows k)
    (t : Transcript) : Guarded (save m s >>= fun _ => k) t := by
  have hsave := run_save m s t
  cases hresult : s.save t.file (m.arrange s.profiles) with
  | ok file =>
      rw [hresult] at hsave
      obtain ⟨hok, hbehind⟩ := hk { t with file }
      rw [Guarded, run_bind_ok hsave, hok]
      exact ⟨hbehind.link, nofun⟩
  | error e =>
      rw [hresult] at hsave
      rw [Guarded, run_bind_error hsave]
      exact ⟨rfl, fun _ _ => rfl⟩

/-- What is shown before a run does not count. -/
theorem guarded_after {x : Run Unit} (hx : Shows x) {k : Run α} (hk : ∀ t, Guarded k t)
    (t : Transcript) : Guarded (x >>= fun _ => k) t := by
  obtain ⟨hok, hbehind⟩ := hx t
  obtain ⟨hlink, hfile⟩ := hk (x.run.run t).2
  rw [Guarded, run_bind_ok (Prod.ext hok rfl)]
  exact ⟨hlink.trans hbehind.link, fun f hf => (hfile f hf).trans hbehind.file⟩

/-- To set up a profile makes no request, and the file is as it was unless the profile is in it. -/
theorem guarded_setUp (m : Machine) (env : Environment) (directory : String) (t : Transcript) :
    Guarded (setUp m env directory) t := by
  refine guarded_after (shows_note _) (guarded_after (shows_note _)
    (guarded_after (shows_note _) fun t => ?_)) t
  cases m.user with
  | none => exact guarded_throw _ t
  | some user =>
      rw [Guarded, run_bind_ok (run_settings env t)]
      refine guarded_save m _ ?_ t
      exact (shows_note _).bind ((shows_note _).bind ((shows_note _).bind
        ((shows_note _).bind (shows_note _))))

/-- **A command on the settings** makes no request, and if it fails it leaves the file as it
    was. -/
theorem guarded_settingsCommand (m : Machine) (o : GlobalOptions) (env : Environment)
    (directory : String) (c : SettingsCommand) (t : Transcript) :
    Guarded (settingsCommand m o env directory c) t := by
  have hsettings := run_settings env t
  cases c with
  | init => exact guarded_setUp m env directory t
  | view => exact ((tame_settings env).bind fun s => tame_report o _).guarded t
  | path => exact (shows_print _).tame.guarded t
  | assign key value =>
      rw [settingsCommand, Guarded, run_bind_ok hsettings]
      generalize Settings.loadOrUsual t.file.text? env = s
      show Guarded (orFail id (s.assign (s.activeName o) key value) >>= fun new => do
        save m new
        notify o _) t
      cases s.assign (s.activeName o) key value with
      | ok new => exact guarded_save m new (shows_notify o _) t
      | error f => exact guarded_throw f t
  | profiles =>
      refine Tame.guarded ((tame_settings env).bind fun s => ?_) t
      split
      · exact (shows_note _).tame
      · exact tame_forM (fun _ => (shows_print _).tame) s.profiles
  | use name =>
      rw [settingsCommand, Guarded, run_bind_ok hsettings]
      generalize Settings.loadOrUsual t.file.text? env = s
      cases s.profile? name with
      | some _ => exact guarded_save m _ (shows_notify o _) t
      | none => exact guarded_throw _ t

end Run

/-! ### Invocations -/

/-- A command that needs no console makes no request. -/
theorem Invocation.requests_local {i : Invocation} (h : i.command.isServerBound = false)
    (around : Surroundings) (m : Machine) : i.requests around m = [] := by
  obtain ⟨c, o⟩ := i
  unfold requests
  cases c with
  | zones _ | qubes _ | health | status => cases h
  | settings _ | completions _ => cases around.console o <;> rfl

/-- The run of an invocation has made the requests of the invocation.  If it fails it leaves the
    file as it was, as does every command that asks for a console; and it tells of a wrong use only
    if no request was made. -/
structure Invocation.Leaves (i : Invocation) (around : Surroundings) (m : Machine)
    (result : Except Failure Unit) (t : Transcript) : Prop where
  link : t.link = (Link.ofNetwork around.network).after (i.requests around m)
  file : ∀ f, result = .error f → t.file = around.file
  bound : i.command.isServerBound = true → t.file = around.file
  usage : ∀ f, result = .error f → f.exitCode = 2 → i.requests around m = []

theorem Run.leaves_command (i : Invocation) (around : Surroundings) (m : Machine) :
    i.Leaves around m
      ((command m around (i.options.on m around.env) i.command).run.run around.start).1
      ((command m around (i.options.on m around.env) i.command).run.run around.start).2 := by
  cases hbound : i.command.isServerBound with
  | true =>
      have hmakes := makes_command m around i hbound
      exact ⟨hmakes.link, fun _ _ => hmakes.file, fun _ => hmakes.file, hmakes.usage⟩
  | false =>
      have hnone := Invocation.requests_local hbound around m
      have hguarded : Guarded (command m around (i.options.on m around.env) i.command)
          around.start := by
        obtain ⟨c, o⟩ := i
        cases c with
        | zones _ | qubes _ | health | status => cases hbound
        | settings c => exact guarded_settingsCommand m _ around.env around.directory c around.start
        | completions shell => exact (shows_write _).tame.guarded around.start
      refine ⟨?_, hguarded.2, fun h => absurd (h.symm.trans hbound) (by decide), fun _ _ _ => hnone⟩
      rw [hnone]
      exact hguarded.1

/-- **Over the link an invocation makes its requests**, one after the other. -/
theorem invoke_linkAfter (around : Surroundings) (words : List String) (m : Machine) :
    (invoke around words m).linkAfter (.ofNetwork around.network) =
      (Link.ofNetwork around.network).after (around.made words m) := by
  cases hread : Invocation.read around.env words with
  | error e =>
      rw [invoke, Surroundings.made, hread]
      rfl
  | ok i =>
      rw [invoke_eq hread, made_of_read hread]
      exact (Run.leaves_command i around m).link

/-- The requests of an invocation are those of its command on some console, or none. -/
theorem Invocation.requests_cases (i : Invocation) (around : Surroundings) (m : Machine) :
    i.requests around m = [] ∨ ∃ console, around.console i.options = .ok console ∧
      i.requests around m =
        i.command.requests (m.agrees i.options) console.client (.ofNetwork around.network) := by
  unfold requests
  cases around.console i.options with
  | ok console => exact .inr ⟨console, rfl, rfl⟩
  | error f => exact .inl rfl

/-- One request asks for a zone on the console of an invocation, and the other one changes the zone
    that it was given for it, at the same place. -/
structure Invocation.Follows (i : Invocation) (around : Surroundings) (id : String)
    (asked changed : Request) : Prop where
  given : ∃ console zone, around.console i.options = .ok console ∧
    (console.client.get Zone id).request = .ok asked ∧
    ((console.client.get Zone id).run (.ofNetwork around.network)).1 = .ok zone
  asks : asked.method = .get
  changes : changed.method = .put
  url : changed.url = asked.url

/-- What an invocation may ask for.  A command that reads makes one request for it at most.  One
    that changes something makes one request that does at most, and no other one unless it changes
    connection settings; then it asks for the zone, and if it was given that it changes it. -/
structure Invocation.Asks (i : Invocation) (around : Surroundings) (made : List Request) :
    Prop where
  reading : i.command.isReading = true → ReadsOnce made
  changing : i.command.isReading = false → ¬ i.command.Reconnects → ChangesOnce made
  reconnecting : ∀ id name flags, i.command = .zones (.update id name flags) → flags ≠ .none →
    ReadsOnce made ∨
      ∃ asked changed, made = [asked, changed] ∧ i.Follows around id asked changed

/-- **What an invocation asks for** is what it may ask for. -/
theorem Invocation.asks (i : Invocation) (around : Surroundings) (m : Machine) :
    i.Asks around (i.requests around m) := by
  rcases i.requests_cases around m with hnone | ⟨console, hconsole, hrequests⟩
  · rw [hnone]
    exact ⟨fun _ => readsOnce_nil, fun _ _ => changesOnce_nil, fun _ _ _ _ _ => .inl readsOnce_nil⟩
  rw [hrequests]
  refine ⟨fun h => Command.requests_reading h _ _ _,
    fun h hplain => Command.requests_changing h hplain _ _ _, ?_⟩
  intro id name flags hcommand hflags
  rw [hcommand]
  rcases ZoneCommand.requests_asked (m.agrees i.options) console.client
      (.ofNetwork around.network) id name hflags with
    hreads | ⟨asked, changed, zone, hmade, hasked, hget, hzone, hput, hurl⟩
  · exact .inl hreads
  · exact .inr ⟨asked, changed, hmade, ⟨console, zone, hconsole, hasked, hzone⟩, hget, hput, hurl⟩

end ZoneConsole
