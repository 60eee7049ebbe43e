import ZoneConsole.Proofs.Command.Sent

/-!
# What the options of presentation do

Three options say how results are shown: the form of output, its colours, and whether anything is
said at all.  A command that is run with one choice of them does the same as with any other: it
sends the same requests, leaves the same file, and fails for the same reason.

* **`GlobalOptions.unstyled`** — options without those of presentation.
* **`Run.Related`** — two runs that end alike and keep a relation of transcripts.
* **`Run.Styled`** — a relation of transcripts that no report and no notice breaks, under two
  choices of options: two transcripts have the same file and link, or are also both blank.
* **`Run.related_command`** — a command that asks for a console keeps every such relation.
* **`Run.alike_command`** — with two choices of the options every command does the same.
* **`presentation_immaterial`** — so it is for command lines, and one that has nothing to say
  leaves the transcript blank.
-/

namespace ZoneConsole

variable {α β : Type}

/-- The options as they are usual for presentation, and as given otherwise. -/
def GlobalOptions.unstyled (o : GlobalOptions) : GlobalOptions :=
  { o with output := .table, color := .auto, quiet := false }

/-- Why an ending failed, if a command ran and failed. -/
def Ending.failure? : Ending → Option Failure
  | refused _ => none
  | ran failure _ => failure

namespace Run

/-! ### Related runs -/

section Related

variable {R : Transcript → Transcript → Prop}

/-- From related transcripts the runs end alike, and leave related ones. -/
def Related (R : Transcript → Transcript → Prop) (x y : Run α) : Prop :=
  ∀ t u, R t u → (x.run.run t).1 = (y.run.run u).1 ∧ R (x.run.run t).2 (y.run.run u).2

theorem related_pure (a : α) : Related R (pure a : Run α) (pure a) := fun _ _ h => ⟨rfl, h⟩

theorem related_throw (f : Failure) : Related R (throw f : Run α) (throw f) :=
  fun _ _ h => ⟨rfl, h⟩

/-- **Runs in two parts** are related if both parts are. -/
theorem Related.bind {x y : Run α} {k l : α → Run β} (hx : Related R x y)
    (hk : ∀ a, Related R (k a) (l a)) : Related R (x >>= k) (y >>= l) := by
  intro t u h
  have hfirst := hx t u h
  rcases hrun : x.run.run t with ⟨result, next⟩
  rcases hrun' : y.run.run u with ⟨result', next'⟩
  rw [hrun, hrun'] at hfirst
  obtain ⟨hresult, hnext⟩ := hfirst
  obtain rfl : result = result' := hresult
  cases result with
  | ok a =>
      rw [run_bind_ok hrun, run_bind_ok hrun']
      exact hk a next next' hnext
  | error f =>
      rw [run_bind_error hrun, run_bind_error hrun']
      exact ⟨rfl, hnext⟩

theorem related_orFail {ε : Type} (f : ε → Failure) (r : Except ε α) :
    Related R (orFail f r) (orFail f r) := by
  intro t u h
  rw [run_orFail, run_orFail]
  exact ⟨rfl, h⟩

theorem related_forM {f : α → Run PUnit} (h : ∀ a, Related R (f a) (f a)) (list : List α) :
    Related R (list.forM f) (list.forM f) := by
  induction list with
  | nil => exact related_pure _
  | cons a rest ih => exact (h a).bind fun _ => ih

/-- Runs that may be refused for the same reason are related if they are beyond that. -/
theorem related_unless {refused : Bool} {f : Failure} {k l : Unit → Run α}
    (h : Related R (k ()) (l ())) :
    Related R (if refused then throw f >>= k else k ())
      (if refused then throw f >>= l else l ()) := by
  cases refused with
  | true => exact (related_throw f).bind fun _ => h
  | false => exact h

theorem related_confirm (m : Machine) {o p : GlobalOptions} (h : o.yes = p.yes)
    (action : String) : Related R (confirm m o action) (confirm m p action) := by
  unfold confirm
  rw [h]
  cases p.yes with
  | true => exact related_pure true
  | false =>
      cases m.user with
      | none => exact related_throw _
      | some user => exact related_pure (user.agrees action)

/-- Runs that go on only once they have been confirmed. -/
theorem related_agreed {agreed : Bool} {k l : Run Unit} (h : Related R k l) :
    Related R (if agreed = true then k else pure ()) (if agreed = true then l else pure ()) := by
  cases agreed with
  | true => exact h
  | false => exact related_pure ()

/-- The settings are the same wherever the file is. -/
theorem related_settings (hfile : ∀ {t u}, R t u → t.file = u.file) (env : Environment) :
    Related R (settings env) (settings env) := by
  intro t u h
  rw [run_settings, run_settings, hfile h]
  exact ⟨rfl, h⟩

end Related

/-! ### Relations that presentation does not break -/

/-- Related transcripts have the same file and link behind them.  They stay related with another
    link, and after a report or a notice, whatever is said under the one and the other options. -/
structure Styled (R : Transcript → Transcript → Prop) (o p : GlobalOptions) : Prop where
  behind : ∀ {t u}, R t u → SameBehind t u
  link : ∀ {t u} (link : Link), R t u → R { t with link } { u with link }
  reported : ∀ {t u} (text text' : String), R t u → R (reported o text t) (reported p text' u)
  noticed : ∀ {t u} (line line' : String), R t u → R (noticed o line t) (noticed p line' u)

/-- What is behind transcripts is not broken by anything that is said. -/
theorem styled_sameBehind (o p : GlobalOptions) : Styled SameBehind o p where
  behind h := h
  link _ h := ⟨h.file, rfl⟩
  reported text text' h := by
    constructor
    · rw [reported_file, reported_file, h.file]
    · rw [reported_link, reported_link, h.link]
  noticed line line' h := by
    constructor
    · rw [noticed_file, noticed_file, h.file]
    · rw [noticed_link, noticed_link, h.link]

/-- The transcripts have the same file and link, and nothing has been printed. -/
structure BothBlank (t u : Transcript) : Prop where
  behind : SameBehind t u
  out : t.out = "" ∧ u.out = ""
  notes : t.notes = "" ∧ u.notes = ""

/-- Transcripts stay blank if nothing is said. -/
theorem styled_bothBlank {o p : GlobalOptions} (ho : o.quiet = true) (hp : p.quiet = true) :
    Styled BothBlank o p where
  behind h := h.behind
  link _ h := ⟨⟨h.behind.file, rfl⟩, h.out, h.notes⟩
  reported text text' h := by
    unfold Run.reported
    rw [ho, hp]
    exact h
  noticed line line' h := by
    unfold Run.noticed
    rw [ho, hp]
    exact h

/-- What the options of presentation leave. -/
theorem eq_of_unstyled_eq {o p : GlobalOptions} (h : o.unstyled = p.unstyled) :
    o.profile = p.profile ∧ o.server = p.server ∧ o.apiBase = p.apiBase ∧ o.yes = p.yes ∧
      o.insecure = p.insecure ∧ o.timeout = p.timeout := by
  simpa [GlobalOptions.unstyled] using h

/-- Options of presentation have no part in making a console. -/
theorem resolve_eq {o p : GlobalOptions} (h : o.unstyled = p.unstyled) (s : Settings) :
    s.resolve o = s.resolve p := by
  obtain ⟨hprofile, hserver, hbase, -, hinsecure, htimeout⟩ := eq_of_unstyled_eq h
  unfold Settings.resolve
  rw [hprofile, hserver, hbase, hinsecure, htimeout]

section Styles

variable {R : Transcript → Transcript → Prop} {o p : GlobalOptions} (hR : Styled R o p)
include hR

theorem related_report (text text' : String) : Related R (report o text) (report p text') := by
  intro t u h
  rw [run_report, run_report]
  exact ⟨rfl, hR.reported text text' h⟩

theorem related_notify (line line' : String) : Related R (notify o line) (notify p line') := by
  intro t u h
  rw [run_notify, run_notify]
  exact ⟨rfl, hR.noticed line line' h⟩

theorem related_exchange (f : ApiError → Failure) (e : Exchange α) :
    Related R (exchange f e) (exchange f e) := by
  intro t u h
  rw [run_exchange, run_exchange, (hR.behind h).link]
  exact ⟨rfl, hR.link _ h⟩

theorem related_load {E : Type} [Resource E] (client : Client) (store : Store E)
    (options : ListOptions) :
    Related R (load client store options) (load client store options) := by
  intro t u h
  rw [run_load, run_load, (hR.behind h).link]
  exact ⟨rfl, hR.link _ h⟩

theorem related_entities {E : Type} [Resource E] (client : Client) (store : Store E)
    (options : ListOptions) (view : Option (Collection E → List (Shared E))) :
    Related R (entities client store options view) (entities client store options view) := by
  unfold entities
  cases view with
  | none => exact (related_load hR client store options).bind fun _ => related_pure _
  | some project =>
      refine (related_load hR client _ options).bind fun store => ?_
      split
      · exact related_pure _
      · exact related_pure _

theorem related_zones (m : Machine) (hyes : o.yes = p.yes) (console : Console)
    (c : ZoneCommand) : Related R (zones m o console c) (zones m p console c) := by
  cases c with
  | list options connectedOnly =>
      exact (related_entities hR _ _ _ _).bind fun _ => related_report hR _ _
  | get id => exact (related_exchange hR _ _).bind fun _ => related_report hR _ _
  | create name provider flags =>
      unfold zones
      refine related_unless ((related_exchange hR _ _).bind fun _ => ?_)
      exact (related_notify hR _ _).bind fun _ => related_report hR _ _
  | update id name flags =>
      unfold zones
      refine related_unless ?_
      cases flags.isEmpty with
      | true => exact (related_exchange hR _ _).bind fun _ => related_report hR _ _
      | false =>
          exact (related_exchange hR _ _).bind fun _ =>
            (related_exchange hR _ _).bind fun _ => related_report hR _ _
  | delete id =>
      refine (related_confirm m hyes _).bind fun agreed => related_agreed ?_
      exact (related_exchange hR _ _).bind fun _ => related_notify hR _ _
  | transition id action =>
      exact (related_exchange hR _ _).bind fun _ => related_notify hR _ _

theorem related_qubes (m : Machine) (hyes : o.yes = p.yes) (console : Console)
    (c : QubeCommand) : Related R (qubes m o console c) (qubes m p console c) := by
  cases c with
  | list options runningOnly =>
      exact (related_entities hR _ _ _ _).bind fun _ => related_report hR _ _
  | get id => exact (related_exchange hR _ _).bind fun _ => related_report hR _ _
  | create name zone workload spec =>
      refine (related_exchange hR _ _).bind fun _ => ?_
      exact (related_notify hR _ _).bind fun _ => related_report hR _ _
  | update id name spec =>
      unfold qubes
      exact related_unless ((related_exchange hR _ _).bind fun _ => related_report hR _ _)
  | delete id =>
      refine (related_confirm m hyes _).bind fun agreed => related_agreed ?_
      exact (related_exchange hR _ _).bind fun _ => related_notify hR _ _
  | transition id action =>
      exact (related_exchange hR _ _).bind fun _ => related_notify hR _ _

theorem related_health (console : Console) : Related R (health o console) (health p console) := by
  refine (related_exchange hR _ _).bind fun health => ?_
  -- what fails after the report fails under both options
  refine (related_report hR _ _).bind fun _ => ?_
  split
  · exact related_throw _
  · exact related_pure ()

theorem related_status (console : Console) : Related R (status o console) (status p console) :=
  (related_exchange hR _ _).bind fun _ => related_report hR _ _

theorem related_console (h : o.unstyled = p.unstyled) (env : Environment) :
    Related R (console env o) (console env p) := by
  unfold console
  refine (related_settings (fun hrelated => (hR.behind hrelated).file) env).bind fun s => ?_
  rw [resolve_eq h]
  exact (related_orFail _ _).bind fun _ => related_orFail _ _

/-- **A command that asks for a console** keeps what presentation does not break. -/
theorem related_command (h : o.unstyled = p.unstyled) (m : Machine) (around : Surroundings)
    {c : Command} (hbound : c.isServerBound = true) :
    Related R (command m around o c) (command m around p c) := by
  have hyes := (eq_of_unstyled_eq h).2.2.2.1
  have hconsole := related_console hR h around.env
  cases c with
  | zones c => exact hconsole.bind fun console => related_zones hR m hyes console c
  | qubes c => exact hconsole.bind fun console => related_qubes hR m hyes console c
  | health => exact hconsole.bind fun console => related_health hR console
  | status => exact hconsole.bind fun console => related_status hR console
  | settings _ | completions _ => cases hbound

end Styles

/-! ### Runs with the same file and link behind them -/

/-- Runs that only print leave what is behind, whatever they print. -/
theorem Shows.related {x y : Run Unit} (hx : Shows x) (hy : Shows y) : Related SameBehind x y := by
  intro t u h
  obtain ⟨hresult, hbehind⟩ := hx t
  obtain ⟨hresult', hbehind'⟩ := hy u
  exact ⟨hresult.trans hresult'.symm, hbehind.file.trans (h.file.trans hbehind'.file.symm),
    hbehind.link.trans (h.link.trans hbehind'.link.symm)⟩

theorem alike_save (m : Machine) (s : Settings) :
    Related SameBehind (save m s) (save m s) := by
  intro t u h
  rw [run_save, run_save, h.file]
  cases s.save u.file (m.arrange s.profiles) with
  | ok file => exact ⟨rfl, rfl, h.link⟩
  | error e => exact ⟨rfl, h⟩

/-- To set up a profile is not a matter of the options. -/
theorem alike_setUp (m : Machine) (env : Environment) (directory : String) :
    Related SameBehind (setUp m env directory) (setUp m env directory) := by
  have hnote := fun line => (shows_note line).related (shows_note line)
  refine (hnote _).bind fun _ => (hnote _).bind fun _ => (hnote _).bind fun _ => ?_
  cases m.user with
  | none => exact related_throw _
  | some user =>
      refine (related_settings SameBehind.file env).bind fun s => ?_
      exact (alike_save m _).bind fun _ => (hnote _).bind fun _ => (hnote _).bind fun _ =>
        (hnote _).bind fun _ => (hnote _).bind fun _ => hnote _

theorem alike_settingsCommand (m : Machine) {o p : GlobalOptions}
    (h : o.unstyled = p.unstyled) (env : Environment) (directory : String) (c : SettingsCommand) :
    Related SameBehind (settingsCommand m o env directory c)
      (settingsCommand m p env directory c) := by
  have hR := styled_sameBehind o p
  have hprint := fun line => (shows_print line).related (shows_print line)
  have hnote := fun line => (shows_note line).related (shows_note line)
  have hsettings := related_settings SameBehind.file env
  cases c with
  | init => exact alike_setUp m env directory
  | view => exact hsettings.bind fun _ => related_report hR _ _
  | path => exact hprint _
  | assign key value =>
      refine hsettings.bind fun s => ?_
      have hname : s.activeName o = s.activeName p := by
        rw [Settings.activeName, (eq_of_unstyled_eq h).1]
        rfl
      rw [hname]
      exact (related_orFail _ _).bind fun new =>
        (alike_save m new).bind fun _ => related_notify hR _ _
  | profiles =>
      refine hsettings.bind fun s => ?_
      split
      · exact hnote _
      · exact related_forM (fun _ => hprint _) s.profiles
  | use name =>
      refine hsettings.bind fun s => ?_
      cases s.profile? name with
      | some _ => exact (alike_save m _).bind fun _ => related_notify hR _ _
      | none => exact related_throw _

/-- **A command does the same** with any choice of the options of presentation. -/
theorem alike_command {o p : GlobalOptions} (h : o.unstyled = p.unstyled) (m : Machine)
    (around : Surroundings) (c : Command) :
    Related SameBehind (command m around o c) (command m around p c) := by
  cases hbound : c.isServerBound with
  | true => exact related_command (styled_sameBehind o p) h m around hbound
  | false =>
      cases c with
      | zones _ | qubes _ | health | status => cases hbound
      | settings c => exact alike_settingsCommand m h around.env around.directory c
      | completions shell => exact (shows_write _).related (shows_write _)

/-- **With nothing to say** a command that asks for a console prints nothing. -/
theorem blank_command {o : GlobalOptions} (hquiet : o.quiet = true) (m : Machine)
    (around : Surroundings) {c : Command} (hbound : c.isServerBound = true) :
    ((command m around o c).run.run around.start).2.out = "" ∧
      ((command m around o c).run.run around.start).2.notes = "" := by
  have hblank := (related_command (styled_bothBlank hquiet hquiet) rfl m around hbound
    around.start around.start ⟨⟨rfl, rfl⟩, ⟨rfl, rfl⟩, ⟨rfl, rfl⟩⟩).2
  exact ⟨hblank.out.1, hblank.notes.1⟩

end Run

/-! ### Command lines -/

/-- Whether colours are settled or not is a matter of presentation. -/
theorem GlobalOptions.unstyled_on (o : GlobalOptions) (m : Machine) (env : Environment) :
    (o.on m env).unstyled = o.unstyled := rfl

/-- The requests of an invocation do not depend on the options of presentation. -/
theorem Invocation.requests_eq {i j : Invocation} (hcommand : i.command = j.command)
    (hoptions : i.options.unstyled = j.options.unstyled) (around : Surroundings) (m : Machine) :
    i.requests around m = j.requests around m := by
  have hyes := (Run.eq_of_unstyled_eq hoptions).2.2.2.1
  have hagrees : m.agrees i.options = m.agrees j.options := by
    funext action
    rw [Machine.agrees, hyes]
    rfl
  unfold Invocation.requests Surroundings.console
  rw [hcommand, hagrees, Run.resolve_eq hoptions]

/-- **How results are shown makes no difference to what is done**, for every command line and all
    that it finds, on every machine.  Two command lines that are read as the same command, with
    options that differ in nothing but the form of output, its colours and whether anything is
    said, make the same requests, for which the same is sent, leave the same link and the same
    file, and end with the same exit code and the same failure.  If nothing is to be said, a command
    on the server prints nothing at all. -/
theorem presentation_immaterial {around : Surroundings} {words words' : List String}
    {i j : Invocation} (hi : Invocation.read around.env words = .ok i)
    (hj : Invocation.read around.env words' = .ok j) (hcommand : i.command = j.command)
    (hoptions : i.options.unstyled = j.options.unstyled) (m : Machine) :
    around.made words m = around.made words' m ∧ around.sent words m = around.sent words' m ∧
    (invoke around words m).linkAfter (.ofNetwork around.network) =
      (invoke around words' m).linkAfter (.ofNetwork around.network) ∧
    (invoke around words m).fileAfter around.file =
      (invoke around words' m).fileAfter around.file ∧
    (invoke around words m).exitCode = (invoke around words' m).exitCode ∧
    (invoke around words m).failure? = (invoke around words' m).failure? ∧
    (i.command.isServerBound = true → i.options.quiet = true →
      ∃ failure t, invoke around words m = .ran failure t ∧ t.out = "" ∧ t.notes = "") := by
  have hmade : around.made words m = around.made words' m := by
    rw [made_of_read hi, made_of_read hj]
    exact Invocation.requests_eq hcommand hoptions around m
  have halike := Run.alike_command
    (((i.options.unstyled_on m around.env).trans hoptions).trans
      (j.options.unstyled_on m around.env).symm) m around i.command around.start around.start
        ⟨rfl, rfl⟩
  have hblank (hbound : i.command.isServerBound = true) (hquiet : i.options.quiet = true) :=
    Run.blank_command (o := i.options.on m around.env) hquiet m around hbound
  refine ⟨hmade, by rw [Surroundings.sent, Surroundings.sent, hmade], ?_⟩
  rw [invoke_eq hi, invoke_eq hj, ← hcommand]
  -- from here on nothing of the runs matters but how they compare
  generalize (Run.command m around (i.options.on m around.env) i.command).run.run
    around.start = run at halike hblank ⊢
  generalize (Run.command m around (j.options.on m around.env) i.command).run.run
    around.start = run' at halike ⊢
  obtain ⟨result, t⟩ := run
  obtain ⟨result', u⟩ := run'
  obtain ⟨hresult, hbehind⟩ := halike
  obtain rfl : result = result' := hresult
  refine ⟨hbehind.link, hbehind.file, ?_, rfl,
    fun hbound hquiet => ⟨failureOf result, t, rfl, hblank hbound hquiet⟩⟩
  cases result <;> rfl

/-- A server that answers with a page of one zone. -/
def onePage : Surroundings :=
  scripted [.answer 200
    (Text.utf8 ("\x7b\"zones\":[" ++ zoneText ++ "],\"total\":1\x7d").toList) true]

/-- A table that nobody wants to see asks for the same page as a list in JSON, which is printed, and
    both end well. -/
theorem presentation_immaterial_listed : ∃ i j t,
    Invocation.read onePage.env ["-q", "--color", "always", "zones", "list"] = .ok i ∧
    Invocation.read onePage.env ["zones", "list", "-o", "json-compact"] = .ok j ∧
    i.command = j.command ∧ i.options.unstyled = j.options.unstyled ∧ i.options ≠ j.options ∧
    invoke onePage ["-q", "--color", "always", "zones", "list"] = .ran none t ∧
    t.out = "" ∧ t.notes = "" ∧ t.link.requests.length = 1 ∧
    ∃ u, invoke onePage ["zones", "list", "-o", "json-compact"] = .ran none u ∧ u.out ≠ "" ∧
      u.link.requests = t.link.requests := by
  have hquiet :
      ((Invocation.read onePage.env ["-q", "--color", "always", "zones", "list"]).toOption) =
        some ⟨.zones (.list .empty false),
          ⟨none, none, none, .table, .always, true, false, false, none⟩⟩ := by decide +kernel
  have hplain :
      ((Invocation.read onePage.env ["zones", "list", "-o", "json-compact"]).toOption) =
        some ⟨.zones (.list .empty false),
          ⟨none, none, none, .compactJson, .auto, false, false, false, none⟩⟩ := by decide +kernel
  have hi := eq_ok_of_toOption hquiet
  have hj := eq_ok_of_toOption hplain
  -- the list is printed, and of the other run nothing but its form has to be known
  have hshown : ((invoke onePage ["zones", "list", "-o", "json-compact"]).done?.map fun u =>
      (u.out.isEmpty, u.link.requests.length)) = some (false, 1) := by decide +kernel
  obtain ⟨u, hdone, hu⟩ := Option.map_eq_some_iff.1 hshown
  obtain ⟨hout, hlength⟩ := Prod.mk.inj hu
  replace hu := Ending.eq_of_done? hdone
  obtain ⟨-, -, hlink, -, -, hfailure, hmute⟩ := presentation_immaterial hi hj rfl rfl .usual
  obtain ⟨failure, t, hran, hblank, hnotes⟩ := hmute rfl rfl
  rw [hran, hu] at hfailure hlink
  obtain rfl : failure = none := hfailure
  have hsame : t.link = u.link := hlink
  refine ⟨_, _, t, hi, hj, rfl, rfl, by decide, hran, hblank, hnotes, ?_, u, hu, ?_, ?_⟩
  · rw [hsame, hlength]
  · intro hnothing
    rw [hnothing] at hout
    cases hout
  · rw [hsame]

end ZoneConsole
