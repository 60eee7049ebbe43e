import ZoneConsole.Proofs.Api.Rejection
import ZoneConsole.Proofs.Command.Discipline
import ZoneConsole.Proofs.Store.Publication

/-!
# What failed loads show

A load that fails, for whatever reason, leaves the plain text of its error in the store, and the
command that lists a collection fails with it.  That text is never empty: only a rejection could
have nothing to say, and every rejection says something.  A store in which only the latest request
counts makes one exception.  It discards the answer to a load that another one has overtaken, be
it an error or not.

* **`CollectionCall.error_shown`** — the error of every call on a collection has a text.
* **`Store.error_load`** — what a load that fails leaves in a store that is in use.
* **`Run.run_entities_error`** — a list of entities fails with the load.
* **`failures_shown`** — all of it, from the body of a rejection to the end of an invocation.
-/

namespace ZoneConsole

variable {α : Type}

/-! ### Errors of calls -/

/-- An error that is no rejection has a text. -/
theorem ApiError.plain_ne_empty {e : ApiError} (h : e.status? = none) : e.plain ≠ "" := by
  cases e with
  | transport cause url =>
      cases url with
      | none =>
          show "HTTP transport error: " ++ cause.message ≠ ""
          simp
      | some url =>
          show "HTTP transport error: " ++ cause.message ++ " for url (" ++ url.write ++ ")" ≠ ""
          simp
  | invalidUrl u =>
      show "Invalid URL: " ++ u.message ≠ ""
      simp
  | rejected status code message details => cases h
  | undecodable message body =>
      show "Deserialization error: " ++ message ≠ ""
      simp

/-- A request that gets no answer fails as one, whatever keeps the answer away. -/
theorem Request.exists_transport {r : Request} {link : Link} {error : ApiError}
    (h : (r.send link).1 = .error error) : ∃ cause url, error = .transport cause url := by
  have hfate : (r.course link.network).fate.response = .error error := h
  cases hcourse : (r.course link.network).fate with
  | answered status body complete =>
      rw [hcourse] at hfate
      cases hfate
  | failed cause url =>
      rw [hcourse] at hfate
      exact ⟨cause, _, (Except.error.inj hfate).symm⟩

/-- An answer that is read as an error gives one with a text. -/
theorem Exchange.Expects.read_shown {e : Exchange α} {expected : Option (Codec α)}
    (he : e.Expects expected) {r : Response} {error : ApiError} (h : e.read r = .error error) :
    error.plain ≠ "" := by
  cases hstatus : isSuccess r.status with
  | false =>
      obtain rfl := Except.error.inj ((he.read_of_rejecting hstatus).symm.trans h)
      obtain ⟨code, message, details, hrejected, -, hmessage⟩ :=
        ApiError.ofBody_shown r.status (r.body.getD "")
      rw [Response.rejection, hrejected]
      exact hmessage
  | true =>
      cases expected with
      | none =>
          obtain ⟨a, ha⟩ := he
          simp [ha, hstatus] at h
      | some codec =>
          have hbody := Response.bodyRead codec hstatus
          rw [← he, h] at hbody
          generalize r.body = body at hbody
          cases hbody with
          | brokenOff => exact ApiError.plain_ne_empty rfl
          | undecodable message hdecode => exact ApiError.plain_ne_empty rfl

namespace CollectionCall

variable {E : Type} [Resource E]

/-- A request that cannot be made has no URL. -/
theorem exists_invalidUrl {c : Client} {call : CollectionCall E α} {error : ApiError}
    (h : (call.exchange c).request = .error error) : ∃ u, error = .invalidUrl u := by
  obtain ⟨method, rest, pairs, body, hrequest⟩ := call.exists_endpoint c
  rw [hrequest, Client.endpoint] at h
  split at h
  · cases h
  · exact ⟨_, (Except.error.inj h).symm⟩

/-- **The error of every call** on a collection has a text, whatever went wrong. -/
theorem error_shown (c : Client) (call : CollectionCall E α) {link : Link} {error : ApiError}
    (h : ((call.exchange c).run link).1 = .error error) : error.plain ≠ "" := by
  rw [Exchange.run_fst, Exchange.met] at h
  split at h
  · rename_i error' hrequest
    obtain ⟨u, rfl⟩ := exists_invalidUrl hrequest
    obtain rfl := Except.error.inj h
    exact ApiError.plain_ne_empty rfl
  · rename_i r hrequest
    cases hsent : (r.send link).1 with
    | error error' =>
        obtain ⟨cause, url, rfl⟩ := Request.exists_transport hsent
        rw [hsent] at h
        obtain rfl := Except.error.inj h
        exact ApiError.plain_ne_empty rfl
    | ok response =>
        rw [hsent] at h
        exact (call.expects c).read_shown h

end CollectionCall

theorem Client.list_error_shown {E : Type} [Resource E] {client : Client} {options : ListOptions}
    {link : Link} {e : ApiError} (h : ((client.list E options).run link).1 = .error e) :
    e.plain ≠ "" :=
  CollectionCall.error_shown client (.list options) h

/-! ### Stores -/

section Stores

variable {E : Type} [Resource E]

/-- A load ends with the entities of the page that its call gives, or with the error of the
    call. -/
theorem Operation.event_load (client : Client) (link : Link) (token : Nat)
    (options : ListOptions) :
    (load options : Operation E).event token ((load options : Operation E).met client link) =
      .loadEnded token (((client.list E options).run link).1.map Resource.items) := by
  rw [Exchange.run_fst]
  show StoreEvent.loadEnded token ((client.list E options).met link >>= _) = _
  cases (client.list E options).met link <;> rfl

namespace Store

variable {s : Store E} {client : Client} {link : Link} {options : ListOptions} {e : ApiError}

/-- The error of a load that counts is kept. -/
theorem error_apply (h : s.Live) {token : Nat} (hcounts : s.counts token = true) :
    (s.apply (.loadEnded token (.error e))).state.error = some e.plain := by
  have hledger := ledger_apply h (.loadEnded token (.error e))
  have hcounted : s.ledger.counts token = true := hcounts
  rw [Ledger.apply, if_pos hcounted] at hledger
  exact congrArg (·.collection.error) hledger

/-- **A load that fails** leaves its error in a store that is in use, unless it is discarded. -/
theorem error_load (h : s.Live) (between : List (Activity E))
    (hfails : ((client.list E options).run link).1 = .error e) :
    let op : Operation E := .load options
    let waiting := (s.start op).1.after between
    let ended := waiting.conclude op (s.start op).2 (op.met client link)
    if s.ordering = .latestRequest ∧ between.any Activity.supersedes = true then
      ended.1 = waiting
    else ended.1.state.error = some e.plain := by
  intro op waiting ended
  have hlive : waiting.Live := (live_after (live_apply h .loadStarted) between).1
  have hcounts := counts_startLoad h between
  have hended : ended.1 = waiting.apply (.loadEnded s.startLoad.issued (.error e)) := by
    show waiting.apply (op.event s.startLoad.issued (op.met client link)) = _
    rw [Operation.event_load, hfails]
    rfl
  rw [hended]
  split
  · rename_i hsuperseded
    have hdiscarded := Bool.eq_false_iff.2 fun hc => hcounts.1 hc hsuperseded
    exact (publishes_apply hlive _).2 hdiscarded
  · rename_i hsettled
    exact error_apply hlive (hcounts.2 hsettled)

/-- An operation that is performed at once starts, meets an answer and ends. -/
theorem perform_fst (client : Client) (s : Store E) (op : Operation E) (link : Link) :
    (s.perform client op link).1 =
      ((s.start op).1.conclude op (s.start op).2 (op.met client link)).1 := by
  unfold perform Operation.met
  cases op.request client <;> rfl

/-- A load that is performed at once is not discarded. -/
theorem error_perform (h : s.Live) (hfails : ((client.list E options).run link).1 = .error e) :
    (s.perform client (.load options) link).1.state.error = some e.plain := by
  rw [perform_fst]
  have hload := error_load h [] hfails
  rwa [if_neg (by simp)] at hload

end Store

end Stores

/-! ### Commands -/

namespace Run

section Entities

variable {E : Type} [Resource E] {client : Client} {options : ListOptions} {t : Transcript}
  {e : ApiError}

/-- A run fails with the load. -/
theorem run_load_error {store : Store E} (h : store.Live)
    (hfails : ((client.list E options).run t.link).1 = .error e) :
    ((load client store options).run.run t).1 =
      .error (.loadFailed (Resource.collection E) e.plain) := by
  rw [run_load, loaded, Store.error_perform h hfails]

/-- **A list of entities fails with the load**, with a view as without one. -/
theorem run_entities_error {store : Store E} (h : store.Live)
    (hfails : ((client.list E options).run t.link).1 = .error e)
    (view : Option (Collection E → List (Shared E))) :
    ((entities client store options view).run.run t).1 =
      .error (.loadFailed (Resource.collection E) e.plain) := by
  cases view with
  | none => exact fst_bind_error (run_load_error h hfails) _
  | some project =>
      have hviewed := (Store.live_act h (.session (.addView "shown" project) nofun)).1
      exact fst_bind_error (run_load_error hviewed hfails) _

end Entities

/-- A command that asks for a console fails as it does on that console. -/
theorem run_console_error {around : Surroundings} {o : GlobalOptions} {c : Console}
    (hconsole : around.console o = .ok c) {k : Console → Run Unit} {f : Failure}
    (hk : ((k c).run.run around.start).1 = .error f) :
    ((console around.env o >>= k).run.run around.start).1 = .error f := by
  have hrun := run_console around o
  rw [hconsole] at hrun
  rwa [run_bind_ok hrun]

end Run

/-- A list command of a collection meets an error. -/
inductive Command.LoadFails (client : Client) (link : Link) : Command → String → ApiError → Prop
  | zones {options : ListOptions} {connectedOnly : Bool} {e : ApiError}
      (h : ((client.list Zone options).run link).1 = .error e) :
      LoadFails client link (.zones (.list options connectedOnly)) "zones" e
  | qubes {options : ListOptions} {runningOnly : Bool} {e : ApiError}
      (h : ((client.list Qube options).run link).1 = .error e) :
      LoadFails client link (.qubes (.list options runningOnly)) "qubes" e

/-- The stores of a console that can be made are in use. -/
theorem Surroundings.live_console {around : Surroundings} {o : GlobalOptions} {c : Console}
    (h : around.console o = .ok c) : c.zones.Live ∧ c.qubes.Live := by
  unfold console at h
  split at h
  · cases h
  · rename_i config hconfig
    cases hmake : Console.make config with
    | error e =>
        rw [hmake] at h
        cases h
    | ok made =>
        rw [hmake] at h
        obtain rfl := Except.ok.inj h
        obtain ⟨client, -, rfl⟩ := exists_of_map_ok hmake
        exact ⟨Store.live_make _, Store.live_make _⟩

/-- **A list command fails with its load**, and with the text of the error. -/
theorem Command.LoadFails.shown {around : Surroundings} {words : List String} {i : Invocation}
    {c : Console} {name : String} {e : ApiError}
    (hread : Invocation.read around.env words = .ok i)
    (hconsole : around.console i.options = .ok c)
    (h : i.command.LoadFails c.client (.ofNetwork around.network) name e) (m : Machine) :
    e.plain ≠ "" ∧ ∃ t, invoke around words m = .ran (some (.loadFailed name e.plain)) t := by
  obtain ⟨hzones, hqubes⟩ := around.live_console hconsole
  have hcommand : e.plain ≠ "" ∧
      ((Run.command m around (i.options.on m around.env) i.command).run.run around.start).1 =
        .error (.loadFailed name e.plain) := by
    obtain ⟨command, o⟩ := i
    cases h with
    | zones hfails =>
        have hlist := Run.run_entities_error (t := around.start) hzones hfails
        exact ⟨Client.list_error_shown hfails,
          Run.run_console_error hconsole (Run.fst_bind_error (hlist _) _)⟩
    | qubes hfails =>
        have hlist := Run.run_entities_error (t := around.start) hqubes hfails
        exact ⟨Client.list_error_shown hfails,
          Run.run_console_error hconsole (Run.fst_bind_error (hlist _) _)⟩
  rw [invoke_eq hread, hcommand.2]
  exact ⟨hcommand.1, _, rfl⟩

/-- **What failures show.**  Whatever its status and its body, a rejection has that status, a code
    and a message, and the details that a body of the documented shape has.  A load that fails,
    for whatever reason, leaves a text in the store, in every store that is in use and whatever
    happens to it while the load is under way, unless only the latest request counts and another
    load or a reset came after its start: then the store stays the very same.  A list command
    fails with the load, and shows the text. -/
theorem failures_shown :
    (∀ (status : Nat) (body : String), ∃ code message details,
      ApiError.ofBody status body = .rejected status code message details ∧
      code ≠ "" ∧ message ≠ "" ∧
      ∀ members, Rejection.Written body members → Rejection.Documented members →
        Rejection.ShowsDetails members details) ∧
    (∀ (E : Type) [Resource E] (ordering : LoadOrdering) (before between : List (Activity E))
        (client : Client) (link : Link) (options : ListOptions) (e : ApiError),
      ((client.list E options).run link).1 = .error e →
      let op : Operation E := .load options
      let s := (Store.make ordering : Store E).after before
      let waiting := (s.start op).1.after between
      let ended := waiting.conclude op (s.start op).2 (op.met client link)
      e.plain ≠ "" ∧
        if ordering = .latestRequest ∧ between.any Activity.supersedes = true then
          ended.1 = waiting
        else ended.1.state.error = some e.plain) ∧
    ∀ (around : Surroundings) (words : List String) (i : Invocation) (c : Console)
        (name : String) (e : ApiError) (m : Machine),
      Invocation.read around.env words = .ok i → around.console i.options = .ok c →
      i.command.LoadFails c.client (.ofNetwork around.network) name e →
      e.plain ≠ "" ∧ ∃ t, invoke around words m = .ran (some (.loadFailed name e.plain)) t := by
  -- what a body says, what a store keeps of it, and what a command shows of that
  refine ⟨fun status body => ?_, ?_, ?_⟩
  · obtain ⟨code, message, details, hrejected, hcode, hmessage⟩ :=
      ApiError.ofBody_shown status body
    refine ⟨code, message, details, hrejected, hcode, hmessage, fun members hwritten h => ?_⟩
    have hdetails := Rejection.showsDetails_ofBody status hwritten h
    rwa [hrejected] at hdetails
  · intro E _ ordering before between client link options e hfails op s waiting ended
    obtain ⟨hlive, hordering, -⟩ := Store.live_after (Store.live_make ordering) before
    have hload := Store.error_load hlive between hfails
    rw [hordering] at hload
    exact ⟨Client.list_error_shown hfails, hload⟩
  · intro around words i c name e m hread hconsole h
    exact h.shown hread hconsole m

/-- What a server may say of single fields of a qube. -/
def refusedFields : List (String × Data) := [("size", .str "too big"), ("spot", .bool true)]

/-- What it may say of a qube for which there is no room. -/
def refusal : List (String × Data) :=
  [("error", .str "no room"), ("code", .nat 42), ("details", .map refusedFields)]

theorem refusal_plain : (Data.map refusal).Plain := by
  have hcode : 42 < UInt64.size := by decide
  simp [refusal, refusedFields, Data.Plain, Data.PlainMembers, Data.Distinct, Data.nat, hcode]

theorem refusal_documented :
    Rejection.Documented (refusal.map fun (n, d) => (n, Reading.ofData d)) where
  once := by decide
  text := by simp [refusal, Reading.ofData]
  tree := by
    have hcode : ∃ d, (Reading.ofData (.nat 42)).tree 126 = .ok d := ⟨_, rfl⟩
    have hdetails : ∃ d, (Reading.ofData (.map refusedFields)).tree 126 = .ok d := ⟨_, rfl⟩
    simp [refusal, hcode, hdetails]
  other := by simp [refusal, Rejection.documented]

/-- No settings, and a server that is not available. -/
def unavailable : Surroundings where
  env := []
  directory := "/home/op/.config/qubes-air"
  file := .absent
  network := .script [.answer 503 [] true]

/-- The options of a command line without any. -/
def usualOptions : GlobalOptions := ⟨none, none, none, .table, .auto, false, false, false, none⟩

/-- A refusal with details shows them, a load that is refused leaves a text, and so does a list of
    zones. -/
theorem failures_shown_refused :
    (∃ code message details inner,
      ApiError.ofBody 409 (String.ofList (Json.compact (.map refusal))) =
        .rejected 409 code message (some details) ∧
      Reading.ofMembers refusedFields = Reading.named inner ∧
      Rejection.Describes inner details) ∧
    (∃ e, ((EntityCall.consoleLan.list Zone .empty).run (.ofNetwork unavailable.network)).1 =
        .error e ∧
      let s : Store Zone := .make .latestRequest
      let load : Operation Zone := .load .empty
      ((s.start load).1.conclude load (s.start load).2
        (load.met EntityCall.consoleLan (.ofNetwork unavailable.network))).1.state.error =
          some e.plain ∧ e.plain ≠ "") ∧
    ∃ message t, message ≠ "" ∧
      invoke unavailable ["zones", "list"] = .ran (some (.loadFailed "zones" message)) t := by
  obtain ⟨hbodies, hstores, hlists⟩ := failures_shown
  refine ⟨?_, ?_, ?_⟩
  · obtain ⟨code, message, details, hrejected, -, -, hshows⟩ :=
      hbodies 409 (String.ofList (Json.compact (.map refusal)))
    obtain ⟨inner, shown, hinner, rfl, hdescribes⟩ :=
      (hshows _ (Rejection.written_compact refusal_plain) refusal_documented).object _ _
        (.tail _ (.tail _ (.head _)))
    exact ⟨code, message, shown, inner, hrejected, hinner, hdescribes⟩
  · have hsome : (errorOf? ((EntityCall.consoleLan.list Zone .empty).run
        (.ofNetwork unavailable.network)).1).isSome = true := by decide +kernel
    obtain ⟨e, he⟩ := Option.isSome_iff_exists.1 hsome
    have hfails := eq_error_of_errorOf? he
    obtain ⟨hplain, hstate⟩ := hstores Zone .latestRequest [] [] _ _ _ e hfails
    rw [if_neg (by simp)] at hstate
    exact ⟨e, hfails, hstate, hplain⟩
  · have hwords : (Invocation.read unavailable.env ["zones", "list"]).toOption =
        some ⟨.zones (.list .empty false), usualOptions⟩ := by decide +kernel
    have hrefused : ((unavailable.console usualOptions).toOption.map fun c =>
        (errorOf? ((c.client.list Zone .empty).run (.ofNetwork unavailable.network)).1).isSome) =
          some true := by decide +kernel
    obtain ⟨c, hc, hsome⟩ := Option.map_eq_some_iff.1 hrefused
    obtain ⟨e, he⟩ := Option.isSome_iff_exists.1 hsome
    obtain ⟨hplain, t, hran⟩ := hlists _ _ _ c "zones" e .usual (eq_ok_of_toOption hwords)
      (eq_ok_of_toOption hc) (.zones (eq_error_of_errorOf? he))
    exact ⟨e.plain, t, hplain, hran⟩

/-- **An overtaken load that fails leaves no error** where only the latest request counts, and of
    a body with a number that no value can hold nothing is shown. -/
theorem failure_discarded :
    let link : Link := .ofNetwork unavailable.network
    let load : Operation Zone := .load .empty
    let s : Store Zone := .make .latestRequest
    let waiting := (s.start load).1.after [.event .loadStarted, .event (.loadEnded 2 (.ok []))]
    (∃ e, ((EntityCall.consoleLan.list Zone .empty).run link).1 = .error e) ∧
    (waiting.conclude load (s.start load).2 (load.met EntityCall.consoleLan link)).1.state.error =
      none ∧
    (ApiError.ofBody 409 "\x7b\"details\":\x7b\"size\":1e999\x7d\x7d").details? = none := by
  intro link load s waiting
  have hsome : (errorOf? ((EntityCall.consoleLan.list Zone .empty).run link).1).isSome = true := by
    decide +kernel
  obtain ⟨e, he⟩ := Option.isSome_iff_exists.1 hsome
  exact ⟨⟨e, eq_error_of_errorOf? he⟩, by decide +kernel, by decide +kernel⟩

end ZoneConsole
