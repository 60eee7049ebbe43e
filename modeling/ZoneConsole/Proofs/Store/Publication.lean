import ZoneConsole.Proofs.Api.Answers
import ZoneConsole.Proofs.Api.Endpoint
import ZoneConsole.Proofs.Observable.Channels
import ZoneConsole.Proofs.Store.Ledger

/-!
# What operations publish

A store is used while requests are under way: events happen to it, callbacks come and go, and in
between answers arrive.  What an operation publishes at its two ends does not depend on any of
that, but for one thing: where only the latest request counts, the answer to a load is discarded
if another load or a reset came after its start.

* **`Hub.sourceRecord_publish`** — among passive callbacks a publication is recorded once, with
  one call of each entry of the registry and nothing else.
* **`Store.PublishesOnce`** — one more snapshot, of which every entry is told once.
* **`Store.publishes_apply`** — an event publishes once, or the store stays the very same.
* **`Activity`** — what may happen to a store, and `Store.after`, the store after it.
* **`publications`** — what each operation publishes, whatever is under way and however its
  request ends.
-/

namespace ZoneConsole

/-! ### Rounds of passive callbacks -/

namespace Hub

variable {σ τ κ : Type} {behave : κ → σ → Reaction σ τ κ}

/-- What is recorded of the source: its publications, and the calls of its registry. -/
def sourceRecord (h : Hub σ τ κ) : List (Event σ τ) := h.events.filter Event.ofSource

/-- A passive reaction publishes nothing and calls nobody. -/
theorem calm_react {call : Nat → Callback κ → σ → Nat → Hub σ τ κ → Hub σ τ κ}
    {r : Reaction σ τ κ} (hr : r.Passive) (h : Hub σ τ κ) : Calm h (react call r h) := by
  induction hr generalizing h with
  | done => exact .refl h
  | report entry _ ih => exact (calm_left h entry).trans (ih _)
  | read _ ih => exact ih h.source.value h
  | count _ ih => exact ih h.source.count h
  | remember _ ih => exact ih h.events h

/-- A call of a passive callback or of a view is recorded, and nothing else is. -/
theorem sourceRecord_call (hb : ∀ k a, (behave k a).Passive) (depth id : Nat)
    (callback : Callback κ) (value : σ) (version : Nat) (h : Hub σ τ κ) :
    (call behave (depth + 1) id callback value version h).sourceRecord =
      h.sourceRecord ++ [.called id version] := by
  have hcalled : (h.record (.called id version)).sourceRecord =
      h.sourceRecord ++ [.called id version] := List.filter_append ..
  cases callback with
  | listener k => exact (calm_react (hb k value) _).events.trans hcalled
  | view key => exact (calm_refresh _ key).events.trans hcalled

/-- A round calls each of its entries once. -/
theorem sourceRecord_callAll (hb : ∀ k a, (behave k a).Passive) (depth : Nat) (value : σ)
    (version : Nat) (entries : List (Nat × Callback κ)) (h : Hub σ τ κ) :
    (callAll (call behave (depth + 1)) value version entries h).sourceRecord =
      h.sourceRecord ++ entries.map fun entry => .called entry.1 version := by
  induction entries generalizing h with
  | nil => exact (List.append_nil _).symm
  | cons entry rest ih =>
      obtain ⟨id, callback⟩ := entry
      rw [callAll, ih, sourceRecord_call hb, List.append_assoc]
      rfl

/-- **A publication among passive callbacks** is recorded once, with one call of each entry that
    is registered. -/
theorem sourceRecord_publish (hb : ∀ k a, (behave k a).Passive) (depth : Nat) (change : σ → σ)
    (h : Hub σ τ κ) :
    (h.publish behave (depth + 1) change).sourceRecord =
      h.sourceRecord ++ .published (h.source.version + 1) (change h.source.value) ::
        h.source.registry.map fun entry => .called entry.1 (h.source.version + 1) := by
  have hpublished : (h.published (change h.source.value)).sourceRecord =
      h.sourceRecord ++ [.published (h.source.version + 1) (change h.source.value)] :=
    List.filter_append ..
  have hround := sourceRecord_callAll hb depth (change h.source.value) (h.source.version + 1)
    h.source.registry (h.published (change h.source.value))
  rw [hpublished, List.append_assoc] at hround
  exact hround

end Hub

variable {E : Type}

/-! ### One publication -/

namespace Store

/-- The number of the current snapshot, which no other one has. -/
def version (s : Store E) : Nat := s.session.hub.source.version

/-- What is recorded of the publications of a store and of whom they reached. -/
def record (s : Store E) : List (Event (Collection E) (List (Shared E))) :=
  s.session.hub.sourceRecord

/-- From one store to the other there is one publication: one more snapshot, of which every entry
    of the registry was told once, in order.  The record shows nothing else. -/
structure PublishesOnce (before after : Store E) : Prop where
  version : after.version = before.version + 1
  record : after.record = before.record ++ .published (before.version + 1) after.state ::
    before.session.hub.source.registry.map fun entry => .called entry.1 (before.version + 1)
  registry : after.session.hub.source.registry = before.session.hub.source.registry

/-- **Publishing a changed collection** publishes once. -/
theorem publishesOnce_update {s : Store E} (h : s.Live) (change : Collection E → Collection E) :
    s.PublishesOnce (s.update change) := by
  have hsource :=
    (Hub.undisturbed_publish passive_reportCollection callDepth change s.session.hub).source
  have hrecord := Hub.sourceRecord_publish passive_reportCollection 1 change s.session.hub
  have hupdate : (s.update change).session.hub =
      s.session.hub.publish reportCollection callDepth change := by
    have halive : s.session.hub.alive = true := h
    simp only [update, step, Session.step, Session.withSource, halive, if_true]
  refine ⟨?_, ?_, ?_⟩
  · rw [version, hupdate, hsource]
    rfl
  · rw [record, state, hupdate, hsource]
    exact hrecord
  · rw [hupdate, hsource]
    rfl

variable [Resource E]

/-- Does an event publish?  Answers that are errors do not, nor do those to loads that do not
    count. -/
def publishes (s : Store E) : StoreEvent E → Bool
  | .loadStarted | .errorCleared | .reset => true
  | .loadEnded token _ => s.counts token
  | .created result | .replaced _ result => result.isOk
  | .removed _ result => result.isOk

/-- **One event** publishes once, or the store stays the very same. -/
theorem publishes_apply {s : Store E} (h : s.Live) (event : StoreEvent E) :
    (s.publishes event = true → s.PublishesOnce (s.apply event)) ∧
      (s.publishes event = false → s.apply event = s) := by
  -- with other counters a store publishes as it does with its own
  have published (n tag : Nat) (change : Collection E → Collection E) :
      s.PublishesOnce ({ s with issued := n, nextTag := tag }.update change) := by
    obtain ⟨hversion, hrecord, hregistry⟩ :=
      publishesOnce_update (s := { s with issued := n, nextTag := tag }) h change
    exact ⟨hversion, hrecord, hregistry⟩
  have never {P : Prop} (h : true = false) : P := Bool.noConfusion h
  cases event with
  | loadStarted => exact ⟨fun _ => published (s.issued + 1) s.nextTag _, never⟩
  | errorCleared => exact ⟨fun _ => published s.issued s.nextTag _, never⟩
  | reset => exact ⟨fun _ => published (s.issued + 1) s.nextTag _, never⟩
  | loadEnded token result =>
      constructor
      · intro hc
        have hcounts : s.counts token = true := hc
        cases result with
        | ok entities =>
            rw [apply, endLoad, if_pos hcounts]
            exact published s.issued (s.nextTag + entities.length) _
        | error e =>
            rw [apply, endLoad, if_pos hcounts]
            exact published s.issued s.nextTag _
      · intro hc
        have hcounts : s.counts token = false := hc
        cases result <;> simp [apply, endLoad, hcounts]
  | created result =>
      cases result with
      | ok e => exact ⟨fun _ => published s.issued (s.nextTag + 1) _, never⟩
      | error e => exact ⟨fun h => never h.symm, fun _ => rfl⟩
  | replaced id result =>
      cases result with
      | ok e => exact ⟨fun _ => published s.issued (s.nextTag + 1) _, never⟩
      | error e => exact ⟨fun h => never h.symm, fun _ => rfl⟩
  | removed id result =>
      cases result with
      | ok u => exact ⟨fun _ => published s.issued s.nextTag _, never⟩
      | error e => exact ⟨fun h => never h.symm, fun _ => rfl⟩

end Store

/-! ### Stores in use -/

/-- Something that happens to a store: an event, or a step with what hangs on it.  Its source is
    not dropped before the store. -/
inductive Activity (E : Type)
  | event (event : StoreEvent E)
  | session (step : Step (Collection E) (List (Shared E)) String) (keeps : step ≠ .drop)

/-- Does a load start, or is the store reset? -/
def Activity.supersedes : Activity E → Bool
  | event .loadStarted | event .reset => true
  | event _ | session _ _ => false

namespace Store

variable [Resource E]

/-- The store after something that happens to it. -/
def act (s : Store E) : Activity E → Store E
  | .event event => s.apply event
  | .session step _ => (s.step step).1

/-- The store after all that happens to it. -/
def after (s : Store E) (activities : List (Activity E)) : Store E := activities.foldl act s

/-- What an activity leaves as it is, and what it counts. -/
theorem live_act {s : Store E} (h : s.Live) (activity : Activity E) :
    (s.act activity).Live ∧ (s.act activity).ordering = s.ordering ∧
      (s.act activity).issued = s.issued + if activity.supersedes then 1 else 0 := by
  cases activity with
  | session step keeps =>
      have hworks := Session.works_step reportCollection callDepth s.session
        (Session.drops_eq_false keeps)
      exact ⟨hworks.alive.trans h, rfl, rfl⟩
  | event event =>
      have hledger := ledger_apply h event
      have hordering := congrArg Ledger.ordering hledger
      have hissued := congrArg Ledger.issued hledger
      rw [Ledger.ordering_apply] at hordering
      rw [Ledger.issued_apply] at hissued
      refine ⟨live_apply h event, hordering, hissued.trans ?_⟩
      cases event <;> rfl

/-- **A store in use** stays alive and keeps its ordering, and its count tells whether a load
    started or a reset came in the meantime. -/
theorem live_after {s : Store E} (h : s.Live) (activities : List (Activity E)) :
    (s.after activities).Live ∧ (s.after activities).ordering = s.ordering ∧
      s.issued ≤ (s.after activities).issued ∧
      ((s.after activities).issued = s.issued ↔ activities.any Activity.supersedes = false) := by
  induction activities generalizing s with
  | nil => exact ⟨h, rfl, Nat.le_refl _, iff_of_true rfl rfl⟩
  | cons activity rest ih =>
      obtain ⟨hlive, hordering, hissued⟩ := live_act h activity
      obtain ⟨hliveRest, horderingRest, hle, hiff⟩ := ih hlive
      have hafter : s.after (activity :: rest) = (s.act activity).after rest := rfl
      rw [hafter]
      refine ⟨hliveRest, horderingRest.trans hordering, ?_, ?_⟩
      · omega
      · rw [List.any_cons]
        cases hs : activity.supersedes with
        | true =>
            rw [hs, if_pos rfl] at hissued
            exact iff_of_false (by omega) nofun
        | false =>
            rw [hs] at hissued
            rw [Bool.false_or, ← hiff, hissued]
            rfl

end Store

/-! ### Operations -/

/-- The error that an operation gives back. -/
def Answer.error? : Answer E → Option ApiError
  | failed e => some e
  | loaded | entity _ | removed => none

namespace Operation

variable [Resource E]

/-- Is the operation a load? -/
def isLoad : Operation E → Bool
  | load _ => true
  | create _ | update _ _ | remove _ | transition _ _ => false

/-- What the request of an operation meets on a link, if it can be made. -/
def met (client : Client) (link : Link) (op : Operation E) : Except ApiError Response :=
  match op.request client with
  | .error e => .error e
  | .ok request => (request.send link).1

/-- How the call of the client ends that the operation makes. -/
def outcome (client : Client) (link : Link) : Operation E → Except ApiError Unit
  | load options => ((client.list E options).run link).1.map fun _ => ()
  | create draft => ((client.create E draft).run link).1.map fun _ => ()
  | update id patch => ((client.update E id patch).run link).1.map fun _ => ()
  | remove id => ((client.delete E id).run link).1
  | transition id action => ((client.transition E id action).run link).1.map fun _ => ()

end Operation

namespace Store

variable [Resource E]

/-- An answer that is an error, if the call of the client ends in one, and a publication if it
    does not. -/
def Settles (s : Store E) (ended : Store E × Answer E) : Except ApiError Unit → Prop
  | .error e => ended = (s, .failed e)
  | .ok () => s.PublishesOnce ended.1 ∧ ended.2.error? = none

/-- **The end of an operation other than a load.**  An error of the client is given back as it is
    and leaves the store the very same; anything else is published once. -/
theorem settles_conclude {s : Store E} (h : s.Live) (client : Client) (link : Link) (token : Nat)
    {op : Operation E} (hop : op.isLoad = false) :
    s.Settles (s.conclude op token (op.met client link)) (op.outcome client link) := by
  -- all of them end in an event that has the result of the call
  have hends {α : Type} (result : Except ApiError α) (event : Except ApiError α → StoreEvent E)
      (hpublishes : ∀ r, s.publishes (event r) = r.isOk)
      (herror : ∀ e, (event (.error e)).answer s.nextTag = .failed e)
      (hok : ∀ a, ((event (.ok a)).answer s.nextTag).error? = none) :
      s.Settles (s.apply (event result), (event result).answer s.nextTag)
        (result.map fun _ => ()) := by
    obtain ⟨hone, hnone⟩ := publishes_apply h (event result)
    cases result with
    | error e => exact Prod.ext (hnone (hpublishes _)) (herror e)
    | ok a => exact ⟨hone (hpublishes _), hok a⟩
  cases op with
  | load options => cases hop
  | create draft =>
      rw [Operation.outcome, Exchange.run_fst]
      exact hends _ .created (fun _ => rfl) (fun _ => rfl) fun _ => rfl
  | update id patch =>
      rw [Operation.outcome, Exchange.run_fst]
      exact hends _ (.replaced id) (fun _ => rfl) (fun _ => rfl) fun _ => rfl
  | transition id action =>
      rw [Operation.outcome, Exchange.run_fst]
      exact hends _ (.replaced id) (fun _ => rfl) (fun _ => rfl) fun _ => rfl
  | remove id =>
      have hsame : (((client.delete E id).run link).1.map fun _ => ()) =
          ((client.delete E id).run link).1 := by
        cases ((client.delete E id).run link).1 <;> rfl
      rw [Operation.outcome, ← hsame, Exchange.run_fst]
      exact hends _ (.removed id) (fun _ => rfl) (fun _ => rfl) fun _ => rfl

/-- The answer to a load counts, unless only the latest request does and another load or a reset
    came in between: its token is the count at its start. -/
theorem counts_startLoad {s : Store E} (h : s.Live) (between : List (Activity E)) :
    (s.startLoad.after between).counts s.startLoad.issued = true ↔
      ¬ (s.ordering = .latestRequest ∧ between.any Activity.supersedes = true) := by
  have hstarted : s.startLoad.Live := live_apply h .loadStarted
  have hordering : s.startLoad.ordering = s.ordering :=
    congrArg Ledger.ordering (ledger_apply h .loadStarted)
  obtain ⟨-, hkept, -, hissued⟩ := live_after hstarted between
  have hsame : (s.startLoad.after between).ordering = s.ordering := hkept.trans hordering
  rw [counts, hsame, Bool.or_eq_true, decide_eq_true_iff, decide_eq_true_iff, hissued]
  cases s.ordering <;> simp

/-- **The two ends of a load.**  Its start publishes once.  Its answer is no error and publishes
    once as well, unless it is discarded. -/
theorem publishes_load {s : Store E} (h : s.Live) (client : Client) (link : Link)
    (between : List (Activity E)) {op : Operation E} (hop : op.isLoad = true) :
    let waiting := (s.start op).1.after between
    let ended := waiting.conclude op (s.start op).2 (op.met client link)
    s.PublishesOnce (s.start op).1 ∧ ended.2.error? = none ∧
      if s.ordering = .latestRequest ∧ between.any Activity.supersedes = true then
        ended.1 = waiting
      else waiting.PublishesOnce ended.1 := by
  cases op with
  | create _ | update _ _ | remove _ | transition _ _ => cases hop
  | load options =>
      have hlive := (live_after (live_apply h .loadStarted) between).1
      have hcounts := counts_startLoad h between
      intro waiting ended
      let load : Operation E := .load options
      obtain ⟨hone, hnone⟩ :=
        publishes_apply hlive (load.event s.startLoad.issued (load.met client link))
      refine ⟨(publishes_apply h .loadStarted).1 rfl, rfl, ?_⟩
      split
      · rename_i hsuperseded
        exact hnone (Bool.eq_false_iff.2 fun hc => hcounts.1 hc hsuperseded)
      · rename_i hsettled
        exact hone (hcounts.2 hsettled)

end Store

/-- **What operations publish**, in every store that is in use and whatever happens to it while
    their requests are under way, however these end.  An operation other than a load publishes
    nothing when it starts; an error of the client is given back as it is and leaves the store
    the very same, and otherwise there is one publication, be there a matching entity or not.  A
    load is never an error; it publishes when it starts, and once more when its answer arrives
    unless the answer is discarded.  Clearing the error and a reset publish once. -/
theorem publications_exact [Resource E] (ordering : LoadOrdering)
    (before between : List (Activity E)) (client : Client) (link : Link) (op : Operation E) :
    let s := (Store.make ordering : Store E).after before
    let waiting := (s.start op).1.after between
    let ended := waiting.conclude op (s.start op).2 (op.met client link)
    (op.isLoad = false →
      (s.start op).1 = s ∧ waiting.Settles ended (op.outcome client link)) ∧
    (op.isLoad = true → s.PublishesOnce (s.start op).1 ∧ ended.2.error? = none ∧
      if ordering = .latestRequest ∧ between.any Activity.supersedes = true then
        ended.1 = waiting
      else waiting.PublishesOnce ended.1) ∧
    s.PublishesOnce s.clearError ∧ s.PublishesOnce s.reset := by
  intro s waiting ended
  obtain ⟨hlive, hordering, -⟩ := Store.live_after (Store.live_make ordering) before
  refine ⟨fun hop => ?_, fun hop => ?_, (Store.publishes_apply hlive .errorCleared).1 rfl,
    (Store.publishes_apply hlive .reset).1 rfl⟩
  · -- all operations but a load publish at their end only
    have hstart : (s.start op).1 = s := by
      cases op with
      | load options => cases hop
      | create _ | update _ _ | remove _ | transition _ _ => rfl
    have hwaiting : waiting.Live := by
      show ((s.start op).1.after between).Live
      rw [hstart]
      exact (Store.live_after hlive between).1
    exact ⟨hstart, Store.settles_conclude hwaiting client link _ hop⟩
  · have hload := Store.publishes_load hlive client link between hop
    rw [hordering] at hload
    exact hload

/-- A store with a subscriber, of which a list is asked. -/
def watched : List (Activity Zone) :=
  [.session (.subscribe "log" "log") nofun, .event .loadStarted]

/-- While a zone that is not there is deleted, and while a load is under way, the store is
    reset. -/
theorem publications_exact_reset :
    let link : Link := .ofNetwork (.script [.answer 204 [] true])
    let deletion : Operation Zone := .remove "z9"
    let load : Operation Zone := .load .empty
    let s := (Store.make .latestRequest : Store Zone).after watched
    let waiting := s.after [.event .reset]
    let overtaken := s.startLoad.after [.event .reset]
    deletion.isLoad = false ∧ load.isLoad = true ∧
      waiting.PublishesOnce
        (waiting.conclude deletion 1 (deletion.met EntityCall.consoleLan link)).1 ∧
      (overtaken.conclude load 2 (load.met EntityCall.consoleLan link)).1 = overtaken := by
  intro link deletion load s waiting overtaken
  have hdeletion := publications_exact .latestRequest watched [.event .reset] EntityCall.consoleLan
    link deletion
  have hload := publications_exact .latestRequest watched [.event .reset] EntityCall.consoleLan
    link load
  have houtcome : deletion.outcome EntityCall.consoleLan link = .ok () :=
    eq_ok_of_toOption (by decide +kernel)
  obtain ⟨-, hsettles⟩ := hdeletion.1 rfl
  rw [houtcome] at hsettles
  exact ⟨rfl, rfl, hsettles.1, (hload.2.1 rfl).2.2⟩

end ZoneConsole
