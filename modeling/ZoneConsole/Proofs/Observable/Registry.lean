import ZoneConsole.Proofs.Observable.Cancelled
import ZoneConsole.Proofs.Observable.Ledger

/-!
# The registry of subscriptions

At every moment of a run, be it between two steps or while callbacks are notified and subscribe,
unsubscribe and detach themselves, make views and drop them, the registries hold one entry for each
subscription that is outstanding, and nothing else.  A subscription is outstanding if a name holds
its handle, if it is that of a live view, if it was detached, or if the call that makes it has not
returned yet.

Operations are made of parts that are done at once.  What happens between the parts of one of them,
when its callbacks are called, is again a sequence of parts, so what any sequence of parts keeps
is kept however operations nest.

* **`Hub.Claimed`** — the live views are those that names hold.
* **`Docket.perform`** — a part of an operation, with the handles of the subscriptions and the
  views that are being made, and the handles that were detached.
* **`Docket.kept_run`** — every sequence of parts keeps the ledger.
* **`Audit`** — a moment of a run, with what was detached before it; its steps are made of parts
  (`exists_parts`).
* **`Session.Audits`** — the moments of a run with what was detached before them.
* **`Hub.Exact`** — what there is to say of the registries of a hub.
* **`registry_exact`** — it can be said after every sequence of parts, and at every moment of every
  run.
-/

namespace ZoneConsole

variable {σ τ κ : Type}

/-! ### Views by name -/

namespace Hub

/-- Names are told apart, and the live views are those that they hold and some others, which nobody
    holds yet. -/
structure Claimed (h : Hub σ τ κ) (unnamed : List Nat) : Prop where
  names : (h.named.map (·.1)).Nodup
  views : h.liveKeys.Perm (h.named.map (·.2) ++ unnamed)

/-- The ledger is kept, and each live view is claimed. -/
structure Kept (h : Hub σ τ κ) (loose : List Handle) (unnamed : List Nat) : Prop where
  ledger : h.Ledger loose
  claimed : h.Claimed unnamed

theorem kept_ofValue (a : σ) : (ofValue a : Hub σ τ κ).Kept [] [] :=
  ⟨ledger_ofValue a, .nil, .nil⟩

variable {h h' : Hub σ τ κ} {loose : List Handle} {unnamed : List Nat} {key : Nat}

theorem Claimed.congr (hc : h.Claimed unnamed) (hnamed : h'.named = h.named)
    (hlive : h'.liveKeys = h.liveKeys) : h'.Claimed unnamed := by
  constructor
  · rw [hnamed]
    exact hc.names
  · rw [hnamed, hlive]
    exact hc.views

theorem named_release (h : Hub σ τ κ) (handle : Handle) : (h.release handle).named = h.named := by
  cases handle <;> rfl

theorem named_hold (h : Hub σ τ κ) (name : String) (handle : Handle) :
    (h.hold name handle).named = h.named := by
  unfold hold
  cases lookup? name h.handles with
  | none => rfl
  | some old => exact named_release _ old

theorem named_unsubscribe (h : Hub σ τ κ) (name : String) :
    (h.unsubscribe name).named = h.named := by
  unfold unsubscribe
  cases lookup? name h.handles with
  | none => rfl
  | some handle => exact named_release _ handle

theorem named_subscribeView (h : Hub σ τ κ) (key : Nat) (name : String) :
    (h.subscribeView key name).named = h.named := by
  unfold subscribeView
  cases h.view? key with
  | none => rfl
  | some v => exact named_hold _ name _

/-- **A new view** is claimed by nobody. -/
theorem Claimed.withView (hc : h.Claimed unnamed) (project : σ → τ) :
    (h.withView project).Claimed (h.source.nextId :: unnamed) where
  names := hc.names
  views := by
    rw [liveKeys_withView]
    refine (hc.views.append_right _).trans ?_
    rw [List.append_assoc]
    exact (List.perm_append_singleton _ _).append_left _

/-- **A view that nobody holds** may be dropped. -/
theorem Kept.dropView (hk : h.Kept loose (key :: unnamed)) :
    (h.dropView key).Kept loose unnamed := by
  have hviews : h.liveKeys.Perm (key :: (h.named.map (·.2) ++ unnamed)) :=
    hk.claimed.views.trans List.perm_middle
  have hlive : key ∈ h.liveKeys := hviews.mem_iff.2 List.mem_cons_self
  have hleft := perm_liveKeys_dead hk.ledger.keys hlive
  exact ⟨hk.ledger.dropView hlive, hk.claimed.names, (hleft.symm.trans hviews).cons_inv⟩

/-- **A name that lets go of its view** leaves it to nobody. -/
theorem Kept.letGo (hk : h.Kept loose unnamed) (name : String) :
    Kept { h with named := without name h.named } loose
      ((lookup? name h.named).toList ++ unnamed) := by
  obtain ⟨hl, hc⟩ := hk
  refine ⟨⟨hl.source, hl.outputs, hl.keys, hl.ahead, hl.names, hl.accounted⟩,
    nodup_without hc.names name, hc.views.trans ?_⟩
  refine ((perm_without hc.names name).append_right unnamed).trans ?_
  rw [List.append_assoc]
  exact List.perm_append_comm_assoc ..

/-- **A name that takes a view** drops the one that it held before. -/
theorem Kept.keepView (hk : h.Kept loose (key :: unnamed)) (name : String) :
    (h.keepView name key).Kept loose unnamed := by
  obtain ⟨hl, hnames, hviews⟩ := hk.letGo name
  -- the new view is held before the old one is dropped, which nobody holds until then
  have htaken : Kept { h with named := put name key h.named } loose
      ((lookup? name h.named).toList ++ unnamed) := by
    refine ⟨⟨hl.source, hl.outputs, hl.keys, hl.ahead, hl.names, hl.accounted⟩,
      List.nodup_cons.2 ⟨notMem_without name h.named, hnames⟩, hviews.trans ?_⟩
    exact (List.perm_middle.append_left _).trans List.perm_middle
  unfold Hub.keepView
  cases hheld : lookup? name h.named with
  | none =>
      rw [hheld] at htaken
      exact htaken
  | some old =>
      rw [hheld] at htaken
      exact htaken.dropView

/-- **A name that is to drop its view** does so. -/
theorem Kept.dismissView (hk : h.Kept loose unnamed) (name : String) :
    (h.dismissView name).Kept loose unnamed := by
  have hloose := hk.letGo name
  unfold Hub.dismissView
  cases hheld : lookup? name h.named with
  | none => exact hk
  | some old =>
      rw [hheld] at hloose
      exact hloose.dropView

/-- The view that a name holds is alive. -/
theorem Claimed.mem_of_held (hc : h.Claimed unnamed) {name : String}
    (hheld : lookup? name h.named = some key) : key ∈ h.liveKeys :=
  hc.views.mem_iff.2 (List.mem_append_left _ (List.mem_map.2 ⟨_, mem_of_lookup? hheld, rfl⟩))

/-- **A name that drops its view or takes another one** loses the entry of the view in the registry
    of the source. -/
theorem Kept.loses_held (hk : h.Kept loose unnamed) {name : String}
    (hheld : lookup? name h.named = some key) :
    h.Loses (.source key) (h.dismissView name) ∧
      ∀ other, h.Loses (.source key) (h.keepView name other) := by
  have hlost := hk.ledger.loses_view (hk.claimed.mem_of_held hheld)
  constructor
  · rw [Hub.dismissView, hheld]
    exact hlost
  · intro other
    rw [Hub.keepView, hheld]
    exact hlost

end Hub

/-! ### Parts of operations -/

/-- A part of an operation, which is done at once.  To subscribe is to register a callback, to have
    it called, and to hold the handle that is given then; a view is registered when it is made, and
    then it is called and kept. -/
inductive Part (σ τ κ : Type)
  | register (callback : κ)
  | hold (name : String) (handle : Handle)
  | unsubscribe (name : String)
  | detach (name : String)
  | addView (project : σ → τ)
  | keepView (name : String) (key : Nat)
  | dropView (key : Nat)
  | dismissView (name : String)
  | subscribeView (key : Nat) (name : String)
  | publish (value : σ)
  | refresh (key : Nat)
  | note (event : Event σ τ)

/-- A hub, with the handles of the subscriptions that are being made, the handles that were
    detached, and the views that are being made. -/
structure Docket (σ τ κ : Type) where
  hub : Hub σ τ κ
  made : List Handle
  detached : List Handle
  views : List Nat

namespace Docket

/-- Does a part of an operation.  A name can only take what was made before, and what is dropped was
    made before, too. -/
def perform (d : Docket σ τ κ) : Part σ τ κ → Docket σ τ κ
  | .register callback =>
    { d with hub := d.hub.registered (.listener callback)
             made := .source d.hub.source.nextId :: d.made }
  | .hold name handle =>
    if handle ∈ d.made then
      { d with hub := d.hub.hold name handle, made := d.made.erase handle }
    else d
  | .unsubscribe name => { d with hub := d.hub.unsubscribe name }
  | .detach name =>
    { d with hub := d.hub.detach name
             detached := (lookup? name d.hub.handles).toList ++ d.detached }
  | .addView project =>
    { d with hub := d.hub.withView project, views := d.hub.source.nextId :: d.views }
  | .keepView name key =>
    if key ∈ d.views then { d with hub := d.hub.keepView name key, views := d.views.erase key }
    else d
  | .dropView key =>
    if key ∈ d.views then { d with hub := d.hub.dropView key, views := d.views.erase key } else d
  | .dismissView name => { d with hub := d.hub.dismissView name }
  | .subscribeView key name => { d with hub := d.hub.subscribeView key name }
  | .publish value => { d with hub := d.hub.published value }
  | .refresh key => { d with hub := d.hub.refresh key }
  | .note event => { d with hub := d.hub.record event }

/-- Does parts one after the other. -/
def run (d : Docket σ τ κ) (parts : List (Part σ τ κ)) : Docket σ τ κ := parts.foldl perform d

/-- The ledger is kept, with what is being made and what was detached as its loose handles. -/
def Kept (d : Docket σ τ κ) : Prop := d.hub.Kept (d.made ++ d.detached) d.views

variable {d : Docket σ τ κ}

/-- **Every part keeps the ledger.** -/
theorem kept_perform (hd : d.Kept) (part : Part σ τ κ) : (d.perform part).Kept := by
  obtain ⟨hl, hc⟩ := hd
  -- a view that is being made stands first among those that nobody holds
  have hfirst : ∀ {key : Nat}, key ∈ d.views →
      d.hub.Kept (d.made ++ d.detached) (key :: d.views.erase key) := fun hkey =>
    ⟨hl, hc.names, hc.views.trans ((List.perm_cons_erase hkey).append_left _)⟩
  cases part with
  | register callback => exact ⟨hl.registered _, hc.congr rfl rfl⟩
  | hold name handle =>
      by_cases hmade : handle ∈ d.made
      · rw [perform, if_pos hmade]
        refine ⟨Hub.Ledger.hold (hl.perm ?_) name,
          hc.congr (Hub.named_hold _ _ _) (Hub.liveKeys_hold _ _ _)⟩
        exact (List.perm_cons_erase hmade).append_right d.detached
      · rw [perform, if_neg hmade]
        exact ⟨hl, hc⟩
  | unsubscribe name =>
      exact ⟨hl.unsubscribe name,
        hc.congr (Hub.named_unsubscribe _ _) (Hub.liveKeys_unsubscribe _ _)⟩
  | detach name =>
      exact ⟨(hl.detach name).perm (List.perm_append_comm_assoc _ _ _), hc.congr rfl rfl⟩
  | addView project => exact ⟨hl.withView project, hc.withView project⟩
  | keepView name key =>
      by_cases hmade : key ∈ d.views
      · rw [perform, if_pos hmade]
        exact (hfirst hmade).keepView name
      · rw [perform, if_neg hmade]
        exact ⟨hl, hc⟩
  | dropView key =>
      by_cases hmade : key ∈ d.views
      · rw [perform, if_pos hmade]
        exact (hfirst hmade).dropView
      · rw [perform, if_neg hmade]
        exact ⟨hl, hc⟩
  | dismissView name => exact Hub.Kept.dismissView ⟨hl, hc⟩ name
  | subscribeView key name =>
      exact ⟨hl.subscribeView key name,
        hc.congr (Hub.named_subscribeView _ _ _) (Hub.liveKeys_subscribeView _ _ _)⟩
  | publish value => exact ⟨hl.still (Hub.still_published _ value), hc.congr rfl rfl⟩
  | refresh key =>
      have hstill := Hub.still_refresh d.hub key
      exact ⟨hl.still hstill, hc.congr (Hub.undisturbed_refresh _ key).named hstill.liveKeys⟩
  | note event => exact ⟨hl.still (Hub.still_record _ event), hc.congr rfl rfl⟩

/-- **Every sequence of parts keeps it.** -/
theorem kept_run (hd : d.Kept) (parts : List (Part σ τ κ)) : (d.run parts).Kept := by
  induction parts generalizing d with
  | nil => exact hd
  | cons part rest ih => exact ih (kept_perform hd part)

end Docket

/-! ### Moments -/

/-- Does a job register a callback for which nobody is going to answer? -/
def Job.enrolls : Job σ τ κ → Bool
  | .task (.enroll _) => true
  | _ => false

/-- The handles that a job is going to give to a name. -/
def Job.makes : Job σ τ κ → List Handle
  | .hold _ id => [.source id]
  | .task _ | .keep _ _ => []

/-- The views that a job is going to give to a name. -/
def Job.names : Job σ τ κ → List Nat
  | .keep _ key => [key]
  | .task _ | .hold _ _ => []

/-- The handle of which a job lets go without cancelling it, if it does so first. -/
def Job.detaches (h : Hub σ τ κ) : Job σ τ κ → List Handle
  | .task (.react (.detach name _)) => (lookup? name h.handles).toList
  | _ => []

/-- The handles of the subscriptions that are being made by what is to be done. -/
def making (agenda : List (Job σ τ κ)) : List Handle := agenda.flatMap Job.makes

/-- The views that are being made by what is to be done. -/
def naming (agenda : List (Job σ τ κ)) : List Nat := agenda.flatMap Job.names

theorem making_append (first rest : List (Job σ τ κ)) :
    making (first ++ rest) = making first ++ making rest :=
  List.flatMap_append

theorem naming_append (first rest : List (Job σ τ κ)) :
    naming (first ++ rest) = naming first ++ naming rest :=
  List.flatMap_append

/-- A moment of a run, with the handles that were detached before it. -/
structure Audit (σ τ κ : Type) where
  moment : Moment σ τ κ
  detached : List Handle

namespace Audit

/-- The next moment, with what is detached until then. -/
def next (behave : κ → σ → Reaction σ τ κ) : Audit σ τ κ → Audit σ τ κ
  | ⟨⟨h, []⟩, detached⟩ => ⟨⟨h, []⟩, detached⟩
  | ⟨⟨h, job :: rest⟩, detached⟩ =>
    ⟨Moment.next behave ⟨h, job :: rest⟩, job.detaches h ++ detached⟩

/-- One audit comes after another, or is the same. -/
inductive Leads (behave : κ → σ → Reaction σ τ κ) : Audit σ τ κ → Audit σ τ κ → Prop
  | refl {a} : Leads behave a a
  | step {a b} : Leads behave (a.next behave) b → Leads behave a b

/-- What every step keeps: no entry is without a subscription, and no subscription without an
    entry. -/
structure Balanced (a : Audit σ τ κ) : Prop where
  kept : a.moment.hub.Kept (making a.moment.agenda ++ a.detached) (naming a.moment.agenda)
  agenda : ∀ job ∈ a.moment.agenda, job.enrolls = false

end Audit

namespace Hub

variable {behave : κ → σ → Reaction σ τ κ}

/-- No task leaves a registration to be done for which nobody is going to answer. -/
theorem enrolls_begin (h : Hub σ τ κ) (task : Task σ τ κ) :
    ∀ job ∈ (task.begin behave h).2, job.enrolls = false := by
  cases task with
  | react reaction => cases reaction <;> simp [Task.begin, Job.enrolls]
  | notify change => simp [Task.begin, Job.enrolls]
  | enroll callback => simp [Task.begin, Job.enrolls]
  | call id callback value version => cases callback <;> simp [Task.begin, Job.enrolls]
  | round value version entries => cases entries <;> simp [Task.begin, Job.enrolls]

/-- **The first step of a task is made of parts.**  What it begins to make and what it detaches is
    on the docket then. -/
theorem exists_parts (behave : κ → σ → Reaction σ τ κ) (h : Hub σ τ κ) (made detached : List Handle)
    (views : List Nat) {task : Task σ τ κ} (htask : (Job.task task).enrolls = false) :
    ∃ parts, Docket.run ⟨h, made, detached, views⟩ parts =
      ⟨(task.begin behave h).1, making (task.begin behave h).2 ++ made,
        (Job.task task).detaches h ++ detached, naming (task.begin behave h).2 ++ views⟩ := by
  cases task with
  | react reaction =>
      cases reaction with
      | done => exact ⟨[], rfl⟩
      | report entry next => exact ⟨[.note (.left entry)], rfl⟩
      | read next => exact ⟨[], rfl⟩
      | count next => exact ⟨[], rfl⟩
      | remember next => exact ⟨[], rfl⟩
      | publish change next => exact ⟨[.publish (change h.source.value)], rfl⟩
      | subscribe name callback next => exact ⟨[.register callback], rfl⟩
      | unsubscribe name next => exact ⟨[.unsubscribe name], rfl⟩
      | detach name next => exact ⟨[.detach name], rfl⟩
      | addView name project next => exact ⟨[.addView project], rfl⟩
      | subscribeView name as next =>
          refine ⟨(lookup? name h.named).toList.map (.subscribeView · as), ?_⟩
          show _ = Docket.mk (h.followView name as) _ _ _
          unfold followView
          cases lookup? name h.named <;> rfl
      | dropView name next => exact ⟨[.dismissView name], rfl⟩
  | notify change => exact ⟨[.publish (change h.source.value)], rfl⟩
  | enroll callback => cases htask
  | call id callback value version =>
      cases callback with
      | listener k => exact ⟨[.note (.called id version)], rfl⟩
      | view key => exact ⟨[.note (.called id version), .refresh key], rfl⟩
  | round value version entries => cases entries <;> exact ⟨[], rfl⟩

end Hub

namespace Audit

variable {behave : κ → σ → Reaction σ τ κ} {a b : Audit σ τ κ}

/-- **Every step keeps the balance.** -/
theorem Balanced.next (hb : a.Balanced) : (a.next behave).Balanced := by
  obtain ⟨⟨h, agenda⟩, detached⟩ := a
  cases agenda with
  | nil => exact hb
  | cons job rest =>
      have hrest : ∀ other ∈ rest, other.enrolls = false := fun other hother =>
        hb.agenda other (List.mem_cons_of_mem _ hother)
      cases job with
      | task task =>
          -- what the rest of the agenda is making is on the docket while the task begins
          obtain ⟨parts, hparts⟩ := Hub.exists_parts behave h (making rest) detached (naming rest)
            (hb.agenda _ List.mem_cons_self)
          have hdocket : Docket.Kept ⟨h, making rest, detached, naming rest⟩ := hb.kept
          have hbegun := Docket.kept_run hdocket parts
          rw [hparts] at hbegun
          refine ⟨?_, ?_⟩
          · show Hub.Kept _ (making ((task.begin behave h).2 ++ rest) ++ _)
              (naming ((task.begin behave h).2 ++ rest))
            rw [making_append, naming_append]
            exact hbegun
          · exact List.forall_mem_append.2 ⟨Hub.enrolls_begin h task, hrest⟩
      | hold name id =>
          obtain ⟨hl, hc⟩ := hb.kept
          exact ⟨⟨hl.hold name, hc.congr (Hub.named_hold _ _ _) (Hub.liveKeys_hold _ _ _)⟩, hrest⟩
      | keep name key => exact ⟨hb.kept.keepView name, hrest⟩

/-- **Any number of steps keeps it.** -/
theorem Leads.balanced (hl : Leads behave a b) (ha : a.Balanced) : b.Balanced := by
  induction hl with
  | refl => exact ha
  | step _ ih => exact ih ha.next

/-- A moment that leads to another one does so with whatever was detached. -/
theorem exists_leads {m m' : Moment σ τ κ} (hl : Moment.Leads behave m m')
    (detached : List Handle) :
    ∃ detached', Leads behave ⟨m, detached⟩ ⟨m', detached'⟩ := by
  induction hl generalizing detached with
  | refl => exact ⟨detached, .refl⟩
  | @step m m' _ ih =>
      obtain ⟨h, agenda⟩ := m
      cases agenda with
      | nil =>
          obtain ⟨detached', hrest⟩ := ih detached
          exact ⟨detached', .step hrest⟩
      | cons job rest =>
          obtain ⟨detached', hrest⟩ := ih (job.detaches h ++ detached)
          exact ⟨detached', .step hrest⟩

/-- Audits come after each other as their moments do. -/
theorem Leads.moment (hl : Leads behave a b) : Moment.Leads behave a.moment b.moment := by
  induction hl with
  | refl => exact .refl
  | @step a b _ ih =>
      obtain ⟨⟨h, agenda⟩, detached⟩ := a
      cases agenda with
      | nil => exact ih
      | cons job rest => exact .step ih

end Audit

/-! ### Runs -/

namespace Session

open Hub

variable {behave : κ → σ → Reaction σ τ κ} {depth : Nat} {s : Session σ τ κ}
  {detached : List Handle}

/-- The audit with which a step begins. -/
def opening (s : Session σ τ κ) (step : Step σ τ κ) (detached : List Handle) : Audit σ τ κ :=
  ⟨⟨s.hub, [.task (.react (s.reaction step))]⟩, detached⟩

/-- The moments of a run, each with what was detached before it: those between its steps, when
    nothing is left to be done, and those within its steps. -/
inductive Audits (behave : κ → σ → Reaction σ τ κ) (depth : Nat) :
    Session σ τ κ → List Handle → List (Step σ τ κ) → Audit σ τ κ → Prop
  | between {s detached steps} : Audits behave depth s detached steps ⟨⟨s.hub, []⟩, detached⟩
  | within {s detached step steps a} : step.drops = false →
      Audit.Leads behave (s.opening step detached) a →
      Audits behave depth s detached (step :: steps) a
  | later {s detached step steps detached' a} : step.drops = false →
      Audit.Leads behave (s.opening step detached)
        ⟨⟨(s.step behave depth step).1.hub, []⟩, detached'⟩ →
      Audits behave depth (s.step behave depth step).1 detached' steps a →
      Audits behave depth s detached (step :: steps) a
  | drop {s detached steps a} :
      Audits behave depth (s.step behave depth .drop).1 detached steps a →
      Audits behave depth s detached (.drop :: steps) a

/-- Steps begin with the balance. -/
theorem balanced_opening (hk : s.hub.Kept detached []) (step : Step σ τ κ) :
    (s.opening step detached).Balanced :=
  ⟨hk, fun _ hjob => by rw [List.mem_singleton.1 hjob]; rfl⟩

/-- To drop the source leaves its registry as it is. -/
theorem kept_drop {h : Hub σ τ κ} (hk : h.Kept detached []) : h.drop.Kept detached [] :=
  ⟨hk.ledger.still ⟨rfl, rfl, rfl, rfl⟩, hk.claimed.congr rfl rfl⟩

/-- **Runs keep the balance**, at all of their moments. -/
theorem Audits.balanced {steps : List (Step σ τ κ)} {a : Audit σ τ κ}
    (ha : Audits behave depth s detached steps a) (hk : s.hub.Kept detached []) : a.Balanced := by
  induction ha with
  | between => exact ⟨hk, List.forall_mem_nil _⟩
  | within _ hl => exact hl.balanced (balanced_opening hk _)
  | later _ hl _ ih => exact ih (hl.balanced (balanced_opening hk _)).kept
  | drop _ ih => exact ih (kept_drop hk)

/-- **Every run can be audited** to its end, if its calls did not nest too deep. -/
theorem exists_audit {steps : List (Step σ τ κ)} {deeds : List (Deed σ κ)}
    (hb : Brings behave depth s steps deeds) (detached : List Handle) : ∃ detached',
      Audits behave depth s detached steps ⟨⟨(s.run behave depth steps).hub, []⟩, detached'⟩ := by
  induction hb generalizing detached with
  | done => exact ⟨detached, .between⟩
  | drop _ ih =>
      obtain ⟨detached', haudits⟩ := ih detached
      exact ⟨detached', .drop haudits⟩
  | step hdrops hdoes _ ih =>
      obtain ⟨between, hl⟩ := Audit.exists_leads (hdoes.leads []) detached
      obtain ⟨detached', haudits⟩ := ih between
      exact ⟨detached', .later hdrops hl haudits⟩

end Session

/-! ### All there is to say -/

/-- The registries of a hub are exact, given the handles that are being made, those that were
    detached, and the views that are being made. -/
structure Hub.Exact (h : Hub σ τ κ) (made detached : List Handle) (unnamed : List Nat) : Prop where
  source : h.source.Ordered
  outputs : ∀ v ∈ h.views, v.output.Ordered
  accounted : h.numbers.Perm
    (h.handles.map (·.2) ++ h.liveKeys.map .source ++ (made ++ detached))
  once : ∀ handle ∈ h.handles.map (·.2) ++ h.liveKeys.map .source ++ (made ++ detached),
    h.numbers.count handle = 1
  counted : h.source.count = countOn .source (h.handles.map (·.2)) +
    countOn .source detached + h.liveKeys.length + countOn .source made
  followers : ∀ v ∈ h.views, v.output.count = countOn (.view v.key) (h.handles.map (·.2)) +
    countOn (.view v.key) detached + countOn (.view v.key) made
  cancelled : ∀ name handle, lookup? name h.handles = some handle →
    h.Loses handle (h.unsubscribe name) ∧ ∀ other, h.Loses handle (h.hold name other)
  detaching : ∀ name, (h.detach name).entries = h.entries
  dropped : ∀ key ∈ h.liveKeys, h.Loses (.source key) (h.dropView key)
  named : (h.named.map (·.2) ++ unnamed).Perm h.liveKeys
  dismissed : ∀ name key, lookup? name h.named = some key →
    h.Loses (.source key) (h.dismissView name) ∧
      ∀ other, h.Loses (.source key) (h.keepView name other)

/-- **A kept ledger is exact.** -/
theorem Hub.Kept.exact {h : Hub σ τ κ} {made detached : List Handle} {unnamed : List Nat}
    (hk : h.Kept (made ++ detached) unnamed) : h.Exact made detached unnamed where
  source := hk.ledger.source
  outputs := hk.ledger.outputs
  accounted := hk.ledger.accounted
  once _ hmem := List.count_eq_one_of_mem hk.ledger.nodup (hk.ledger.accounted.mem_iff.2 hmem)
  counted := by
    rw [hk.ledger.source_count, countOn_append]
    omega
  followers v hv := by
    rw [hk.ledger.output_count hv, countOn_append]
    omega
  cancelled _ _ hheld := hk.ledger.loses_held hheld
  detaching _ := rfl
  dropped _ hlive := hk.ledger.loses_view hlive
  named := hk.claimed.views.symm
  dismissed _ _ hheld := hk.loses_held hheld

/-- **The registries are exact**, after any sequence of the parts of operations, and so at every
    moment of every run, whatever callbacks do while they are notified.  Registries are in the order
    of their numbers, below the next one, and hold one entry for each handle that a name holds, for
    each live view, for each handle that was detached, and for each subscription whose call has not
    returned, of which there is none between two steps.  So the count of a source is the sum of
    these.  Unsubscribing, taking another handle and dropping a view each take out the entry of
    what is let go of, and leave all others in their order; detaching leaves them all.  The live
    views are those that names hold and those that are being made, of which there is none between
    two steps. -/
theorem registry_exact (behave : κ → σ → Reaction σ τ κ) (depth : Nat) (a : σ)
    (steps : List (Step σ τ κ)) {s : Session σ τ κ}
    (hrun : (Session.ofValue a).run behave depth steps = s) (hdeep : s.hub.tooDeep = false) :
    (∀ parts d, Docket.run (⟨.ofValue a, [], [], []⟩ : Docket σ τ κ) parts = d →
      d.hub.Exact d.made d.detached d.views) ∧
    (∀ m detached, Session.Audits behave depth (.ofValue a) [] steps ⟨m, detached⟩ →
      m.hub.Exact (making m.agenda) detached (naming m.agenda)) ∧
    (∃ detached, Session.Audits behave depth (.ofValue a) [] steps ⟨⟨s.hub, []⟩, detached⟩ ∧
      s.hub.Exact [] detached []) ∧
    (s.hub.named.map (·.2)).Perm s.hub.liveKeys := by
  subst hrun
  -- a new session has neither entries nor subscriptions; the rest is what parts and steps keep
  have hstart : (Session.ofValue a : Session σ τ κ).hub.Kept [] [] := Hub.kept_ofValue a
  obtain ⟨deeds, hbrings⟩ := Session.exists_brings behave depth _ steps hdeep
  obtain ⟨detached, haudits⟩ := Session.exists_audit hbrings []
  have hend : ((Session.ofValue a).run behave depth steps).hub.Exact [] detached [] :=
    (haudits.balanced hstart).kept.exact
  refine ⟨fun parts d hd => ?_, fun m detached hm => ?_, ⟨detached, haudits, hend⟩, ?_⟩
  · subst hd
    have hempty : (⟨.ofValue a, [], [], []⟩ : Docket σ τ κ).Kept := Hub.kept_ofValue a
    exact (Docket.kept_run hempty parts).exact
  · exact (hm.balanced hstart).kept.exact
  · have hnamed := hend.named
    rwa [List.append_nil] at hnamed

/-- A run in which `first` dismisses `second`, which has made `third` while it was made itself, and
    which is then let go of without being cancelled. -/
def dismissedAndDetached : List (Step Int Int (Listener Int)) :=
  [.subscribe "first" ⟨"first", some (1, .unsubscribe "second")⟩,
    .subscribe "second" ⟨"second", some (0, .subscribe "third")⟩,
    .detach "third",
    .addView "double" (2 * ·),
    .publish fun _ => 1]

/-- The session in which that run ends. -/
def dismissedSession : Session Int Int (Listener Int) :=
  (Session.ofValue 0).run Listener.behave 4 dismissedAndDetached

/-- One handle, one detached callback and one view are left, which make three entries. -/
theorem registry_exact_detached :
    (Session.ofValue 0).run Listener.behave 4 dismissedAndDetached = dismissedSession ∧
    dismissedSession.hub.tooDeep = false ∧ dismissedSession.hub.ids = [0, 2, 3] ∧
    dismissedSession.hub.handles.map (·.2) = [.source 0] ∧ dismissedSession.hub.liveKeys = [3] ∧
    ∃ detached, dismissedSession.hub.Exact [] detached [] ∧ countOn .source detached = 1 := by
  have hrun : (Session.ofValue 0).run Listener.behave 4 dismissedAndDetached =
      dismissedSession := rfl
  have hdeep : dismissedSession.hub.tooDeep = false := by decide +kernel
  have hids : dismissedSession.hub.ids = [0, 2, 3] := by decide +kernel
  have hheld : dismissedSession.hub.handles.map (·.2) = [.source 0] := by decide +kernel
  have hlive : dismissedSession.hub.liveKeys = [3] := by decide +kernel
  obtain ⟨-, -, ⟨detached, -, hexact⟩, -⟩ :=
    registry_exact Listener.behave 4 0 dismissedAndDetached hrun hdeep
  refine ⟨hrun, hdeep, hids, hheld, hlive, detached, hexact, ?_⟩
  have hcount : dismissedSession.hub.source.count = 3 := by decide +kernel
  -- the sum leaves one entry for what was detached
  have hcounted : 3 = 1 + countOn .source detached + 1 + 0 := by
    have hsum := hexact.counted
    rwa [hcount, hheld, hlive] at hsum
  omega

end ZoneConsole
