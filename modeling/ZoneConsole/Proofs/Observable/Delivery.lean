import ZoneConsole.Proofs.Observable.Deeds
import ZoneConsole.Proofs.Observable.ViewRuns

/-!
# Exact delivery

Callbacks may read, publish, subscribe and unsubscribe while they are notified, to any depth.
What a run of a session brings about is a list of deeds, and this file compares it with what
the run recorded.

* **`Deed.Exact`** — a publication calls just the entries that are registered when it begins,
  each once, in their order, with the published snapshot; a subscription calls just its
  callback, with the current snapshot; and nothing else calls.
* **`chronicle`** — what happened in deeds, in the order of its beginnings.
* **`Session.Brings`** — the deeds of the steps of a run.
* **`deliveries_exact`** — the deeds of every run are exact, and all publications and calls
  that the run recorded are theirs.
-/

namespace ZoneConsole

variable {σ τ κ : Type}

namespace Happening

/-- Is it a call? -/
def isCall : Happening σ κ → Bool
  | called _ _ _ _ => true
  | published _ _ | subscribed _ _ => false

/-- The event that records it.  A subscription is recorded by its call only. -/
def event? : Happening σ κ → Option (Event σ τ)
  | published source value => some (.published (source.version + 1) value)
  | subscribed _ _ => none
  | called id _ _ version => some (.called id version)

/-- What has to happen directly within it: which entries a publication and a subscription call,
    and with what.  A callback that is called does what it likes, but it calls no entry itself. -/
def Admits : Happening σ κ → List (Happening σ κ) → Prop
  | published source value, within =>
    within = source.registry.map fun entry => called entry.1 entry.2 value (source.version + 1)
  | subscribed source callback, within =>
    within = [called source.nextId callback source.value source.version]
  | called _ _ _ _, within => ∀ what ∈ within, what.isCall = false

end Happening

/-- A deed in which, at every depth, just those are called that have to be. -/
inductive Deed.Exact : Deed σ κ → Prop
  | mk {what within} : what.Admits (within.map Deed.what) → (∀ d ∈ within, Exact d) →
      Exact ⟨what, within⟩

/-! ### Chronicles -/

mutual

/-- What happened in a deed, each thing before what happened within it. -/
def Deed.chronicle : Deed σ κ → List (Happening σ κ)
  | .mk what within => what :: chronicle within

/-- What happened in deeds, each thing before what happened within it. -/
def chronicle : List (Deed σ κ) → List (Happening σ κ)
  | [] => []
  | d :: rest => d.chronicle ++ chronicle rest

end

@[simp] theorem chronicle_nil : chronicle ([] : List (Deed σ κ)) = [] := rfl

theorem chronicle_cons (what : Happening σ κ) (within rest : List (Deed σ κ)) :
    chronicle (⟨what, within⟩ :: rest) = what :: chronicle within ++ chronicle rest := rfl

theorem chronicle_append (first rest : List (Deed σ κ)) :
    chronicle (first ++ rest) = chronicle first ++ chronicle rest := by
  induction first with
  | nil => rfl
  | cons d more ih => rw [List.cons_append, chronicle, chronicle, ih, List.append_assoc]

/-- What deeds leave in the record: their publications and their calls. -/
def eventsOf (deeds : List (Deed σ κ)) : List (Event σ τ) :=
  (chronicle deeds).filterMap Happening.event?

@[simp] theorem eventsOf_nil : eventsOf ([] : List (Deed σ κ)) = ([] : List (Event σ τ)) := rfl

theorem eventsOf_append (first rest : List (Deed σ κ)) :
    eventsOf (τ := τ) (first ++ rest) = eventsOf first ++ eventsOf rest := by
  rw [eventsOf, chronicle_append, List.filterMap_append]
  rfl

theorem eventsOf_cons (what : Happening σ κ) (within rest : List (Deed σ κ)) :
    eventsOf (τ := τ) (⟨what, within⟩ :: rest) =
      what.event?.toList ++ (eventsOf within ++ eventsOf rest) := by
  rw [eventsOf, chronicle_cons, List.cons_append, List.filterMap_cons, List.filterMap_append]
  cases what.event? (τ := τ) <;> rfl

/-- What a task leaves in the record before any of its deeds. -/
def Task.opening : Task σ τ κ → List (Event σ τ)
  | .call id _ _ version => [.called id version]
  | _ => []

/-- The deeds that a task may bring about: a round calls its entries, and other tasks call
    nobody but through a publication or a subscription. -/
def Task.Fits : Task σ τ κ → List (Deed σ κ) → Prop
  | .round value version entries, deeds =>
    deeds.map Deed.what = entries.map fun entry => .called entry.1 entry.2 value version
  | _, deeds => ∀ d ∈ deeds, d.what.isCall = false

namespace Hub

variable {behave : κ → σ → Reaction σ τ κ} {task : Task σ τ κ} {h h' : Hub σ τ κ}
  {deeds : List (Deed σ κ)}

/-- **The deeds of a task are exact**, and they are of the kind of the task. -/
theorem Does.exact (hd : Does behave task h deeds h') :
    task.Fits deeds ∧ ∀ d ∈ deeds, d.Exact := by
  -- What a reaction does first is of no other kind than what it does later.
  have happend : ∀ {first rest : List (Deed σ κ)},
      ((∀ d ∈ first, d.what.isCall = false) ∧ ∀ d ∈ first, d.Exact) →
      ((∀ d ∈ rest, d.what.isCall = false) ∧ ∀ d ∈ rest, d.Exact) →
      (∀ d ∈ first ++ rest, d.what.isCall = false) ∧ ∀ d ∈ first ++ rest, d.Exact := by
    intro first rest hfirst hrest
    constructor
    · exact List.forall_mem_append.2 ⟨hfirst.1, hrest.1⟩
    · exact List.forall_mem_append.2 ⟨hfirst.2, hrest.2⟩
  induction hd with
  | done => exact ⟨nofun, nofun⟩
  | report _ ih => exact ih
  | read _ ih => exact ih
  | count _ ih => exact ih
  | remember _ ih => exact ih
  | publish _ _ ihfirst ihrest => exact happend ihfirst ihrest
  | subscribe _ _ ihfirst ihrest => exact happend ihfirst ihrest
  | unsubscribe _ ih => exact ih
  | detach _ ih => exact ih
  | addView _ _ ihfirst ihrest => exact happend ihfirst ihrest
  | subscribeView _ ih => exact ih
  | dropView _ ih => exact ih
  | notify _ ih =>
      constructor
      · exact List.forall_mem_singleton.2 rfl
      · exact List.forall_mem_singleton.2 (.mk ih.1 ih.2)
  | enroll _ ih =>
      constructor
      · exact List.forall_mem_singleton.2 rfl
      · exact List.forall_mem_singleton.2 (.mk ih.1 ih.2)
  | listener _ ih => exact ih
  | view => exact ⟨nofun, nofun⟩
  | nil => exact ⟨rfl, nofun⟩
  | cons _ _ ihcall ihrest =>
      constructor
      · exact congrArg (List.cons _) ihrest.1
      · refine List.forall_mem_cons.2 ⟨.mk ?_ ihcall.2, ihrest.2⟩
        intro what hwhat
        obtain ⟨d, hd, rfl⟩ := List.mem_map.1 hwhat
        exact ihcall.1 d hd

/-- **The record of a task** is that of its deeds: what it publishes and whom it calls. -/
theorem Does.events (hd : Does behave task h deeds h') :
    h'.events.filter Event.ofSource =
      h.events.filter Event.ofSource ++ (task.opening ++ eventsOf deeds) := by
  have hrecord : ∀ (h : Hub σ τ κ) (e : Event σ τ), e.ofSource = true →
      (h.record e).events.filter Event.ofSource = h.events.filter Event.ofSource ++ [e] := by
    intro h e he
    rw [record, List.filter_append, List.filter_singleton, he]
    rfl
  -- each rule adds what its parts add, in their order; calm steps between them add nothing
  induction hd with
  | done => exact (List.append_nil _).symm
  | report _ ih => exact ih.trans (congrArg (· ++ _) (calm_left _ _).events)
  | read _ ih => exact ih
  | count _ ih => exact ih
  | remember _ ih => exact ih
  | publish _ _ ihfirst ihrest =>
      rw [ihrest, ihfirst, eventsOf_append, List.append_assoc]
      rfl
  | subscribe _ _ ihfirst ihrest =>
      rw [ihrest, (calm_hold _ _ _).events, ihfirst, eventsOf_append, List.append_assoc]
      rfl
  | unsubscribe _ ih => exact ih.trans (congrArg (· ++ _) (calm_unsubscribe _ _).events)
  | detach _ ih => exact ih.trans (congrArg (· ++ _) (calm_detach _ _).events)
  | addView _ _ ihfirst ihrest =>
      rw [ihrest, (calm_keepView _ _ _).events, ihfirst, (calm_viewed _ _).events, eventsOf_append,
        List.append_assoc]
      rfl
  | subscribeView _ ih => exact ih.trans (congrArg (· ++ _) (calm_followView _ _ _).events)
  | dropView _ ih => exact ih.trans (congrArg (· ++ _) (calm_dismissView _ _).events)
  | notify _ ih =>
      rw [ih, published, hrecord _ _ rfl, List.append_assoc, eventsOf_cons, eventsOf_nil,
        List.append_nil]
      rfl
  | enroll _ ih =>
      rw [ih, eventsOf_cons, eventsOf_nil, List.append_nil]
      rfl
  | listener _ ih =>
      rw [ih, hrecord _ _ rfl, List.append_assoc]
      rfl
  | view => rw [(calm_refresh _ _).events, hrecord _ _ rfl]; rfl
  | nil => exact (List.append_nil _).symm
  | cons _ _ ihcall ihrest =>
      rw [ihrest, ihcall, eventsOf_cons, List.append_assoc]
      simp only [Task.opening, Happening.event?, Option.toList_some, List.nil_append,
        List.append_assoc]

end Hub

/-! ### Steps of a session -/

namespace Session

open Hub

variable {behave : κ → σ → Reaction σ τ κ} {depth : Nat}

/-- What the steps of a run bring about, one after the other: what their reactions do.  A drop of
    the source brings about nothing. -/
inductive Brings (behave : κ → σ → Reaction σ τ κ) (depth : Nat) :
    Session σ τ κ → List (Step σ τ κ) → List (Deed σ κ) → Prop
  | done {s} : Brings behave depth s [] []
  | drop {s steps deeds} :
      Brings behave depth (s.step behave depth .drop).1 steps deeds →
      Brings behave depth s (.drop :: steps) deeds
  | step {s step steps first rest} : step.drops = false →
      Does behave (.react (s.reaction step)) s.hub first (s.step behave depth step).1.hub →
      Brings behave depth (s.step behave depth step).1 steps rest →
      Brings behave depth s (step :: steps) (first ++ rest)

/-- What every part of a run respects, the whole run respects. -/
theorem Brings.holds {R : Hub σ τ κ → Hub σ τ κ → Prop} (hR : Lasting R)
    {s : Session σ τ κ} {steps : List (Step σ τ κ)} {deeds : List (Deed σ κ)}
    (hb : Brings behave depth s steps deeds) : R s.hub (s.run behave depth steps).hub := by
  induction hb with
  | done => exact hR.calm (.refl _)
  | drop _ ih => exact hR.trans (hR.calm (calm_drop _)) ih
  | step _ hdoes _ ih => exact hR.trans (hdoes.holds hR) ih

/-- The record of a run is that of its deeds. -/
theorem Brings.events {s : Session σ τ κ} {steps : List (Step σ τ κ)} {deeds : List (Deed σ κ)}
    (hb : Brings behave depth s steps deeds) :
    (s.run behave depth steps).hub.events.filter Event.ofSource =
      s.hub.events.filter Event.ofSource ++ eventsOf deeds := by
  induction hb with
  | done => exact (List.append_nil _).symm
  | drop _ ih => exact ih
  | @step s step steps first rest _ hdoes _ ih =>
      rw [run, ih, hdoes.events, eventsOf_append, List.append_assoc]
      rfl

/-- The deeds of a run are exact, and no call stands among them. -/
theorem Brings.exact {s : Session σ τ κ} {steps : List (Step σ τ κ)} {deeds : List (Deed σ κ)}
    (hb : Brings behave depth s steps deeds) :
    ∀ d ∈ deeds, d.what.isCall = false ∧ d.Exact := by
  induction hb with
  | done => exact nofun
  | drop _ ih => exact ih
  | step _ hdoes _ ih =>
      obtain ⟨hfits, hexact⟩ := hdoes.exact
      exact List.forall_mem_append.2 ⟨fun d hd => ⟨hfits d hd, hexact d hd⟩, ih⟩

/-- Calls that did nest too deep stay so. -/
theorem Brings.deep {s : Session σ τ κ} {steps : List (Step σ τ κ)} {deeds : List (Deed σ κ)}
    (hb : Brings behave depth s steps deeds) :
    (s.run behave depth steps).hub.tooDeep = s.hub.tooDeep :=
  hb.holds lasting_deep

/-- **Every run brings about deeds**, if its calls did not nest too deep. -/
theorem exists_brings (behave : κ → σ → Reaction σ τ κ) (depth : Nat) (s : Session σ τ κ)
    (steps : List (Step σ τ κ)) (hdeep : (s.run behave depth steps).hub.tooDeep = false) :
    ∃ deeds, Brings behave depth s steps deeds := by
  induction steps generalizing s with
  | nil => exact ⟨[], .done⟩
  | cons step rest ih =>
      obtain ⟨later, hlater⟩ := ih _ hdeep
      cases hdrops : step.drops with
      | true =>
          obtain rfl := eq_drop_of_drops hdrops
          exact ⟨later, .drop hlater⟩
      | false =>
          have hhub : (s.step behave depth step).1.hub = _ := hub_step hdrops
          have hnext : (s.step behave depth step).1.hub.tooDeep = false :=
            hlater.deep.symm.trans hdeep
          rw [hhub] at hnext
          obtain ⟨first, hdoes⟩ := does_react (does_call behave depth) (s.reaction step) hnext
          exact ⟨first ++ later, .step hdrops (hhub ▸ hdoes) hlater⟩

end Session

/-- **Delivery is exact.**  Whatever callbacks do while they are notified, every run brings about
    deeds in which each publication calls the entries that are registered when it begins, each
    once, in their order, with the published snapshot, and each subscription calls its callback
    once, at once, with the current snapshot.  No other call stands in the deeds at any depth,
    and what the run recorded of publications and calls is just what stands there. -/
theorem deliveries_exact (behave : κ → σ → Reaction σ τ κ) (depth : Nat) (a : σ)
    (steps : List (Step σ τ κ)) {h : Hub σ τ κ}
    (hrun : ((Session.ofValue a).run behave depth steps).hub = h) (hdeep : h.tooDeep = false) :
    ∃ deeds : List (Deed σ κ),
      Session.Brings behave depth (.ofValue a) steps deeds ∧
      h.events.filter Event.ofSource = (chronicle deeds).filterMap Happening.event? ∧
      ∀ d ∈ deeds, d.what.isCall = false ∧ d.Exact := by
  subst hrun
  obtain ⟨deeds, hbrings⟩ := Session.exists_brings behave depth _ steps hdeep
  exact ⟨deeds, hbrings, hbrings.events, hbrings.exact⟩

/-- The entry that an event calls, and with which version. -/
def Event.call? : Event σ τ → Option (Nat × Nat)
  | .called id version => some (id, version)
  | _ => none

/-- A run in which callbacks publish, unsubscribe each other and subscribe while they are
    notified: `first` answers 1 with 2, and `third` answers 2 with a new subscription. -/
def crossing : List (Step Int Int (Listener Int)) :=
  [.subscribe "first" ⟨"first", some (1, .set 2)⟩,
    .subscribe "second" ⟨"second", some (1, .unsubscribe "third")⟩,
    .subscribe "third" ⟨"third", some (2, .subscribe "fourth")⟩,
    .publish fun _ => 1]

/-- `third` is called with version 1 although `second` has cancelled it before that, and `fourth`,
    which version 2 registered, is not called with version 1. -/
theorem crossing_exact : ∃ h : Hub Int Int (Listener Int),
    ((Session.ofValue 0).run Listener.behave 4 crossing).hub = h ∧ h.tooDeep = false ∧
    h.events.filterMap Event.call? =
      [(0, 0), (1, 0), (2, 0), (0, 1), (0, 2), (1, 2), (2, 2), (3, 2), (1, 1), (2, 1)] ∧
    ∃ deeds : List (Deed Int (Listener Int)),
      Session.Brings Listener.behave 4 (.ofValue 0) crossing deeds ∧
      h.events.filter Event.ofSource = (chronicle deeds).filterMap Happening.event? ∧
      ∀ d ∈ deeds, d.what.isCall = false ∧ d.Exact := by
  have hdeep : ((Session.ofValue 0).run Listener.behave 4 crossing).hub.tooDeep = false := by
    decide +kernel
  refine ⟨_, rfl, hdeep, by decide +kernel, ?_⟩
  exact deliveries_exact Listener.behave 4 0 crossing rfl hdeep

end ZoneConsole
