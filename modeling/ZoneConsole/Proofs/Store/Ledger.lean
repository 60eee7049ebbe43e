import ZoneConsole.Proofs.Observable.Passive
import ZoneConsole.Store

/-!
# The ledger of a store

What the operations of a store read and write is little: the collection, the ordering of
loads, the count of loads and resets, and the next tag.  Whatever else hangs on a store —
subscribers, views, followers — only looks on.  A `Ledger` is just that little part, with
the effect of every event as a plain function.

* **`Store.ledger_apply`** — the ledger of a store after an event is the effect of the
  event on the ledger before, for every store that is alive.
* **`Store.ledger_run`** — the same for runs, so a property of ledgers over all runs is a
  property of stores.
-/

namespace ZoneConsole

variable {E : Type}

theorem passive_reportCollection (name : String) (c : Collection E) :
    (reportCollection name c).Passive :=
  .report _ .done

/-- What an event adds to the count of loads and resets. -/
def StoreEvent.issues : StoreEvent E → Nat
  | .loadStarted | .reset => 1
  | _ => 0

/-- The part of a store that its operations read and write. -/
structure Ledger (E : Type) where
  collection : Collection E
  ordering : LoadOrdering
  issued : Nat
  nextTag : Nat

namespace Ledger

/-- The ledger before anything was loaded. -/
def make (ordering : LoadOrdering) : Ledger E := ⟨.empty, ordering, 0, 0⟩

/-- Does the answer to the load of a token count? -/
def counts (l : Ledger E) (token : Nat) : Bool :=
  l.ordering = .lastCompletion || l.issued = token

/-- The answer to a load that counts, which replaces the entities or leaves its error. -/
def accept (l : Ledger E) : Except ApiError (List E) → Ledger E
  | .ok entities =>
    { l with
      collection := l.collection.loaded (Store.share l.nextTag entities)
      nextTag := l.nextTag + entities.length }
  | .error e => { l with collection := l.collection.loadFailed e.plain }

variable [Resource E]

/-- The effect of an event. -/
def apply (l : Ledger E) : StoreEvent E → Ledger E
  | .loadStarted => { l with collection := l.collection.loadStarted, issued := l.issued + 1 }
  | .loadEnded token result => if l.counts token then l.accept result else l
  | .created (.ok e) =>
    { l with collection := l.collection.appended ⟨l.nextTag, e⟩, nextTag := l.nextTag + 1 }
  | .replaced id (.ok e) =>
    { l with collection := l.collection.replaced id ⟨l.nextTag, e⟩, nextTag := l.nextTag + 1 }
  | .removed id (.ok ()) => { l with collection := l.collection.without id }
  | .created (.error _) | .replaced _ (.error _) | .removed _ (.error _) => l
  | .errorCleared => { l with collection := l.collection.errorCleared }
  | .reset => { l with collection := .empty, issued := l.issued + 1 }

/-- The effect of events one after the other. -/
def run (l : Ledger E) : List (StoreEvent E) → Ledger E
  | [] => l
  | event :: rest => run (l.apply event) rest

/-- Starts of loads and resets are counted, and nothing else is. -/
theorem issued_apply (l : Ledger E) (event : StoreEvent E) :
    (l.apply event).issued = l.issued + event.issues := by
  cases event with
  | loadEnded token result =>
      simp only [apply]
      split
      · cases result <;> rfl
      · rfl
  | created result => cases result <;> rfl
  | replaced id result => cases result <;> rfl
  | removed id result => cases result <;> rfl
  | loadStarted | errorCleared | reset => rfl

/-- No event changes which of overlapping loads counts. -/
@[simp] theorem ordering_apply (l : Ledger E) (event : StoreEvent E) :
    (l.apply event).ordering = l.ordering := by
  cases event with
  | loadEnded token result =>
      simp only [apply]
      split
      · cases result <;> rfl
      · rfl
  | created result => cases result <;> rfl
  | replaced id result => cases result <;> rfl
  | removed id result => cases result <;> rfl
  | loadStarted | errorCleared | reset => rfl

end Ledger

namespace Store

/-- The source of the store has not been dropped. -/
def Live (s : Store E) : Prop := s.session.hub.alive = true

/-- The ledger of a store. -/
def ledger (s : Store E) : Ledger E := ⟨s.state, s.ordering, s.issued, s.nextTag⟩

theorem live_make (ordering : LoadOrdering) : (make ordering : Store E).Live := rfl

@[simp] theorem ledger_make (ordering : LoadOrdering) :
    (make ordering : Store E).ledger = .make ordering := rfl

/-- A publication of a live store is one publication of its hub. -/
private theorem update_eq {s : Store E} (h : s.Live) (change : Collection E → Collection E) :
    s.update change = { s with session := { s.session with
      hub := s.session.hub.publish reportCollection callDepth change } } := by
  have ha : s.session.hub.alive = true := h
  simp only [update, step, Session.step, Session.withSource, ha, if_true]

/-- Publishing a changed collection keeps a store alive. -/
theorem live_update {s : Store E} (h : s.Live) (change : Collection E → Collection E) :
    (s.update change).Live := by
  rw [update_eq h]
  have hundisturbed :=
    Hub.undisturbed_publish passive_reportCollection callDepth change s.session.hub
  exact hundisturbed.alive.trans h

/-- Publishing a changed collection changes the collection and nothing else of the ledger. -/
theorem ledger_update {s : Store E} (h : s.Live) (change : Collection E → Collection E) :
    (s.update change).ledger = { s.ledger with collection := change s.state } := by
  have hsource :=
    (Hub.undisturbed_publish passive_reportCollection callDepth change s.session.hub).source
  rw [update_eq h]
  simp only [ledger, state, hsource, Observable.publish]

variable [Resource E]

/-- One event keeps a store alive, and its effect on the ledger is that of the ledger. -/
theorem live_ledger_apply {s : Store E} (h : s.Live) (event : StoreEvent E) :
    (s.apply event).Live ∧ (s.apply event).ledger = s.ledger.apply event := by
  -- a store with other counters is as alive as it was
  have published (n tag : Nat) (change : Collection E → Collection E) :=
    And.intro (live_update (s := { s with issued := n, nextTag := tag }) h change)
      (ledger_update (s := { s with issued := n, nextTag := tag }) h change)
  cases event with
  | loadStarted => exact published (s.issued + 1) s.nextTag _
  | loadEnded token result =>
      have hcounts : s.ledger.counts token = s.counts token := rfl
      by_cases hc : s.counts token = true
      · cases result with
        | ok entities =>
            simp only [apply, endLoad, Ledger.apply, hcounts, hc, if_true]
            exact published s.issued (s.nextTag + entities.length) _
        | error e =>
            simp only [apply, endLoad, Ledger.apply, hcounts, hc, if_true]
            exact published s.issued s.nextTag _
      · have hsame : s.apply (.loadEnded token result) = s := by
          cases result <;> simp only [apply, endLoad, if_neg hc]
        simp only [Ledger.apply, hcounts, if_neg hc, hsame]
        exact ⟨h, trivial⟩
  | created result =>
      cases result with
      | ok e => exact published s.issued (s.nextTag + 1) _
      | error e => exact ⟨h, rfl⟩
  | replaced id result =>
      cases result with
      | ok e => exact published s.issued (s.nextTag + 1) _
      | error e => exact ⟨h, rfl⟩
  | removed id result =>
      cases result with
      | ok u => exact published s.issued s.nextTag _
      | error e => exact ⟨h, rfl⟩
  | errorCleared => exact published s.issued s.nextTag _
  | reset => exact published (s.issued + 1) s.nextTag _

theorem live_apply {s : Store E} (h : s.Live) (event : StoreEvent E) : (s.apply event).Live :=
  (live_ledger_apply h event).1

/-- The effect of an event on a store is its effect on the ledger. -/
theorem ledger_apply {s : Store E} (h : s.Live) (event : StoreEvent E) :
    (s.apply event).ledger = s.ledger.apply event :=
  (live_ledger_apply h event).2

/-- The effect of a run on a store is its effect on the ledger. -/
theorem ledger_run {s : Store E} (h : s.Live) (events : List (StoreEvent E)) :
    (s.run events).ledger = s.ledger.run events := by
  induction events generalizing s with
  | nil => rfl
  | cons event rest ih =>
      have hrest := ih (live_apply h event)
      rw [ledger_apply h event] at hrest
      exact hrest

end Store

end ZoneConsole
