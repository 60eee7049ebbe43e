import Mathlib.Logic.Function.Iterate
import ZoneConsole.Proofs.Observable.Overtaking

/-!
# Moments of a run

The rules of `Hub.Does` say what a task has done when it is over.  A `Moment` is a point on the
way: the hub as it is then, with what is still to be done, which begins with the innermost call.

* **`Task.begin`** — what a task does first, and what it leaves to be done.
* **`Moment.next`**, **`Moment.Leads`** — one step, and any number of them.
* **`Hub.Does.leads`** — a task that follows the rules is done step by step.
* **`Session.Meets`** — the moments of a run: those between its steps, and those within the
  reaction that a step is.
-/

namespace ZoneConsole

variable {σ τ κ : Type}

/-- Something still to be done: a task, or to hold a subscription or a view that was made
    before. -/
inductive Job (σ τ κ : Type)
  | task (task : Task σ τ κ)
  | hold (name : String) (id : Nat)
  | keep (name : String) (key : Nat)

/-- What a task does to a hub first, and what is still to be done then.  Callbacks are called one
    by one, so that there is a moment before each call. -/
def Task.begin (behave : κ → σ → Reaction σ τ κ) (h : Hub σ τ κ) :
    Task σ τ κ → Hub σ τ κ × List (Job σ τ κ)
  | .react .done => (h, [])
  | .react (.report entry next) => (h.record (.left entry), [.task (.react next)])
  | .react (.read next) => (h, [.task (.react (next h.source.value))])
  | .react (.count next) => (h, [.task (.react (next h.source.count))])
  | .react (.remember next) => (h, [.task (.react (next h.events))])
  | .react (.publish change next) =>
    (h.published (change h.source.value),
      [.task (.round (change h.source.value) (h.source.version + 1) h.source.registry),
        .task (.react next)])
  | .react (.subscribe name callback next) =>
    (h.registered (.listener callback),
      [.task (.round h.source.value h.source.version [(h.source.nextId, .listener callback)]),
        .hold name h.source.nextId, .task (.react next)])
  | .react (.unsubscribe name next) => (h.unsubscribe name, [.task (.react next)])
  | .react (.detach name next) => (h.detach name, [.task (.react next)])
  | .react (.addView name project next) =>
    (h.withView project,
      [.task (.round h.source.value h.source.version
        [(h.source.nextId, .view h.source.nextId)]),
        .keep name h.source.nextId, .task (.react next)])
  | .react (.subscribeView name as next) => (h.followView name as, [.task (.react next)])
  | .react (.dropView name next) => (h.dismissView name, [.task (.react next)])
  | .notify change =>
    (h.published (change h.source.value),
      [.task (.round (change h.source.value) (h.source.version + 1) h.source.registry)])
  | .enroll callback =>
    (h.registered callback,
      [.task (.round h.source.value h.source.version [(h.source.nextId, callback)])])
  | .call id (.listener k) value version =>
    (h.record (.called id version), [.task (.react (behave k value))])
  | .call id (.view key) _ version => ((h.record (.called id version)).refresh key, [])
  | .round _ _ [] => (h, [])
  | .round value version ((id, callback) :: rest) =>
    (h, [.task (.call id callback value version), .task (.round value version rest)])

/-- What is done first of a job, and what is still to be done then. -/
def Job.begin (behave : κ → σ → Reaction σ τ κ) (h : Hub σ τ κ) :
    Job σ τ κ → Hub σ τ κ × List (Job σ τ κ)
  | .task t => t.begin behave h
  | .hold name id => (h.hold name (.source id), [])
  | .keep name key => (h.keepView name key, [])

/-- A hub in the middle of a run, with what is still to be done. -/
structure Moment (σ τ κ : Type) where
  hub : Hub σ τ κ
  agenda : List (Job σ τ κ)

namespace Moment

/-- The next moment.  When nothing is left to be done, nothing changes any more. -/
def next (behave : κ → σ → Reaction σ τ κ) : Moment σ τ κ → Moment σ τ κ
  | ⟨h, []⟩ => ⟨h, []⟩
  | ⟨h, job :: rest⟩ => ⟨(job.begin behave h).1, (job.begin behave h).2 ++ rest⟩

/-- One moment comes after another, or is the same. -/
inductive Leads (behave : κ → σ → Reaction σ τ κ) : Moment σ τ κ → Moment σ τ κ → Prop
  | refl {m} : Leads behave m m
  | step {m m'} : Leads behave (m.next behave) m' → Leads behave m m'

variable {behave : κ → σ → Reaction σ τ κ} {m m₁ m₂ : Moment σ τ κ}

theorem Leads.trans (hfirst : Leads behave m m₁) (hrest : Leads behave m₁ m₂) :
    Leads behave m m₂ := by
  induction hfirst with
  | refl => exact hrest
  | step _ ih => exact .step (ih hrest)

theorem leads_iterate (m : Moment σ τ κ) (n : Nat) : Leads behave m ((next behave)^[n] m) := by
  induction n generalizing m with
  | zero => exact .refl
  | succ n ih => exact .step (ih (m.next behave))

/-- Of two moments that come after the same one, one comes after the other. -/
theorem Leads.linear (h₁ : Leads behave m m₁) (h₂ : Leads behave m m₂) :
    Leads behave m₁ m₂ ∨ Leads behave m₂ m₁ := by
  induction h₁ with
  | refl => exact .inl h₂
  | step hmore ih =>
      cases h₂ with
      | refl => exact .inr (.step hmore)
      | step hrest => exact ih hrest

/-- After the end comes nothing else. -/
theorem Leads.eq_of_done {h : Hub σ τ κ} (hl : Leads behave ⟨h, []⟩ m) : m = ⟨h, []⟩ := by
  generalize hstart : (⟨h, []⟩ : Moment σ τ κ) = start at hl
  induction hl with
  | refl => rfl
  | step _ ih =>
      subst hstart
      exact ih rfl

/-- Every moment on the way to the end leads there. -/
theorem Leads.to_end {h : Hub σ τ κ} (hm : Leads behave m m₁) (hend : Leads behave m ⟨h, []⟩) :
    Leads behave m₁ ⟨h, []⟩ := by
  rcases hm.linear hend with hl | hl
  · exact hl
  · rw [hl.eq_of_done]
    exact .refl

/-- What the steps of a run respect holds between any two of its moments. -/
theorem Leads.holds {P : Moment σ τ κ → Prop} (hP : ∀ m, P m → P (m.next behave))
    (hl : Leads behave m m₁) (hm : P m) : P m₁ := by
  induction hl with
  | refl => exact hm
  | step _ ih => exact ih (hP _ hm)

end Moment

namespace Hub

open Moment

variable {behave : κ → σ → Reaction σ τ κ} {task : Task σ τ κ} {h h' : Hub σ τ κ}
  {deeds : List (Deed σ κ)}

/-- **A task that follows the rules is done step by step**, whatever is to be done after it. -/
theorem Does.leads (hd : Does behave task h deeds h') (rest : List (Job σ τ κ)) :
    Leads behave ⟨h, .task task :: rest⟩ ⟨h', rest⟩ := by
  -- A task never ends before its first step, so a reaction that publishes or subscribes can
  -- take the first step of that together with its own.
  suffices hnext : Leads behave (next behave ⟨h, .task task :: rest⟩) ⟨h', rest⟩ from .step hnext
  induction hd generalizing rest with
  | done => exact .refl
  | report _ ih => exact .step (ih rest)
  | read _ ih => exact .step (ih rest)
  | count _ ih => exact .step (ih rest)
  | remember _ ih => exact .step (ih rest)
  | @publish change next h first between later h' _ _ ihfirst ihrest =>
      have hfirst := ihfirst (.task (.react next) :: rest)
      exact hfirst.trans (.step (ihrest rest))
  | @subscribe name callback next h first between later h' _ _ ihfirst ihrest =>
      have hfirst := ihfirst (.hold name h.source.nextId :: .task (.react next) :: rest)
      exact hfirst.trans (.step (.step (ihrest rest)))
  | unsubscribe _ ih => exact .step (ih rest)
  | detach _ ih => exact .step (ih rest)
  | @addView name project next h first between later h' _ _ ihfirst ihrest =>
      have hfirst := ihfirst (.keep name h.source.nextId :: .task (.react next) :: rest)
      exact hfirst.trans (.step (.step (ihrest rest)))
  | subscribeView _ ih => exact .step (ih rest)
  | dropView _ ih => exact .step (ih rest)
  | notify _ ih => exact .step (ih rest)
  | enroll _ ih => exact .step (ih rest)
  | listener _ ih => exact .step (ih rest)
  | view => exact .refl
  | nil => exact .refl
  | @cons id callback value version entries h within between calls h' _ _ ihcall ihrest =>
      have hcall := ihcall (.task (.round value version entries) :: rest)
      exact .step (hcall.trans (.step (ihrest rest)))

/-! ### What every step respects -/

/-- What every part of a task respects, the first step of every task respects. -/
theorem Lasting.begin_task {R : Hub σ τ κ → Hub σ τ κ → Prop} (hR : Lasting R) (h : Hub σ τ κ)
    (task : Task σ τ κ) : R h (task.begin behave h).1 := by
  cases task with
  | react reaction =>
      cases reaction with
      | done | read _ | count _ | remember _ => exact hR.calm (.refl h)
      | report entry _ => exact hR.calm (calm_left h entry)
      | publish _ _ => exact hR.published h _
      | subscribe _ _ _ => exact hR.registered h _
      | unsubscribe name _ => exact hR.calm (calm_unsubscribe h name)
      | detach name _ => exact hR.calm (calm_detach h name)
      | addView _ project _ =>
          exact hR.trans (hR.calm (calm_viewed h project)) (hR.registered _ _)
      | subscribeView name as _ => exact hR.calm (calm_followView h name as)
      | dropView name _ => exact hR.calm (calm_dismissView h name)
  | notify _ => exact hR.published h _
  | enroll _ => exact hR.registered h _
  | call id callback _ version =>
      cases callback with
      | listener _ => exact hR.called h id version
      | view key => exact hR.trans (hR.called h id version) (hR.calm (calm_refresh _ key))
  | round _ _ entries =>
      cases entries with
      | nil => exact hR.calm (.refl h)
      | cons _ _ => exact hR.calm (.refl h)

/-- What every part of a task respects, every step respects. -/
theorem Lasting.next {R : Hub σ τ κ → Hub σ τ κ → Prop} (hR : Lasting R) (m : Moment σ τ κ) :
    R m.hub (m.next behave).hub := by
  obtain ⟨h, agenda⟩ := m
  cases agenda with
  | nil => exact hR.calm (.refl h)
  | cons job _ =>
      cases job with
      | task task => exact hR.begin_task h task
      | hold name id => exact hR.calm (calm_hold h name _)
      | keep name key => exact hR.calm (calm_keepView h name key)

/-- What every part of a task respects holds between any two moments. -/
theorem Lasting.leads {R : Hub σ τ κ → Hub σ τ κ → Prop} (hR : Lasting R) {m m' : Moment σ τ κ}
    (hl : Leads behave m m') : R m.hub m'.hub :=
  hl.holds (P := fun m' => R m.hub m'.hub) (fun m' hm => hR.trans hm (hR.next m'))
    (hR.calm (.refl _))

end Hub

namespace Session

/-- The moments of a run: those between its steps, when nothing is left to be done, and those
    within the reactions that its steps are. -/
inductive Meets (behave : κ → σ → Reaction σ τ κ) (depth : Nat) :
    Session σ τ κ → List (Step σ τ κ) → Moment σ τ κ → Prop
  | between {s steps} : Meets behave depth s steps ⟨s.hub, []⟩
  | within {s step steps m} : step.drops = false →
      Moment.Leads behave ⟨s.hub, [.task (.react (s.reaction step))]⟩ m →
      Meets behave depth s (step :: steps) m
  | later {s step steps m} :
      Meets behave depth (s.step behave depth step).1 steps m →
      Meets behave depth s (step :: steps) m

end Session

end ZoneConsole
