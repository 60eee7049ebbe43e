import ZoneConsole.Observable.Session

/-!
# What a task brings about

The functions that notify bound how deep calls may nest.  The rules of `Hub.Does` are their
meaning without a bound: what a task does to a hub, with the tree of all that happened to the
source on the way.  Each part of the tree keeps the source as it was when the part began.

* **`Deed`** — a publication, a subscription or a call, with what happened until it ended.
* **`Hub.Does`** — the rules, for reactions, publications, subscriptions, calls and rounds.
* **`Hub.Calm`** — hubs between which nothing is published and nobody is called.
* **`Hub.Does.holds`** — the one induction over the rules that relations between hubs need.
* **`Hub.does_call`** — a call that did not nest too deep follows the rules, and so does all
  that is made of calls (`does_round`, `does_notify`, `does_enroll`, `does_react`).
-/

namespace ZoneConsole

variable {σ τ κ : Type}

/-- What happens to a source.  A publication and a subscription come with the source as it was
    when they began, a call with the entry that is called and with what it is given. -/
inductive Happening (σ κ : Type)
  | published (source : Observable σ (Callback κ)) (value : σ)
  | subscribed (source : Observable σ (Callback κ)) (callback : Callback κ)
  | called (id : Nat) (callback : Callback κ) (value : σ) (version : Nat)

/-- Something that happened, with what happened until it ended. -/
structure Deed (σ κ : Type) where
  what : Happening σ κ
  within : List (Deed σ κ)

/-- What a hub can be made to do. -/
inductive Task (σ τ κ : Type)
  | react (reaction : Reaction σ τ κ)
  | notify (change : σ → σ)
  | enroll (callback : Callback κ)
  | call (id : Nat) (callback : Callback κ) (value : σ) (version : Nat)
  | round (value : σ) (version : Nat) (entries : List (Nat × Callback κ))

namespace Event

/-- Is the event a publication of the source or a call of an entry of its registry? -/
def ofSource : Event σ τ → Bool
  | published _ _ | called _ _ => true
  | _ => false

end Event

namespace Hub

/-- The hub when a value has been published and nobody has been called yet. -/
def published (h : Hub σ τ κ) (value : σ) : Hub σ τ κ :=
  { h with source := h.source.publish value }.record (.published (h.source.version + 1) value)

/-- The hub when a callback has been registered and not been called yet. -/
def registered (h : Hub σ τ κ) (callback : Callback κ) : Hub σ τ κ :=
  { h with source := h.source.register callback }

/-- The hub when a view has been made and not been registered yet. -/
def viewed (h : Hub σ τ κ) (project : σ → τ) : Hub σ τ κ :=
  { h with views := h.views ++ [h.newView project] }

/-- What a task does to a hub, with all that happened to the source on the way.  A publication
    calls the entries that are registered when it begins, a subscription the one that it
    registers. -/
inductive Does (behave : κ → σ → Reaction σ τ κ) :
    Task σ τ κ → Hub σ τ κ → List (Deed σ κ) → Hub σ τ κ → Prop
  | done {h} : Does behave (.react .done) h [] h
  | report {entry next h deeds h'} :
      Does behave (.react next) (h.record (.left entry)) deeds h' →
      Does behave (.react (.report entry next)) h deeds h'
  | read {next h deeds h'} :
      Does behave (.react (next h.source.value)) h deeds h' →
      Does behave (.react (.read next)) h deeds h'
  | count {next h deeds h'} :
      Does behave (.react (next h.source.count)) h deeds h' →
      Does behave (.react (.count next)) h deeds h'
  | remember {next h deeds h'} :
      Does behave (.react (next h.events)) h deeds h' →
      Does behave (.react (.remember next)) h deeds h'
  | publish {change next h first between rest h'} :
      Does behave (.notify change) h first between →
      Does behave (.react next) between rest h' →
      Does behave (.react (.publish change next)) h (first ++ rest) h'
  | subscribe {name callback next h first between rest h'} :
      Does behave (.enroll (.listener callback)) h first between →
      Does behave (.react next) (between.hold name (.source h.source.nextId)) rest h' →
      Does behave (.react (.subscribe name callback next)) h (first ++ rest) h'
  | unsubscribe {name next h deeds h'} :
      Does behave (.react next) (h.unsubscribe name) deeds h' →
      Does behave (.react (.unsubscribe name next)) h deeds h'
  | detach {name next h deeds h'} :
      Does behave (.react next) (h.detach name) deeds h' →
      Does behave (.react (.detach name next)) h deeds h'
  | addView {name project next h first between rest h'} :
      Does behave (.enroll (.view h.source.nextId)) (h.viewed project) first between →
      Does behave (.react next) (between.keepView name h.source.nextId) rest h' →
      Does behave (.react (.addView name project next)) h (first ++ rest) h'
  | subscribeView {name as next h deeds h'} :
      Does behave (.react next) (h.followView name as) deeds h' →
      Does behave (.react (.subscribeView name as next)) h deeds h'
  | dropView {name next h deeds h'} :
      Does behave (.react next) (h.dismissView name) deeds h' →
      Does behave (.react (.dropView name next)) h deeds h'
  | notify {change h calls h'} :
      Does behave (.round (change h.source.value) (h.source.version + 1) h.source.registry)
        (h.published (change h.source.value)) calls h' →
      Does behave (.notify change) h
        [⟨.published h.source (change h.source.value), calls⟩] h'
  | enroll {callback h calls h'} :
      Does behave (.round h.source.value h.source.version [(h.source.nextId, callback)])
        (h.registered callback) calls h' →
      Does behave (.enroll callback) h [⟨.subscribed h.source callback, calls⟩] h'
  | listener {id callback value version h deeds h'} :
      Does behave (.react (behave callback value)) (h.record (.called id version)) deeds h' →
      Does behave (.call id (.listener callback) value version) h deeds h'
  | view {id key value version h} :
      Does behave (.call id (.view key) value version) h []
        ((h.record (.called id version)).refresh key)
  | nil {value version h} : Does behave (.round value version []) h [] h
  | cons {id callback value version rest h within between calls h'} :
      Does behave (.call id callback value version) h within between →
      Does behave (.round value version rest) between calls h' →
      Does behave (.round value version ((id, callback) :: rest)) h
        (⟨.called id callback value version, within⟩ :: calls) h'

/-! ### Calm -/

/-- Between the hubs nothing is published and nobody is called or registered; callbacks may be
    let go of, and views may change. -/
structure Calm (before after : Hub σ τ κ) : Prop where
  value : after.source.value = before.source.value
  version : after.source.version = before.source.version
  nextId : after.source.nextId = before.source.nextId
  registry : after.source.registry.Sublist before.source.registry
  events : after.events.filter Event.ofSource = before.events.filter Event.ofSource
  deep : after.tooDeep = before.tooDeep

namespace Calm

theorem refl (h : Hub σ τ κ) : Calm h h := ⟨rfl, rfl, rfl, .refl _, rfl, rfl⟩

theorem trans {a b c : Hub σ τ κ} (hab : Calm a b) (hbc : Calm b c) : Calm a c where
  value := hbc.value.trans hab.value
  version := hbc.version.trans hab.version
  nextId := hbc.nextId.trans hab.nextId
  registry := hbc.registry.trans hab.registry
  events := hbc.events.trans hab.events
  deep := hbc.deep.trans hab.deep

end Calm

theorem calm_append (h : Hub σ τ κ) {events : List (Event σ τ)}
    (hother : ∀ e ∈ events, e.ofSource = false) :
    Calm h { h with events := h.events ++ events } := by
  refine ⟨rfl, rfl, rfl, .refl _, ?_, rfl⟩
  have hnone : events.filter Event.ofSource = [] :=
    List.filter_eq_nil_iff.2 fun e he => by simp [hother e he]
  rw [List.filter_append, hnone, List.append_nil]

theorem calm_left (h : Hub σ τ κ) (entry : Entry σ τ) : Calm h (h.record (.left entry)) :=
  calm_append h fun _ he => by rw [List.mem_singleton.1 he]; rfl

/-- A view publishes to its own followers only. -/
theorem calm_refresh (h : Hub σ τ κ) (key : Nat) : Calm h (h.refresh key) := by
  unfold refresh
  cases h.view? key with
  | none => exact .refl h
  | some v =>
      by_cases halive : v.alive
      · simp only [halive, if_true]
        refine Calm.trans (b := h.modifyView key _) ⟨rfl, rfl, rfl, .refl _, rfl, rfl⟩
          (calm_append _ fun e he => ?_)
        rcases List.mem_cons.1 he with rfl | he
        · rfl
        · obtain ⟨follower, -, rfl⟩ := List.mem_map.1 he
          rfl
      · simp only [halive]
        exact .refl h

theorem calm_cancel (h : Hub σ τ κ) (id : Nat) :
    Calm h { h with source := h.source.cancel id } :=
  ⟨rfl, rfl, rfl, List.filter_sublist, rfl, rfl⟩

theorem calm_release (h : Hub σ τ κ) (handle : Handle) : Calm h (h.release handle) := by
  cases handle with
  | source id => exact calm_cancel h id
  | view key id => exact ⟨rfl, rfl, rfl, .refl _, rfl, rfl⟩

theorem calm_handles (h : Hub σ τ κ) (handles : List (String × Handle)) :
    Calm h { h with handles } :=
  ⟨rfl, rfl, rfl, .refl _, rfl, rfl⟩

theorem calm_hold (h : Hub σ τ κ) (name : String) (handle : Handle) :
    Calm h (h.hold name handle) := by
  unfold hold
  cases lookup? name h.handles with
  | none => exact calm_handles h _
  | some old => exact (calm_handles h _).trans (calm_release _ old)

theorem calm_unsubscribe (h : Hub σ τ κ) (name : String) : Calm h (h.unsubscribe name) := by
  unfold unsubscribe
  cases lookup? name h.handles with
  | none => exact .refl h
  | some old => exact (calm_handles h _).trans (calm_release _ old)

theorem calm_detach (h : Hub σ τ κ) (name : String) : Calm h (h.detach name) :=
  calm_handles h _

theorem calm_modifyView (h : Hub σ τ κ) (key : Nat) (f : View σ τ → View σ τ) :
    Calm h (h.modifyView key f) :=
  ⟨rfl, rfl, rfl, .refl _, rfl, rfl⟩

theorem calm_dropView (h : Hub σ τ κ) (key : Nat) : Calm h (h.dropView key) :=
  (calm_modifyView h key _).trans (calm_cancel _ key)

theorem calm_subscribeView (h : Hub σ τ κ) (key : Nat) (name : String) :
    Calm h (h.subscribeView key name) := by
  unfold subscribeView
  cases h.view? key with
  | none => exact .refl h
  | some v =>
      refine ((calm_modifyView h key _).trans (calm_append _ fun e he => ?_)).trans
        (calm_hold _ _ _)
      rw [List.mem_singleton.1 he]
      rfl

theorem calm_named (h : Hub σ τ κ) (named : List (String × Nat)) : Calm h { h with named } :=
  ⟨rfl, rfl, rfl, .refl _, rfl, rfl⟩

/-- A view is not registered by being made. -/
theorem calm_viewed (h : Hub σ τ κ) (project : σ → τ) : Calm h (h.viewed project) :=
  ⟨rfl, rfl, rfl, .refl _, rfl, rfl⟩

theorem calm_keepView (h : Hub σ τ κ) (name : String) (key : Nat) :
    Calm h (h.keepView name key) := by
  unfold keepView
  cases lookup? name h.named with
  | none => exact calm_named h _
  | some old => exact (calm_named h _).trans (calm_dropView _ old)

theorem calm_dismissView (h : Hub σ τ κ) (name : String) : Calm h (h.dismissView name) := by
  unfold dismissView
  cases lookup? name h.named with
  | none => exact .refl h
  | some key => exact (calm_named h _).trans (calm_dropView _ key)

theorem calm_followView (h : Hub σ τ κ) (name as : String) : Calm h (h.followView name as) := by
  unfold followView
  cases lookup? name h.named with
  | none => exact .refl h
  | some key => exact calm_subscribeView h key as

theorem calm_drop (h : Hub σ τ κ) : Calm h h.drop := ⟨rfl, rfl, rfl, .refl _, rfl, rfl⟩

/-! ### Relations between the hub before a task and the hub after it -/

/-- A relation between an earlier and a later hub that every part of a task respects. -/
structure Lasting (R : Hub σ τ κ → Hub σ τ κ → Prop) : Prop where
  calm : ∀ {h h'}, Calm h h' → R h h'
  trans : ∀ {a b c}, R a b → R b c → R a c
  published : ∀ h value, R h (published h value)
  registered : ∀ h callback, R h (registered h callback)
  called : ∀ h id version, R h (record h (.called id version))

variable {behave : κ → σ → Reaction σ τ κ} {task : Task σ τ κ} {h h' : Hub σ τ κ}
  {deeds : List (Deed σ κ)}

/-- What every part of a task respects, the whole task respects. -/
theorem Does.holds {R : Hub σ τ κ → Hub σ τ κ → Prop} (hR : Lasting R)
    (hd : Does behave task h deeds h') : R h h' := by
  induction hd with
  | done => exact hR.calm (.refl _)
  | report _ ih => exact hR.trans (hR.calm (calm_left _ _)) ih
  | read _ ih => exact ih
  | count _ ih => exact ih
  | remember _ ih => exact ih
  | publish _ _ ihfirst ihrest => exact hR.trans ihfirst ihrest
  | subscribe _ _ ihfirst ihrest =>
      exact hR.trans ihfirst (hR.trans (hR.calm (calm_hold _ _ _)) ihrest)
  | unsubscribe _ ih => exact hR.trans (hR.calm (calm_unsubscribe _ _)) ih
  | detach _ ih => exact hR.trans (hR.calm (calm_detach _ _)) ih
  | addView _ _ ihfirst ihrest =>
      have hbegun := hR.trans (hR.calm (calm_viewed _ _)) ihfirst
      exact hR.trans hbegun (hR.trans (hR.calm (calm_keepView _ _ _)) ihrest)
  | subscribeView _ ih => exact hR.trans (hR.calm (calm_followView _ _ _)) ih
  | dropView _ ih => exact hR.trans (hR.calm (calm_dismissView _ _)) ih
  | notify _ ih => exact hR.trans (hR.published _ _) ih
  | enroll _ ih => exact hR.trans (hR.registered _ _) ih
  | listener _ ih => exact hR.trans (hR.called _ _ _) ih
  | view => exact hR.trans (hR.called _ _ _) (hR.calm (calm_refresh _ _))
  | nil => exact hR.calm (.refl _)
  | cons _ _ ihcall ihrest => exact hR.trans ihcall ihrest

/-- The rules never find calls too deep. -/
theorem lasting_deep : Lasting fun h h' : Hub σ τ κ => h'.tooDeep = h.tooDeep where
  calm hc := hc.deep
  trans hab hbc := hbc.trans hab
  published _ _ := rfl
  registered _ _ := rfl
  called _ _ _ := rfl

theorem Does.deep (hd : Does behave task h deeds h') : h'.tooDeep = h.tooDeep :=
  hd.holds lasting_deep

/-! ### The functions follow the rules -/

/-- A way of running callbacks that follows the rules unless calls nest too deep. -/
def Follows (behave : κ → σ → Reaction σ τ κ)
    (call : Nat → Callback κ → σ → Nat → Hub σ τ κ → Hub σ τ κ) : Prop :=
  ∀ id callback value version h, (call id callback value version h).tooDeep = false →
    ∃ within, Does behave (.call id callback value version) h within
      (call id callback value version h)

variable {call : Nat → Callback κ → σ → Nat → Hub σ τ κ → Hub σ τ κ}

theorem does_round (hcall : Follows behave call) (value : σ) (version : Nat)
    (entries : List (Nat × Callback κ)) {h : Hub σ τ κ}
    (hdeep : (callAll call value version entries h).tooDeep = false) :
    ∃ calls, Does behave (.round value version entries) h calls
      (callAll call value version entries h) := by
  induction entries generalizing h with
  | nil => exact ⟨[], .nil⟩
  | cons entry rest ih =>
      obtain ⟨id, callback⟩ := entry
      obtain ⟨calls, hrest⟩ := ih hdeep
      obtain ⟨within, hfirst⟩ := hcall id callback value version h (hrest.deep ▸ hdeep)
      exact ⟨_, .cons hfirst hrest⟩

theorem does_notify (hcall : Follows behave call) (change : σ → σ) {h : Hub σ τ κ}
    (hdeep : (notify call change h).tooDeep = false) :
    ∃ deeds, Does behave (.notify change) h deeds (notify call change h) := by
  obtain ⟨calls, hround⟩ := does_round hcall (change h.source.value) (h.source.version + 1)
    h.source.registry (h := h.published (change h.source.value)) hdeep
  exact ⟨_, .notify hround⟩

theorem does_enroll (hcall : Follows behave call) (callback : Callback κ) {h : Hub σ τ κ}
    (hdeep : (enroll call callback h).tooDeep = false) :
    ∃ deeds, Does behave (.enroll callback) h deeds (enroll call callback h) := by
  obtain ⟨calls, hround⟩ := does_round hcall h.source.value h.source.version
    [(h.source.nextId, callback)] (h := h.registered callback) hdeep
  exact ⟨_, .enroll hround⟩

theorem does_react (hcall : Follows behave call) (r : Reaction σ τ κ) {h : Hub σ τ κ}
    (hdeep : (react call r h).tooDeep = false) :
    ∃ deeds, Does behave (.react r) h deeds (react call r h) := by
  induction r generalizing h with
  | done => exact ⟨[], .done⟩
  | report entry next ih =>
      obtain ⟨deeds, hnext⟩ := ih hdeep
      exact ⟨deeds, .report hnext⟩
  | read next ih =>
      obtain ⟨deeds, hnext⟩ := ih h.source.value hdeep
      exact ⟨deeds, .read hnext⟩
  | count next ih =>
      obtain ⟨deeds, hnext⟩ := ih h.source.count hdeep
      exact ⟨deeds, .count hnext⟩
  | remember next ih =>
      obtain ⟨deeds, hnext⟩ := ih h.events hdeep
      exact ⟨deeds, .remember hnext⟩
  | publish change next ih =>
      obtain ⟨rest, hnext⟩ := ih hdeep
      obtain ⟨first, hfirst⟩ := does_notify hcall change (hnext.deep ▸ hdeep)
      exact ⟨_, .publish hfirst hnext⟩
  -- what was not too deep in the end was not so when the callback had been called
  | subscribe name callback next ih =>
      obtain ⟨rest, hnext⟩ := ih hdeep
      have hbetween := hnext.deep.symm.trans hdeep
      rw [(calm_hold _ _ _).deep] at hbetween
      obtain ⟨first, hfirst⟩ := does_enroll hcall (.listener callback) hbetween
      exact ⟨_, .subscribe hfirst hnext⟩
  | unsubscribe name next ih =>
      obtain ⟨deeds, hnext⟩ := ih hdeep
      exact ⟨deeds, .unsubscribe hnext⟩
  | detach name next ih =>
      obtain ⟨deeds, hnext⟩ := ih hdeep
      exact ⟨deeds, .detach hnext⟩
  | addView name project next ih =>
      obtain ⟨rest, hnext⟩ := ih hdeep
      have hbetween := hnext.deep.symm.trans hdeep
      rw [makeView, (calm_keepView _ _ _).deep] at hbetween
      obtain ⟨first, hfirst⟩ := does_enroll hcall (.view h.source.nextId) hbetween
      exact ⟨_, .addView hfirst hnext⟩
  | subscribeView name as next ih =>
      obtain ⟨deeds, hnext⟩ := ih hdeep
      exact ⟨deeds, .subscribeView hnext⟩
  | dropView name next ih =>
      obtain ⟨deeds, hnext⟩ := ih hdeep
      exact ⟨deeds, .dropView hnext⟩

/-- **Calls follow the rules**, at any depth at which they do not nest too deep. -/
theorem does_call (behave : κ → σ → Reaction σ τ κ) (depth : Nat) :
    Follows behave (Hub.call behave depth) := by
  induction depth with
  | zero =>
      intro id callback value version h hdeep
      cases hdeep
  | succ depth ih =>
      intro id callback value version h hdeep
      cases callback with
      | listener k =>
          obtain ⟨within, hreact⟩ := does_react ih (behave k value) hdeep
          exact ⟨within, .listener hreact⟩
      | view key => exact ⟨[], .view⟩

end Hub

end ZoneConsole
