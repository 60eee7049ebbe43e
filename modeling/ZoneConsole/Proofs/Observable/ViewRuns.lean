import ZoneConsole.Proofs.Observable.Steps
import ZoneConsole.Proofs.Observable.Views

/-!
# Views after a run

A publication calls each live view once more while it runs, and a view that is made meanwhile
starts with the newest value.  So calls carry, however deep they nest, and so do the steps of a
session.  Between the steps of a run, which is when no notification is in progress, a view is
current.

* **`carries_notify`**, **`carries_react`**, **`refreshing_call`** — publications, reactions and
  calls carry.
* **`carries_step`**, **`carries_run`** — one step and a whole run.
* **`views_current`** — what followers of a view can rely on.
-/

namespace ZoneConsole

variable {σ τ κ : Type}

namespace Hub

variable {h : Hub σ τ κ} {a : σ} {behave : κ → σ → Reaction σ τ κ}

/-! ### Calls, notifications and reactions -/

/-- A way of running callbacks that carries, and after which a view that was called is fresh. -/
structure Refreshing (a : σ) (call : Nat → Callback κ → σ → Nat → Hub σ τ κ → Hub σ τ κ) :
    Prop where
  carries : ∀ id callback value version (h : Hub σ τ κ), h.Sound a →
    Carries a h (call id callback value version h)
  refreshes : ∀ id key value version (h : Hub σ τ κ), h.Sound a →
    (call id (.view key) value version h).tooDeep = false →
    (call id (.view key) value version h).Fresh key

variable {call : Nat → Callback κ → σ → Nat → Hub σ τ κ → Hub σ τ κ}

theorem carries_callAll (hcall : Refreshing a call) (value : σ) (version : Nat)
    (entries : List (Nat × Callback κ)) (hs : h.Sound a) :
    Carries a h (callAll call value version entries h) := by
  induction entries generalizing h with
  | nil => exact .refl hs
  | cons entry rest ih =>
      obtain ⟨id, callback⟩ := entry
      have hfirst := hcall.carries id callback value version h hs
      exact hfirst.trans (ih hfirst.sound)

/-- After a round of calls each view that was called is fresh. -/
theorem fresh_callAll (hcall : Refreshing a call) (value : σ) (version : Nat)
    {entries : List (Nat × Callback κ)} (hs : h.Sound a)
    (hdeep : (callAll call value version entries h).tooDeep = false) {id key : Nat}
    (hentry : (id, .view key) ∈ entries) : (callAll call value version entries h).Fresh key := by
  induction entries generalizing h with
  | nil => cases hentry
  | cons entry rest ih =>
      obtain ⟨id', callback⟩ := entry
      have hfirst := hcall.carries id' callback value version h hs
      have hrest := carries_callAll hcall value version rest hfirst.sound
      rcases List.mem_cons.1 hentry with hhead | htail
      · -- The first call makes the view fresh, and the calls that follow carry that on.
        obtain ⟨rfl, rfl⟩ := Prod.mk.inj hhead
        exact hrest.fresh hdeep key
          (hcall.refreshes id key value version h hs (hrest.deep hdeep))
      · exact ih hfirst.sound hdeep htail

/-- **A publication carries**: it outdates all views at once, and then calls each of them while
    it notifies. -/
theorem carries_notify (hcall : Refreshing a call) (change : σ → σ) (hs : h.Sound a) :
    Carries a h (notify call change h) ∧
      ((notify call change h).tooDeep = false → ∀ key, (notify call change h).Fresh key) := by
  let published : Hub σ τ κ := { h with source := h.source.publish (change h.source.value) }.record
    (.published (h.source.version + 1) (change h.source.value))
  have hsound : published.Sound a :=
    ⟨⟨hs.wired.ahead, hs.wired.distinct, hs.wired.registered, hs.wired.held⟩,
      hs.honest.publish _⟩
  have hcalled := carries_callAll hcall (change h.source.value) (h.source.version + 1)
    h.source.registry hsound
  have hfresh : (notify call change h).tooDeep = false →
      ∀ key, (notify call change h).Fresh key := by
    intro hdeep key v hv hkey halive
    by_cases hold : key < h.source.nextId
    · -- An old view that lives afterwards lived before, so it was registered when the round began.
      obtain ⟨⟨k, lived⟩, htag, hk, hlived⟩ := hcalled.tags _ (tag_mem hv) (hkey ▸ hold)
      obtain rfl : lived = true := hlived halive
      obtain rfl : k = key := hk.trans hkey
      exact fresh_callAll hcall _ _ hsound hdeep (hs.wired.registered k htag) v hv hkey halive
    · -- A view that was made in the round showed the newest value when it was made.
      have hunborn : published.Fresh key := fresh_of_unborn hsound.wired (Nat.not_lt.1 hold)
      exact hcalled.fresh hdeep key hunborn v hv hkey halive
  exact ⟨⟨hcalled.deep, hcalled.tags, hcalled.later, hcalled.sound, fun hdeep key _ =>
    hfresh hdeep key⟩, hfresh⟩

theorem carries_enroll (hcall : Refreshing a call) (callback : Callback κ) (hs : h.Sound a) :
    Carries a h (enroll call callback h) :=
  have hregister := carries_register hs callback
  hregister.trans (hcall.carries _ _ _ _ _ hregister.sound)

/-- A subscription carries: the number it gets is that of no view. -/
theorem carries_subscribe (hcall : Refreshing a call) (name : String) (callback : κ)
    (hs : h.Sound a) :
    Carries a h ((enroll call (.listener callback) h).hold name (.source h.source.nextId)) := by
  have henroll := carries_enroll hcall (.listener callback) hs
  have hcalled := hcall.carries h.source.nextId (.listener callback) h.source.value
    h.source.version _ (carries_register hs (.listener callback)).sound
  refine henroll.trans (carries_hold henroll.sound name ?_)
  rintro id hid
  obtain rfl := Handle.source.inj hid
  refine ⟨hcalled.later, fun t ht => ?_⟩
  -- A view made during the call has a later key, and the others have earlier ones.
  by_cases hold : t.1 < h.source.nextId
  · exact Nat.ne_of_lt hold
  · intro heq
    obtain ⟨u, hu, hkey, -⟩ := hcalled.tags t ht (heq ▸ Nat.lt_succ_self _)
    exact hold (hkey ▸ hs.wired.ahead u hu)

/-- A new view is called once before it is held. -/
theorem carries_makeView (hcall : Refreshing a call) (name : String) (project : σ → τ)
    (hs : h.Sound a) : Carries a h (makeView call name project h) := by
  have hview := carries_withView hs project
  have hcalled := hcall.carries h.source.nextId (.view h.source.nextId) h.source.value
    h.source.version _ hview.sound
  have hmade := hview.trans hcalled
  exact hmade.trans (carries_keepView hmade.sound name _)

/-- **A reaction carries**, whatever it does. -/
theorem carries_react (hcall : Refreshing a call) (r : Reaction σ τ κ) (hs : h.Sound a) :
    Carries a h (react call r h) := by
  induction r generalizing h with
  | done => exact .refl hs
  | report entry next ih =>
      have hrec := carries_record hs (e := .left entry) rfl fun _ => rfl
      exact hrec.trans (ih hrec.sound)
  | read next ih => exact ih h.source.value hs
  | count next ih => exact ih h.source.count hs
  | remember next ih => exact ih h.events hs
  | publish change next ih =>
      have hnotify := (carries_notify hcall change hs).1
      exact hnotify.trans (ih hnotify.sound)
  | subscribe name callback next ih =>
      have hsub := carries_subscribe hcall name callback hs
      exact hsub.trans (ih hsub.sound)
  | unsubscribe name next ih =>
      have hun := carries_unsubscribe hs name
      exact hun.trans (ih hun.sound)
  | detach name next ih =>
      have hdetach := carries_detach hs name
      exact hdetach.trans (ih hdetach.sound)
  | addView name project next ih =>
      have hmake := carries_makeView hcall name project hs
      exact hmake.trans (ih hmake.sound)
  | subscribeView name as next ih =>
      have hfollow := carries_followView hs name as
      exact hfollow.trans (ih hfollow.sound)
  | dropView name next ih =>
      have hdismiss := carries_dismissView hs name
      exact hdismiss.trans (ih hdismiss.sound)

/-- Calls carry at any depth: one level more is the induction over how deep they nest. -/
theorem refreshing_call (behave : κ → σ → Reaction σ τ κ) (depth : Nat) :
    Refreshing a (Hub.call behave depth) := by
  induction depth with
  | zero =>
      constructor
      · intro id callback value version h hs
        refine ⟨nofun, old_of_tags_eq rfl, Nat.le_refl _, ?_, nofun⟩
        exact ⟨hs.wired.congr rfl rfl rfl,
          ⟨hs.honest.numbered, hs.honest.newest, hs.honest.views, hs.honest.unborn⟩⟩
      · intro id key value version h _ hdeep
        cases hdeep
  | succ depth ih =>
      constructor
      · intro id callback value version h hs
        have hrec := carries_record hs (e := .called id version) rfl fun _ => rfl
        cases callback with
        | listener k => exact hrec.trans (carries_react ih _ hrec.sound)
        | view key => exact hrec.trans (carries_refresh hrec.sound key).1
      · intro id key value version h hs _
        have hrec := carries_record hs (e := .called id version) rfl fun _ => rfl
        exact (carries_refresh hrec.sound key).2

theorem carries_drop (hs : h.Sound a) : Carries a h h.drop :=
  ⟨id, old_of_tags_eq rfl, Nat.le_refl _, ⟨hs.wired.congr rfl rfl rfl,
    ⟨hs.honest.numbered, hs.honest.newest, hs.honest.views, hs.honest.unborn⟩⟩, fun _ _ => id⟩

theorem sound_ofValue (a : σ) : (ofValue a : Hub σ τ κ).Sound a :=
  ⟨⟨nofun, .nil, nofun, nofun⟩, ⟨rfl, rfl, nofun, fun _ _ => rfl⟩⟩

end Hub

namespace Session

open Hub

variable {a : σ} {s : Session σ τ κ}

/-- **One step of a session** carries, be it a reaction or a drop. -/
theorem carries_step (behave : κ → σ → Reaction σ τ κ) (depth : Nat) (hs : s.hub.Sound a)
    (step : Step σ τ κ) : Carries a s.hub (s.step behave depth step).1.hub := by
  cases hdrops : step.drops with
  | true =>
      obtain rfl := eq_drop_of_drops hdrops
      exact carries_drop hs
  | false =>
      rw [hub_step hdrops]
      exact carries_react (refreshing_call behave depth) _ hs

/-- **A whole run** carries. -/
theorem carries_run (behave : κ → σ → Reaction σ τ κ) (depth : Nat) (hs : s.hub.Sound a)
    (steps : List (Step σ τ κ)) : Carries a s.hub (s.run behave depth steps).hub := by
  induction steps generalizing s with
  | nil => exact .refl hs
  | cons step rest ih =>
      have hstep := carries_step behave depth hs step
      exact hstep.trans (ih hstep.sound)

end Session

/-- **A view is current and never goes back.**  After any run of steps, however deep the
    publications of callbacks nested in it, each live view shows the projection of the value
    that the source has.  What a view has published, and what each of its followers was given,
    are projections of published snapshots, in the order of their versions.  And a view that is
    called leaves the source as it is. -/
theorem views_current (behave : κ → σ → Reaction σ τ κ) (depth : Nat) (a : σ)
    (steps : List (Step σ τ κ)) {h : Hub σ τ κ}
    (hrun : ((Session.ofValue a).run behave depth steps).hub = h) (hdeep : h.tooDeep = false) :
    (∀ v ∈ h.views,
      (v.alive → v.output.value = v.project h.source.value) ∧
      (projections v.key h.events).Pairwise (·.1 ≤ ·.1) ∧
      (∀ t ∈ projections v.key h.events, v.Shows (snapshots a h.events) t) ∧
      ∀ id, (deliveries v.key id h.events).Pairwise (·.1 ≤ ·.1) ∧
        ∀ t ∈ deliveries v.key id h.events, v.Shows (snapshots a h.events) t) ∧
    ∀ (d id key : Nat) (value : σ) (version : Nat) (before : Hub σ τ κ),
      (Hub.call behave d id (.view key) value version before).source = before.source := by
  have hcarries := Session.carries_run behave depth (s := Session.ofValue a)
    (Hub.sound_ofValue a) steps
  rw [hrun] at hcarries
  have hfresh : ∀ key, h.Fresh key := fun key => hcarries.fresh hdeep key nofun
  constructor
  · intro v hv
    have hhonest := hcarries.sound.honest.views v hv
    refine ⟨?_, ?_, ?_, fun id => ⟨?_, ?_⟩⟩
    · intro halive
      obtain ⟨x, hget, hvalue⟩ := hhonest.shows
      rw [hfresh v.key v hv rfl halive, hcarries.sound.honest.newest] at hget
      exact Option.some.inj hget ▸ hvalue
    · exact hhonest.ordered.sublist (projections_sublist ..)
    · intro t ht
      exact (hhonest.told t ((projections_sublist ..).subset ht)).2
    · exact hhonest.ordered.sublist (deliveries_sublist ..)
    · intro t ht
      exact (hhonest.told t ((deliveries_sublist ..).subset ht)).2
  · intro d id key value version before
    cases d with
    | zero => rfl
    | succ d => exact (Hub.undisturbed_refresh (before.record (.called id version)) key).source

/-- A run in which two callbacks publish while they are notified: the one before the view
    answers 1 with 2, and the one after it answers 2 with 3. -/
def echoes : List (Step Int Int (Listener Int)) :=
  [.subscribe "before" ⟨"before", some (1, .set 2)⟩,
    .addView "doubled" (· * 2),
    .subscribeView "doubled" "shown",
    .subscribe "after" ⟨"after", some (2, .set 3)⟩,
    .publish fun _ => 1]

/-- Three notifications nest there.  The view is told of 2 at once, and then of 3 twice: when the
    outermost notification comes to it, 3 is the newest value already. -/
theorem echoes_current : ∃ h : Hub Int Int (Listener Int),
    ((Session.ofValue 0).run Listener.behave 4 echoes).hub = h ∧ h.tooDeep = false ∧
    deliveries 1 0 h.events = [(0, 0), (2, 4), (3, 6), (3, 6)] ∧
    (∀ v ∈ h.views,
      (v.alive → v.output.value = v.project h.source.value) ∧
      (projections v.key h.events).Pairwise (·.1 ≤ ·.1) ∧
      (∀ t ∈ projections v.key h.events, v.Shows (snapshots 0 h.events) t) ∧
      ∀ id, (deliveries v.key id h.events).Pairwise (·.1 ≤ ·.1) ∧
        ∀ t ∈ deliveries v.key id h.events, v.Shows (snapshots 0 h.events) t) ∧
    ∀ (d id key : Nat) (value : Int) (version : Nat) (before : Hub Int Int (Listener Int)),
      (Hub.call Listener.behave d id (.view key) value version before).source = before.source := by
  have hdeep : ((Session.ofValue 0).run Listener.behave 4 echoes).hub.tooDeep = false := by
    decide +kernel
  refine ⟨_, rfl, hdeep, by decide +kernel, ?_⟩
  exact views_current Listener.behave 4 0 echoes rfl hdeep

end ZoneConsole
