import ZoneConsole.Observable.Session

/-!
# Callbacks that only look on

A reaction is passive if it reads, counts, remembers and reports, and neither publishes nor touches
the registry.  Where all callbacks of a hub are passive, a publication cannot nest: the
source after it is the source before it with the one value published, whatever is
registered and however deep calls may nest.

* **`Hub.Undisturbed`** — two hubs with the same source, the same handles and the same
  life.  Passive reactions, refreshed views and whole rounds of calls leave a hub
  undisturbed (`undisturbed_react`, `undisturbed_call`, `undisturbed_callAll`).
* **`Hub.undisturbed_publish`** — so a publication is `Observable.publish` and nothing else.
-/

namespace ZoneConsole

variable {σ τ κ : Type}

/-- The reaction reads, counts, remembers and reports; it changes nothing. -/
inductive Reaction.Passive : Reaction σ τ κ → Prop where
  | done : Passive .done
  | report (entry : Entry σ τ) {next : Reaction σ τ κ} : Passive next → Passive (.report entry next)
  | read {next : σ → Reaction σ τ κ} : (∀ a, Passive (next a)) → Passive (.read next)
  | count {next : Nat → Reaction σ τ κ} : (∀ n, Passive (next n)) → Passive (.count next)
  | remember {next : List (Event σ τ) → Reaction σ τ κ} :
      (∀ events, Passive (next events)) → Passive (.remember next)

namespace Hub

/-- The source, the handles, the names of views and the life of a hub are those of another one; its
    views and its record of events may differ. -/
structure Undisturbed (before after : Hub σ τ κ) : Prop where
  source : after.source = before.source
  handles : after.handles = before.handles
  named : after.named = before.named
  alive : after.alive = before.alive

theorem Undisturbed.refl (h : Hub σ τ κ) : Undisturbed h h := ⟨rfl, rfl, rfl, rfl⟩

theorem Undisturbed.trans {a b c : Hub σ τ κ} (hab : Undisturbed a b) (hbc : Undisturbed b c) :
    Undisturbed a c where
  source := hbc.source.trans hab.source
  handles := hbc.handles.trans hab.handles
  named := hbc.named.trans hab.named
  alive := hbc.alive.trans hab.alive

theorem undisturbed_record (h : Hub σ τ κ) (event : Event σ τ) : Undisturbed h (h.record event) :=
  ⟨rfl, rfl, rfl, rfl⟩

/-- A view publishes to its own followers only. -/
theorem undisturbed_refresh (h : Hub σ τ κ) (key : Nat) : Undisturbed h (h.refresh key) := by
  unfold refresh
  cases h.view? key with
  | none => exact .refl h
  | some v =>
      by_cases ha : v.alive
      · simp only [ha, if_true]
        exact ⟨rfl, rfl, rfl, rfl⟩
      · simp only [ha]
        exact .refl h

/-- A passive reaction leaves the hub undisturbed, however other calls are run. -/
theorem undisturbed_react {call : Nat → Callback κ → σ → Nat → Hub σ τ κ → Hub σ τ κ}
    {r : Reaction σ τ κ} (hr : r.Passive) (h : Hub σ τ κ) : Undisturbed h (react call r h) := by
  induction hr generalizing h with
  | done => exact .refl h
  | report entry _ ih => exact (undisturbed_record h (.left entry)).trans (ih _)
  | read _ ih => exact ih h.source.value h
  | count _ ih => exact ih h.source.count h
  | remember _ ih => exact ih h.events h

variable {behave : κ → σ → Reaction σ τ κ}

/-- Calling one entry of the registry leaves the hub undisturbed, at any depth. -/
theorem undisturbed_call (hb : ∀ k a, (behave k a).Passive) (depth id : Nat)
    (callback : Callback κ) (value : σ) (version : Nat) (h : Hub σ τ κ) :
    Undisturbed h (call behave depth id callback value version h) := by
  cases depth with
  | zero => exact ⟨rfl, rfl, rfl, rfl⟩
  | succ depth =>
      have hrec : Undisturbed h (h.record (.called id version)) := undisturbed_record h _
      cases callback with
      | listener k => exact hrec.trans (undisturbed_react (hb k value) _)
      | view key => exact hrec.trans (undisturbed_refresh _ key)

/-- A whole round of calls leaves the hub undisturbed. -/
theorem undisturbed_callAll (hb : ∀ k a, (behave k a).Passive) (depth : Nat) (value : σ)
    (version : Nat) (entries : List (Nat × Callback κ)) (h : Hub σ τ κ) :
    Undisturbed h (callAll (call behave depth) value version entries h) := by
  induction entries generalizing h with
  | nil => exact .refl h
  | cons entry rest ih =>
      obtain ⟨id, callback⟩ := entry
      exact (undisturbed_call hb depth id callback value version h).trans (ih _)

/-- Among passive callbacks a publication publishes one value and disturbs nothing else. -/
theorem undisturbed_publish (hb : ∀ k a, (behave k a).Passive) (depth : Nat) (change : σ → σ)
    (h : Hub σ τ κ) :
    Undisturbed { h with source := h.source.publish (change h.source.value) }
      (h.publish behave depth change) :=
  (undisturbed_record _ (.published (h.source.publish (change h.source.value)).version
    (change h.source.value))).trans (undisturbed_callAll hb depth _ _ _ _)

end Hub

end ZoneConsole
