import ZoneConsole.Observable.Session
import ZoneConsole.Proofs.Members

/-!
# What a step changes

Whatever a step of a session does to the hub, a callback could do as well: but for a drop of the
source, each step is a reaction, and those that only look or follow are one that is done at once.
So what reactions keep, steps keep.  Beside the hub a step changes the stream or the adapter of one
name at most.

* **`Session.reaction`** — the reaction that a step is.
* **`Session.Stepped`** — all that one step may change, and **`Session.stepped`**, the one case
  split over the steps.
* **`Session.hub_step`** — a step that is no drop is its reaction.
-/

namespace ZoneConsole

variable {σ τ κ : Type}

namespace Step

/-- Does the step ask the stream of a name? -/
def asksStream (name : String) : Step σ τ κ → Bool
  | changed n => n = name
  | _ => false

/-- Does the step make another stream under a name, or an adapter of the one that is there? -/
def endsStream (name : String) : Step σ τ κ → Bool
  | watch n | watchView _ n | adapt n => n = name
  | _ => false

/-- Does the step ask the adapter of a name? -/
def asksAdapter (name : String) : Step σ τ κ → Bool
  | next n => n = name
  | _ => false

/-- Does the step make another adapter under a name? -/
def endsAdapter (name : String) : Step σ τ κ → Bool
  | adapt n => n = name
  | _ => false

/-- Does the step drop the source? -/
def drops : Step σ τ κ → Bool
  | drop => true
  | _ => false

end Step

/-- Changing a table under one name leaves it the same under another one. -/
theorem lookup?_put_ne {α : Type} {name other : String} (hne : name ≠ other) (a : α)
    (table : List (String × α)) : lookup? other (put name a table) = lookup? other table := by
  rw [lookup?_put, if_neg fun h => hne h.symm]

namespace Session

/-- The reaction that a step is.  A step that needs the source is none when it is gone. -/
def reaction (s : Session σ τ κ) : Step σ τ κ → Reaction σ τ κ
  | .subscribe name callback => if s.hub.alive then .subscribe name callback .done else .done
  | .publish change => if s.hub.alive then .publish change .done else .done
  | .addView name project => if s.hub.alive then .addView name project .done else .done
  | .unsubscribe name => .unsubscribe name .done
  | .detach name => .detach name .done
  | .subscribeView name as => .subscribeView name as .done
  | .dropView name => .dropView name .done
  | _ => .done

/-- All that a step changes: the hub as its reaction does or as a drop does, and under a name
    neither a stream nor an adapter with which the step has nothing to do. -/
structure Stepped (behave : κ → σ → Reaction σ τ κ) (depth : Nat) (s : Session σ τ κ)
    (step : Step σ τ κ) (t : Session σ τ κ) : Prop where
  hub : t.hub =
    if step.drops then s.hub.drop else Hub.react (Hub.call behave depth) (s.reaction step) s.hub
  follower : ∀ name, step.asksStream name = false → step.endsStream name = false →
    lookup? name t.followers = lookup? name s.followers
  adapter : ∀ name, step.asksAdapter name = false → step.endsAdapter name = false →
    lookup? name t.adapters = lookup? name s.adapters

variable {behave : κ → σ → Reaction σ τ κ} {depth : Nat} {s : Session σ τ κ}

/-- A step that leaves all streams and adapters as they are. -/
theorem Stepped.of_tables {step : Step σ τ κ} {t : Session σ τ κ}
    (hhub : t.hub = if step.drops then s.hub.drop
      else Hub.react (Hub.call behave depth) (s.reaction step) s.hub)
    (hfollowers : t.followers = s.followers) (hadapters : t.adapters = s.adapters) :
    s.Stepped behave depth step t where
  hub := hhub
  follower _ _ _ := by rw [hfollowers]
  adapter _ _ _ := by rw [hadapters]

/-- A step that needs the source is no step once it is gone. -/
theorem Stepped.withSource {step : Step σ τ κ}
    {f : Session σ τ κ → Session σ τ κ × Outcome σ τ} (hdrops : step.drops = false)
    (hdead : ¬ s.hub.alive → s.reaction step = .done)
    (hf : s.hub.alive → s.Stepped behave depth step (f s).1) :
    s.Stepped behave depth step (s.withSource f).1 := by
  unfold Session.withSource
  by_cases halive : s.hub.alive
  · rw [if_pos halive]
    exact hf halive
  · rw [if_neg halive]
    refine .of_tables ?_ rfl rfl
    rw [hdrops, hdead halive]
    rfl

/-- To follow a channel changes nothing in the hub, and one stream at most. -/
theorem hub_follow (s : Session σ τ κ) (name : String) (target : Target) :
    (s.follow name target).hub = s.hub := by
  unfold follow
  cases s.channel? target <;> rfl

theorem adapters_follow (s : Session σ τ κ) (name : String) (target : Target) :
    (s.follow name target).adapters = s.adapters := by
  unfold follow
  cases s.channel? target <;> rfl

theorem lookup?_follow {name other : String} (hne : name ≠ other) (s : Session σ τ κ)
    (target : Target) :
    lookup? other (s.follow name target).followers = lookup? other s.followers := by
  unfold follow
  cases s.channel? target with
  | none => rfl
  | some c => exact lookup?_put_ne hne _ _

/-- A step that follows a channel under a name. -/
theorem Stepped.of_follow {step : Step σ τ κ} {name : String} (target : Target)
    (hends : ∀ other, step.endsStream other = decide (name = other))
    (hdrops : step.drops = false) (hreaction : s.reaction step = .done) :
    s.Stepped behave depth step (s.follow name target) where
  hub := by
    rw [hub_follow, hdrops, hreaction]
    rfl
  follower other _ hother := lookup?_follow (by simpa [hends] using hother) s target
  adapter _ _ _ := by rw [adapters_follow]

/-- **What one step changes**, by cases on the step. -/
theorem stepped (behave : κ → σ → Reaction σ τ κ) (depth : Nat) (s : Session σ τ κ)
    (step : Step σ τ κ) : s.Stepped behave depth step (s.step behave depth step).1 := by
  cases step with
  | subscribe name callback =>
      refine .withSource rfl (if_neg ·) fun halive => .of_tables ?_ rfl rfl
      rw [reaction, if_pos halive]
      rfl
  | publish change =>
      refine .withSource rfl (if_neg ·) fun halive => .of_tables ?_ rfl rfl
      rw [reaction, if_pos halive]
      rfl
  | addView name project =>
      refine .withSource rfl (if_neg ·) fun halive => ?_
      have hmade : s.hub.addView behave depth name project =
          Hub.react (Hub.call behave depth) (s.reaction (.addView name project)) s.hub := by
        rw [reaction, if_pos halive]
        rfl
      -- what it answers depends on the view that it finds, and what it does does not
      dsimp only
      split <;> exact .of_tables hmade rfl rfl
  | watch name =>
      exact .withSource rfl (fun _ => rfl) fun _ => .of_follow .source (fun _ => rfl) rfl rfl
  | watchView view name =>
      simp only [Session.step]
      split
      · exact .of_follow _ (fun _ => rfl) rfl rfl
      · exact .of_tables rfl rfl rfl
  | changed name =>
      simp only [Session.step]
      split
      · split
        · refine ⟨rfl, fun other hasks _ => lookup?_put_ne ?_ _ _, fun _ _ _ => rfl⟩
          simpa [Step.asksStream] using hasks
        · exact .of_tables rfl rfl rfl
      · exact .of_tables rfl rfl rfl
  | adapt name =>
      simp only [Session.step]
      split
      · refine ⟨rfl, fun other _ hends => ?_, fun other _ hends => lookup?_put_ne ?_ _ _⟩
        · have hne : name ≠ other := by simpa [Step.endsStream] using hends
          exact (lookup?_without ..).trans (if_neg fun h => hne h.symm)
        · simpa [Step.endsAdapter] using hends
      · exact .of_tables rfl rfl rfl
  | next name =>
      simp only [Session.step]
      split
      · split
        · refine ⟨rfl, fun _ _ _ => rfl, fun other hasks _ => lookup?_put_ne ?_ _ _⟩
          simpa [Step.asksAdapter] using hasks
        · exact .of_tables rfl rfl rfl
      · exact .of_tables rfl rfl rfl
  | viewValue | current | latest =>
      simp only [Session.step]
      split <;> exact .of_tables rfl rfl rfl
  | unsubscribe | detach | subscribeView | dropView | drop => exact .of_tables rfl rfl rfl

/-- A step that does not drop the source is its reaction. -/
theorem hub_step {step : Step σ τ κ} (hdrops : step.drops = false) :
    (s.step behave depth step).1.hub =
      Hub.react (Hub.call behave depth) (s.reaction step) s.hub :=
  (stepped behave depth s step).hub.trans (if_neg (by simp [hdrops]))

theorem eq_drop_of_drops {step : Step σ τ κ} (hdrops : step.drops = true) : step = .drop := by
  cases step with
  | drop => rfl
  | _ => cases hdrops

theorem drops_eq_false {step : Step σ τ κ} (hstep : step ≠ .drop) : step.drops = false := by
  cases hdrops : step.drops with
  | true => exact absurd (eq_drop_of_drops hdrops) hstep
  | false => rfl

/-- Once the source is gone, a step lets go of what is held or follows a view, if it does anything
    at all. -/
theorem reaction_of_dead (hdead : s.hub.alive = false) (step : Step σ τ κ) :
    s.reaction step = .done ∨ ∃ name, s.reaction step = .unsubscribe name .done ∨
      s.reaction step = .detach name .done ∨ s.reaction step = .dropView name .done ∨
      ∃ as, s.reaction step = .subscribeView name as .done := by
  cases step with
  | unsubscribe name => exact .inr ⟨name, .inl rfl⟩
  | detach name => exact .inr ⟨name, .inr (.inl rfl)⟩
  | dropView name => exact .inr ⟨name, .inr (.inr (.inl rfl))⟩
  | subscribeView name as => exact .inr ⟨name, .inr (.inr (.inr ⟨as, rfl⟩))⟩
  | subscribe | publish | addView => exact .inl (if_neg (by simp [hdead]))
  | _ => exact .inl rfl

end Session

end ZoneConsole
