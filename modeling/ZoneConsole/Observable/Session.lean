import ZoneConsole.Observable.Follower
import ZoneConsole.Observable.Hub

/-!
# Sessions with an observable value

A `Session` is a hub in use: followers and adapters are held by name, as views are
in the hub, and `Session.step` takes one step of a run and says what it answers. A
step that needs the source is ignored once the source has been dropped.
-/

namespace ZoneConsole

/-- What a follower looks at. -/
inductive Target
  | source
  | view (key : Nat)
  deriving DecidableEq, Repr

/-- A hub in use, with what is held by name. -/
structure Session (σ τ κ : Type) where
  hub : Hub σ τ κ
  followers : List (String × Target × Follower (σ ⊕ τ))
  adapters : List (String × Target × Adapter)

/-- One step of a run. -/
inductive Step (σ τ κ : Type)
  | subscribe (name : String) (callback : κ)
  | unsubscribe (name : String)
  | detach (name : String)
  | publish (change : σ → σ)
  | addView (name : String) (project : σ → τ)
  | viewValue (name : String)
  | subscribeView (name as : String)
  | watchView (name as : String)
  | dropView (name : String)
  | watch (name : String)
  | current (name : String)
  | latest (name : String)
  | changed (name : String)
  | adapt (name : String)
  | next (name : String)
  | drop

/-- What a step answers. -/
inductive Outcome (σ τ : Type)
  | nothing
  | ignored
  | held (b : Bool)
  | subscribed
  | state (value : σ)
  | view (value : τ)
  | made (value : τ)
  | pending
  | closed
  deriving Repr

namespace Session

/-- A session with a value on which nothing hangs. -/
def ofValue (a : σ) : Session σ τ κ := ⟨.ofValue a, [], []⟩

/-- The channel that a target is. -/
def channel? (s : Session σ τ κ) : Target → Option (Channel (σ ⊕ τ))
  | .source => some ⟨.inl s.hub.source.value, s.hub.source.version, s.hub.alive⟩
  | .view key => (s.hub.view? key).map fun v => ⟨.inr v.output.value, v.output.version, v.alive⟩

/-- A value of either kind as an answer. -/
def valueOutcome : σ ⊕ τ → Outcome σ τ
  | .inl a => .state a
  | .inr b => .view b

/-- What a follower met as an answer. -/
def pollOutcome : Poll (σ ⊕ τ) → Outcome σ τ
  | .ready v => valueOutcome v
  | .pending => .pending
  | .closed => .closed

/-- Starts a follower of a target and holds it under a name. -/
def follow (s : Session σ τ κ) (name : String) (target : Target) : Session σ τ κ :=
  match s.channel? target with
  | some c => { s with followers := put name (target, .start c) s.followers }
  | none => s

/-- The view held under a name. -/
def view? (s : Session σ τ κ) (name : String) : Option (View σ τ) :=
  (lookup? name s.hub.named).bind s.hub.view?

/-- Takes a step that needs the source. -/
def withSource (s : Session σ τ κ) (f : Session σ τ κ → Session σ τ κ × Outcome σ τ) :
    Session σ τ κ × Outcome σ τ :=
  if s.hub.alive then f s else (s, .ignored)

/-- Takes a step, and says what it answers. -/
def step (behave : κ → σ → Reaction σ τ κ) (depth : Nat) (s : Session σ τ κ) :
    Step σ τ κ → Session σ τ κ × Outcome σ τ
  | .subscribe name callback => s.withSource fun s =>
    ({ s with hub := s.hub.subscribe behave depth name callback }, .subscribed)
  | .unsubscribe name =>
    ({ s with hub := s.hub.unsubscribe name }, .held (lookup? name s.hub.handles).isSome)
  | .detach name =>
    ({ s with hub := s.hub.detach name }, .held (lookup? name s.hub.handles).isSome)
  | .publish change => s.withSource fun s =>
    ({ s with hub := s.hub.publish behave depth change }, .nothing)
  | .addView name project => s.withSource fun s =>
    let s := { s with hub := s.hub.addView behave depth name project }
    match s.view? name with
    | some v => (s, .made v.output.value)
    | none => (s, .nothing)
  | .viewValue name =>
    match s.view? name with
    | some v => (s, .view v.output.value)
    | none => (s, .nothing)
  | .subscribeView name as =>
    ({ s with hub := s.hub.followView name as }, .held (lookup? name s.hub.named).isSome)
  | .watchView name as =>
    match lookup? name s.hub.named with
    | some key => (s.follow as (.view key), .held true)
    | none => (s, .held false)
  | .dropView name =>
    ({ s with hub := s.hub.dismissView name }, .held (lookup? name s.hub.named).isSome)
  | .watch name => s.withSource fun s => (s.follow name .source, .nothing)
  | .current name =>
    match lookup? name s.followers with
    | some (_, f) => (s, valueOutcome f.current)
    | none => (s, .nothing)
  | .latest name =>
    match (lookup? name s.followers).bind fun (target, _) => s.channel? target with
    | some c => (s, valueOutcome c.value)
    | none => (s, .nothing)
  | .changed name =>
    match lookup? name s.followers with
    | some (target, f) =>
      match s.channel? target with
      | some c =>
        let (poll, f) := f.changed c
        ({ s with followers := put name (target, f) s.followers }, pollOutcome poll)
      | none => (s, .nothing)
    | none => (s, .nothing)
  | .adapt name =>
    match lookup? name s.followers with
    | some (target, _) =>
      ({ s with followers := without name s.followers
                adapters := put name (target, ⟨none⟩) s.adapters }, .held true)
    | none => (s, .held false)
  | .next name =>
    match lookup? name s.adapters with
    | some (target, a) =>
      match s.channel? target with
      | some c =>
        let (poll, a) := a.next c
        ({ s with adapters := put name (target, a) s.adapters }, pollOutcome poll)
      | none => (s, .nothing)
    | none => (s, .nothing)
  | .drop => ({ s with hub := s.hub.drop }, .nothing)

/-- What callbacks left in events from a place on. -/
def entriesFrom (start : Nat) (s : Session σ τ κ) : List (Entry σ τ) :=
  (s.hub.events.drop start).filterMap fun
    | .left entry => some entry
    | .delivered _ _ _ name value => some (.view name value)
    | _ => none

/-- Takes steps one after the other. -/
def run (behave : κ → σ → Reaction σ τ κ) (depth : Nat) (s : Session σ τ κ) :
    List (Step σ τ κ) → Session σ τ κ
  | [] => s
  | step :: rest => run behave depth (s.step behave depth step).1 rest

end Session

/-- What is done when a condition holds. -/
inductive RuleAction (σ : Type)
  | set (value : σ)
  | unsubscribe (name : String)
  | subscribe (name : String)
  | read
  | count
  deriving Repr

/-- A callback that leaves what it is given under its name, and then follows its rule,
    if it has one, when it is given one certain value. -/
structure Listener (σ : Type) where
  name : String
  rule : Option (σ × RuleAction σ)
  deriving Repr

namespace Listener

/-- What a rule does. -/
def act : RuleAction σ → Reaction σ τ (Listener σ)
  | .set value => .publish (fun _ => value) .done
  | .unsubscribe name => .unsubscribe name .done
  | .subscribe name => .subscribe name ⟨name, none⟩ .done
  | .read => .read fun value => .report (.state "read" value) .done
  | .count => .count fun n => .report (.count n) .done

/-- What a listener does with a value. -/
def behave [DecidableEq σ] (l : Listener σ) (value : σ) : Reaction σ τ (Listener σ) :=
  .report (.state l.name value)
    (match l.rule with
      | some (trigger, action) => if value = trigger then act action else .done
      | none => .done)

end Listener

/-- How a held subscription is shown. -/
def subscriptionText : String := "Subscription \x7b active: true \x7d"

/-- How a view is shown, given how its value is. -/
def viewText (value : String) : String := "DerivedView \x7b value: " ++ value ++ ", .. \x7d"

end ZoneConsole
