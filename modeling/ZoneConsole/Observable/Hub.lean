import ZoneConsole.Members
import ZoneConsole.Observable

/-!
# Notification

A `Hub` is an observable value with what hangs on it: views that project it and
the handles of subscriptions, both by name, and the record of what happened.

A callback is a program, its `Reaction`, which may read the value, remember what
happened, publish a new value, subscribe and unsubscribe, make, follow and drop
views, all while it is itself being notified. A publication calls every callback
that is registered when it begins, in the order of their registration, each with
the published value; a subscription calls its callback at once with the current
value. Nested publications run to their end before the outer one goes on. Callbacks
may nest without end, so the depth is bounded by a number that the caller gives, and
a hub says if it was too small.

The followers of a view are not programs: they leave what they are given. A follower
that publishes would wait for itself, since a view publishes under a lock.

* **`Hub.call`** runs one callback, **`Hub.publish`** publishes a value.
* **`Hub.refresh`** publishes the projection of the newest value to the
  followers of a view.
-/

namespace ZoneConsole

/-- What a callback leaves behind: the state or the projection it was given, with its
    name, or a count of callbacks. -/
inductive Entry (σ τ : Type)
  | state (name : String) (value : σ)
  | view (name : String) (value : τ)
  | count (n : Nat)
  deriving Repr

/-- What happened: a publication of the source, a call of an entry of its registry, a
    publication of a view with the version it projects, a call of a follower of a view with
    the version that its value projects, and what callbacks left. -/
inductive Event (σ τ : Type)
  | published (version : Nat) (value : σ)
  | called (id version : Nat)
  | projected (key version : Nat) (value : τ)
  | delivered (key id version : Nat) (name : String) (value : τ)
  | left (entry : Entry σ τ)
  deriving Repr

/-- What a callback does, step by step. It may remember what happened so far, from which
    whatever it keeps between its calls is known. -/
inductive Reaction (σ τ κ : Type)
  | done
  | report (entry : Entry σ τ) (next : Reaction σ τ κ)
  | read (next : σ → Reaction σ τ κ)
  | count (next : Nat → Reaction σ τ κ)
  | remember (next : List (Event σ τ) → Reaction σ τ κ)
  | publish (change : σ → σ) (next : Reaction σ τ κ)
  | subscribe (name : String) (callback : κ) (next : Reaction σ τ κ)
  | unsubscribe (name : String) (next : Reaction σ τ κ)
  | detach (name : String) (next : Reaction σ τ κ)
  | addView (name : String) (project : σ → τ) (next : Reaction σ τ κ)
  | subscribeView (name as : String) (next : Reaction σ τ κ)
  | dropView (name : String) (next : Reaction σ τ κ)

/-- An entry of the registry: a callback of the outside, or a view. -/
inductive Callback (κ : Type)
  | listener (callback : κ)
  | view (key : Nat)
  deriving Repr

/-- A projection of the source that is observable itself. Its key is the number of its
    entry in the registry of the source, and `projected` the version it projected
    last. -/
structure View (σ τ : Type) where
  key : Nat
  project : σ → τ
  output : Observable τ String
  projected : Nat
  alive : Bool

/-- What a held subscription belongs to. -/
inductive Handle
  | source (id : Nat)
  | view (key id : Nat)
  deriving DecidableEq, Repr

/-- An observable value with what hangs on it. Of all views that were made, those that
    are still held have a name. -/
structure Hub (σ τ κ : Type) where
  source : Observable σ (Callback κ)
  views : List (View σ τ)
  named : List (String × Nat)
  handles : List (String × Handle)
  events : List (Event σ τ)
  alive : Bool
  tooDeep : Bool

namespace Hub

/-- A hub of a value on which nothing hangs. -/
def ofValue (a : σ) : Hub σ τ κ := ⟨.ofValue a, [], [], [], [], true, false⟩

/-- Records what happened. -/
def record (h : Hub σ τ κ) (event : Event σ τ) : Hub σ τ κ :=
  { h with events := h.events ++ [event] }

/-- The view of a key. -/
def view? (h : Hub σ τ κ) (key : Nat) : Option (View σ τ) := h.views.find? (·.key = key)

/-- Changes the view of a key. -/
def modifyView (h : Hub σ τ κ) (key : Nat) (f : View σ τ → View σ τ) : Hub σ τ κ :=
  { h with views := h.views.map fun v => if v.key = key then f v else v }

/-- Cancels a subscription. -/
def release (h : Hub σ τ κ) : Handle → Hub σ τ κ
  | .source id => { h with source := h.source.cancel id }
  | .view key id => h.modifyView key fun v => { v with output := v.output.cancel id }

/-- Holds a subscription under a name; one held before is cancelled after that. -/
def hold (h : Hub σ τ κ) (name : String) (handle : Handle) : Hub σ τ κ :=
  let old := lookup? name h.handles
  let h := { h with handles := (name, handle) :: without name h.handles }
  match old with
  | some handle => h.release handle
  | none => h

/-- Cancels the subscription held under a name. -/
def unsubscribe (h : Hub σ τ κ) (name : String) : Hub σ τ κ :=
  match lookup? name h.handles with
  | some handle => { h with handles := without name h.handles }.release handle
  | none => h

/-- Lets go of the subscription held under a name without cancelling it. -/
def detach (h : Hub σ τ κ) (name : String) : Hub σ τ κ :=
  { h with handles := without name h.handles }

/-- A view that is made now, with the newest value. Its entry in the registry of the
    source comes next. -/
def newView (h : Hub σ τ κ) (project : σ → τ) : View σ τ :=
  ⟨h.source.nextId, project, .ofValue (project h.source.value), h.source.version, true⟩

/-- Drops a view: nothing is published to its followers any more. -/
def dropView (key : Nat) (h : Hub σ τ κ) : Hub σ τ κ :=
  { h.modifyView key fun v => { v with alive := false } with source := h.source.cancel key }

/-- Holds a view under a name; one held before is dropped after that. -/
def keepView (h : Hub σ τ κ) (name : String) (key : Nat) : Hub σ τ κ :=
  let old := lookup? name h.named
  let h := { h with named := put name key h.named }
  match old with
  | some old => h.dropView old
  | none => h

/-- Drops the view held under a name. -/
def dismissView (h : Hub σ τ κ) (name : String) : Hub σ τ κ :=
  match lookup? name h.named with
  | some key => { h with named := without name h.named }.dropView key
  | none => h

/-- Subscribes a name to a view and holds the subscription under it. -/
def subscribeView (key : Nat) (name : String) (h : Hub σ τ κ) : Hub σ τ κ :=
  match h.view? key with
  | some v =>
    let id := v.output.nextId
    let h := h.modifyView key fun v => { v with output := v.output.register name }
    (h.record (.delivered key id v.projected name v.output.value)).hold name (.view key id)
  | none => h

/-- Subscribes a name to the view held under another one. -/
def followView (h : Hub σ τ κ) (name as : String) : Hub σ τ κ :=
  match lookup? name h.named with
  | some key => h.subscribeView key as
  | none => h

/-- Publishes the projection of the newest value to the followers of a view. -/
def refresh (h : Hub σ τ κ) (key : Nat) : Hub σ τ κ :=
  match h.view? key with
  | none => h
  | some v =>
    if v.alive then
      let value := v.project h.source.value
      let version := h.source.version
      let delivered := v.output.registry.map fun (id, name) =>
        Event.delivered key id version name value
      let h := h.modifyView key fun v =>
        { v with output := v.output.publish value, projected := version }
      { h with events := h.events ++ Event.projected key version value :: delivered }
    else h

/-- Calls registered callbacks one after the other with a value. -/
def callAll (call : Nat → Callback κ → σ → Nat → Hub σ τ κ → Hub σ τ κ) (value : σ)
    (version : Nat) : List (Nat × Callback κ) → Hub σ τ κ → Hub σ τ κ
  | [], h => h
  | (id, callback) :: rest, h => callAll call value version rest (call id callback value version h)

/-- Publishes a value and calls the callbacks that are registered now. -/
def notify (call : Nat → Callback κ → σ → Nat → Hub σ τ κ → Hub σ τ κ) (change : σ → σ)
    (h : Hub σ τ κ) : Hub σ τ κ :=
  let source := h.source.publish (change h.source.value)
  let h := { h with source }.record (.published source.version source.value)
  callAll call source.value source.version source.registry h

/-- Registers a callback and calls it with the current value. -/
def enroll (call : Nat → Callback κ → σ → Nat → Hub σ τ κ → Hub σ τ κ)
    (callback : Callback κ) (h : Hub σ τ κ) : Hub σ τ κ :=
  let id := h.source.nextId
  let h := { h with source := h.source.register callback }
  call id callback h.source.value h.source.version h

/-- Makes a view, whose entry in the registry of the source refreshes it, and holds it
    under a name. -/
def makeView (call : Nat → Callback κ → σ → Nat → Hub σ τ κ → Hub σ τ κ) (name : String)
    (project : σ → τ) (h : Hub σ τ κ) : Hub σ τ κ :=
  let key := h.source.nextId
  (enroll call (.view key) { h with views := h.views ++ [h.newView project] }).keepView name key

/-- Runs a reaction; calls that it causes are run by `call`. -/
def react (call : Nat → Callback κ → σ → Nat → Hub σ τ κ → Hub σ τ κ) :
    Reaction σ τ κ → Hub σ τ κ → Hub σ τ κ
  | .done, h => h
  | .report entry next, h => react call next (h.record (.left entry))
  | .read next, h => react call (next h.source.value) h
  | .count next, h => react call (next h.source.count) h
  | .remember next, h => react call (next h.events) h
  | .publish change next, h => react call next (notify call change h)
  | .subscribe name callback next, h =>
    let id := h.source.nextId
    react call next ((enroll call (.listener callback) h).hold name (.source id))
  | .unsubscribe name next, h => react call next (h.unsubscribe name)
  | .detach name next, h => react call next (h.detach name)
  | .addView name project next, h => react call next (makeView call name project h)
  | .subscribeView name as next, h => react call next (h.followView name as)
  | .dropView name next, h => react call next (h.dismissView name)

/-- Calls an entry of the registry with a value of a version. What a callback does is
    given by `behave`; calls nest at most `depth` deep. -/
def call (behave : κ → σ → Reaction σ τ κ) : Nat → Nat → Callback κ → σ → Nat → Hub σ τ κ →
    Hub σ τ κ
  | 0, _, _, _, _, h => { h with tooDeep := true }
  | depth + 1, id, callback, value, version, h =>
    let h := h.record (.called id version)
    match callback with
    | .listener k => react (call behave depth) (behave k value) h
    | .view key => h.refresh key

/-- Publishes a changed value. -/
def publish (behave : κ → σ → Reaction σ τ κ) (depth : Nat) (change : σ → σ)
    (h : Hub σ τ κ) : Hub σ τ κ :=
  notify (call behave depth) change h

/-- Subscribes a callback and holds the subscription under a name. -/
def subscribe (behave : κ → σ → Reaction σ τ κ) (depth : Nat) (name : String) (callback : κ)
    (h : Hub σ τ κ) : Hub σ τ κ :=
  let id := h.source.nextId
  (enroll (call behave depth) (.listener callback) h).hold name (.source id)

/-- Makes a view and holds it under a name. -/
def addView (behave : κ → σ → Reaction σ τ κ) (depth : Nat) (name : String) (project : σ → τ)
    (h : Hub σ τ κ) : Hub σ τ κ :=
  makeView (call behave depth) name project h

/-- Drops the source. Views and followers keep what they have. -/
def drop (h : Hub σ τ κ) : Hub σ τ κ := { h with alive := false }

end Hub

end ZoneConsole
