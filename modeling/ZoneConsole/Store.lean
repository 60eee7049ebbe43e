import ZoneConsole.Api.Client
import ZoneConsole.Observable.Session
import ZoneConsole.Store.Collection
import ZoneConsole.Store.Ordering

/-!
# Stores

A `Store` keeps one collection of the server and publishes every change of it.
Operations are not kept apart: each changes the collection when its answer
arrives, whatever else is under way. A load keeps its failure in the collection;
every other operation gives its error back and leaves the collection as it was.

* **`Store.apply`** is the effect of one event: a load starts or ends, another
  operation ends, the error is cleared, the store is reset.
* **`Operation.exchange`** is the request of an operation, **`Store.start`** and
  **`Store.conclude`** are its two ends, and **`Store.perform`** is all of it.
-/

namespace ZoneConsole

/-- A session with a collection, in which views show lists of entities and every
    subscriber leaves what it is given under its name. -/
abbrev CollectionSession (E : Type) := Session (Collection E) (List (Shared E)) String

/-- What a subscriber does with a collection. -/
def reportCollection (name : String) (c : Collection E) :
    Reaction (Collection E) (List (Shared E)) String :=
  .report (.state name c) .done

/-- A store: its collection with what hangs on it, which of overlapping loads counts,
    how many loads and resets there were, and the next tag for an entity. `issued` is
    kept in 64 bits by the program: fewer than 2^64 loads and resets are meant. -/
structure Store (E : Type) where
  session : CollectionSession E
  ordering : LoadOrdering
  issued : Nat
  nextTag : Nat

/-- Something that changes a store. The token of a load is the count of loads and
    resets when it started. -/
inductive StoreEvent (E : Type)
  | loadStarted
  | loadEnded (token : Nat) (result : Except ApiError (List E))
  | created (result : Except ApiError E)
  | replaced (id : String) (result : Except ApiError E)
  | removed (id : String) (result : Except ApiError Unit)
  | errorCleared
  | reset

/-- What an operation answers. -/
inductive Answer (E : Type)
  | loaded
  | entity (entity : Shared E)
  | removed
  | failed (error : ApiError)

namespace Store

/-- A store before anything was loaded. -/
def make (ordering : LoadOrdering) : Store E := ⟨.ofValue .empty, ordering, 0, 0⟩

/-- The collection as it is now. -/
def state (s : Store E) : Collection E := s.session.hub.source.value

/-- Callbacks of stores do not call each other, so calls nest no deeper than this. -/
def callDepth : Nat := 2

/-- Takes a step with the session of the store. -/
def step (s : Store E) (step : Step (Collection E) (List (Shared E)) String) :
    Store E × Outcome (Collection E) (List (Shared E)) :=
  let (session, outcome) := s.session.step reportCollection callDepth step
  ({ s with session }, outcome)

/-- Publishes a changed collection. -/
def update (s : Store E) (change : Collection E → Collection E) : Store E :=
  (s.step (.publish change)).1

/-- Gives tags to entities that have arrived. -/
def share (tag : Nat) (entities : List E) : List (Shared E) :=
  entities.zipIdx tag |>.map fun (e, tag) => ⟨tag, e⟩

/-- A load starts. -/
def startLoad (s : Store E) : Store E :=
  { s with issued := s.issued + 1 }.update .loadStarted

/-- Does the answer to the load of a token count? -/
def counts (s : Store E) (token : Nat) : Bool :=
  s.ordering = .lastCompletion || s.issued = token

/-- The answer to a load arrives. -/
def endLoad (s : Store E) (token : Nat) : Except ApiError (List E) → Store E
  | .ok entities =>
    if s.counts token then
      { s with nextTag := s.nextTag + entities.length }.update
        fun c => c.loaded (share s.nextTag entities)
    else s
  | .error e => if s.counts token then s.update fun c => c.loadFailed e.plain else s

/-- The store is emptied; loads under way are outdated. -/
def reset (s : Store E) : Store E :=
  { s with issued := s.issued + 1 }.update fun _ => .empty

/-- The error is cleared. -/
def clearError (s : Store E) : Store E := s.update .errorCleared

variable [Resource E]

/-- The effect of an event. -/
def apply (s : Store E) : StoreEvent E → Store E
  | .loadStarted => s.startLoad
  | .loadEnded token result => s.endLoad token result
  | .created (.ok e) =>
    { s with nextTag := s.nextTag + 1 }.update fun c => c.appended ⟨s.nextTag, e⟩
  | .replaced id (.ok e) =>
    { s with nextTag := s.nextTag + 1 }.update fun c => c.replaced id ⟨s.nextTag, e⟩
  | .removed id (.ok ()) => s.update fun c => c.without id
  | .created (.error _) | .replaced _ (.error _) | .removed _ (.error _) => s
  | .errorCleared => s.clearError
  | .reset => s.reset

/-- The effect of events one after the other. -/
def run (s : Store E) : List (StoreEvent E) → Store E
  | [] => s
  | event :: rest => run (s.apply event) rest

end Store

/-- An operation on a collection. -/
inductive Operation (E : Type) [Resource E]
  | load (options : ListOptions)
  | create (draft : Resource.Draft E)
  | update (id : String) (patch : Resource.Patch E)
  | remove (id : String)
  | transition (id action : String)

variable {E : Type} [Resource E]

namespace Operation

/-- The request of an operation. -/
def request (client : Client) : Operation E → Except ApiError Request
  | load options => (client.list E options).request
  | create draft => (client.create E draft).request
  | update id patch => (client.update E id patch).request
  | remove id => (client.delete E id).request
  | transition id action => (client.transition E id action).request

/-- The event that an answer to an operation is. -/
def event (token : Nat) : Operation E → Except ApiError Response → StoreEvent E
  | load _, r => .loadEnded token (r >>= fun r =>
      (r.read (Resource.pageCodec (E := E))).map Resource.items)
  | create _, r => .created (r >>= fun r => r.read Resource.codec)
  | update id _, r => .replaced id (r >>= fun r => r.read Resource.codec)
  | transition id _, r => .replaced id (r >>= fun r => r.read Resource.codec)
  | remove id, r => .removed id (r >>= Response.readEmpty)

end Operation

/-- What an operation answers when an event ends it; `tag` is the next tag of the
    store before it. -/
def StoreEvent.answer (tag : Nat) : StoreEvent E → Answer E
  | .created (.ok e) | .replaced _ (.ok e) => .entity ⟨tag, e⟩
  | .removed _ (.ok ()) => .removed
  | .created (.error e) | .replaced _ (.error e) | .removed _ (.error e) => .failed e
  | _ => .loaded

namespace Store

/-- An operation starts; the number is its token. -/
def start (s : Store E) : Operation E → Store E × Nat
  | .load _ => let s := s.startLoad; (s, s.issued)
  | _ => (s, s.issued)

/-- The answer to an operation arrives. -/
def conclude (s : Store E) (op : Operation E) (token : Nat) (result : Except ApiError Response) :
    Store E × Answer E :=
  let event := op.event token result
  (s.apply event, event.answer s.nextTag)

/-- Starts an operation, sends its request and takes the answer. -/
def perform (client : Client) (s : Store E) (op : Operation E) (link : Link) :
    Store E × Answer E × Link :=
  let (s, token) := s.start op
  let (result, link) := match op.request client with
    | .error e => (.error e, link)
    | .ok request => request.send link
  let (s, answer) := s.conclude op token result
  (s, answer, link)

/-- The description of a store. -/
def describe (s : Store E) : String :=
  let error := match s.state.error with
    | none => "None"
    | some e => "Some(" ++ Text.quoted e ++ ")"
  "ResourceStore \x7b kind: " ++ Text.quoted (Resource.collection E) ++ ", len: " ++
    String.ofList (Text.decimal s.state.items.length) ++ ", loading: " ++
    (if s.state.loading then "true" else "false") ++ ", error: " ++ error ++ ", ordering: " ++
    s.ordering.label ++ ", .. \x7d"

end Store

end ZoneConsole
