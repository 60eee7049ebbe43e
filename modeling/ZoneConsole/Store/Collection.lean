import ZoneConsole.Api.Resource

/-!
# Collections

The state of one collection as the client knows it: the entities in the order of
the server, whether a load is under way, and what went wrong with the last one.
Each way in which an answer of the server changes a collection is a function
that makes a new one.

An entity is shared: its tag says which answer brought it, so an entity that a
change did not touch is the very same before and after.
-/

namespace ZoneConsole

/-- An entity with the tag of its arrival. -/
structure Shared (E : Type) where
  tag : Nat
  value : E
  deriving DecidableEq, Repr

/-- The state of a collection. -/
structure Collection (E : Type) where
  items : List (Shared E)
  loading : Bool
  error : Option String
  deriving DecidableEq, Repr

namespace Collection

/-- The collection before anything was loaded. -/
def empty : Collection E := ⟨[], false, none⟩

/-- A load has started; the error of an earlier one is forgotten. -/
def loadStarted (c : Collection E) : Collection E := ⟨c.items, true, none⟩

/-- A load has brought the entities; an error stays until the next load starts. -/
def loaded (c : Collection E) (items : List (Shared E)) : Collection E :=
  ⟨items, false, c.error⟩

/-- A load has failed; the entities stay. -/
def loadFailed (c : Collection E) (message : String) : Collection E :=
  ⟨c.items, false, some message⟩

/-- An entity was created; it comes last. -/
def appended (c : Collection E) (entity : Shared E) : Collection E :=
  { c with items := c.items ++ [entity] }

/-- The error is forgotten. -/
def errorCleared (c : Collection E) : Collection E := { c with error := none }

variable [Resource E]

/-- Has the entity the identity? -/
def hasId (id : String) (entity : Shared E) : Bool := Resource.id entity.value = id

/-- The entity of an identity, the first one. -/
def get? (c : Collection E) (id : String) : Option (Shared E) := c.items.find? (hasId id)

/-- Is there an entity of the identity? -/
def contains (c : Collection E) (id : String) : Bool := (c.get? id).isSome

/-- An entity takes the place of the one with the identity; if there is none, nothing
    changes. -/
def replaced (c : Collection E) (id : String) (entity : Shared E) : Collection E :=
  { c with items := c.items.map fun item => if hasId id item then entity else item }

/-- The entity of an identity was deleted. -/
def without (c : Collection E) (id : String) : Collection E :=
  { c with items := c.items.filter fun item => !hasId id item }

/-- The identities in order. -/
def ids (c : Collection E) : List String := c.items.map fun item => Resource.id item.value

end Collection

/-- For each entity where it stood before, if it is the very same. -/
def Collection.kept (before after : Collection E) : List (Option Nat) :=
  after.items.map fun item => before.items.findIdx? fun old => old.tag = item.tag

/-- How many entities there are, or `-1` while a load is under way. -/
def Collection.countOrLoading (c : Collection E) : Int :=
  if c.loading then -1 else c.items.length

/-- The zones that are connected. -/
def connectedZones (c : Collection Zone) : List (Shared Zone) :=
  c.items.filter fun item => item.value.isConnected

/-- The qubes that are running. -/
def runningQubes (c : Collection Qube) : List (Shared Qube) :=
  c.items.filter fun item => item.value.isRunning

/-- The qubes of a zone. -/
def qubesInZone (zone : String) (c : Collection Qube) : List (Shared Qube) :=
  c.items.filter fun item => item.value.zoneId = zone

end ZoneConsole
