/-!
# Observable values

An `Observable` is a value that is replaced as a whole and never changed in
place, with a registry of the callbacks that follow it. Each publication counts
up the version, so two equal versions are one snapshot. Registry entries have
numbers of their own, which are never used twice.
-/

namespace ZoneConsole

/-- A value, the count of its publications, and the callbacks registered for it. `nextId`
    is kept in 64 bits by the program: fewer than 2^64 registrations are meant. -/
structure Observable (α κ : Type) where
  value : α
  version : Nat
  nextId : Nat
  registry : List (Nat × κ)

namespace Observable

/-- A value that nothing follows yet. -/
def ofValue (a : α) : Observable α κ := ⟨a, 0, 0, []⟩

/-- Registers a callback at the end of the registry, under a number of its own. -/
def register (o : Observable α κ) (callback : κ) : Observable α κ :=
  { o with nextId := o.nextId + 1, registry := o.registry ++ [(o.nextId, callback)] }

/-- Takes the entry of a number out of the registry. -/
def cancel (o : Observable α κ) (id : Nat) : Observable α κ :=
  { o with registry := o.registry.filter fun entry => entry.1 ≠ id }

/-- Publishes a value. -/
def publish (o : Observable α κ) (a : α) : Observable α κ :=
  { o with value := a, version := o.version + 1 }

/-- How many callbacks are registered. -/
def count (o : Observable α κ) : Nat := o.registry.length

end Observable

end ZoneConsole
