/-!
# Followers

A `Follower` takes the newest value of a channel at its own pace: what was
published in between is skipped. A channel that has closed still hands out a
value that was not seen yet, and only then is at its end.

An `Adapter` is a follower that hands out the newest value first, whether it was
seen or not.
-/

namespace ZoneConsole

/-- A value that changes, the count of its publications, and whether more may come. -/
structure Channel (α : Type) where
  value : α
  version : Nat
  isOpen : Bool

/-- What a follower meets when it asks once. -/
inductive Poll (α : Type)
  | ready (value : α)
  | pending
  | closed
  deriving DecidableEq, Repr

/-- The version seen last and the value handed out last. -/
structure Follower (α : Type) where
  seen : Nat
  current : α

namespace Follower

/-- A follower that starts with the newest value, which counts as seen. -/
def start (c : Channel α) : Follower α := ⟨c.version, c.value⟩

/-- Asks once for a value that was not seen yet. -/
def changed (c : Channel α) (f : Follower α) : Poll α × Follower α :=
  if f.seen ≠ c.version then (.ready c.value, ⟨c.version, c.value⟩)
  else if c.isOpen then (.pending, f)
  else (.closed, f)

end Follower

/-- The version seen last, or nothing before the first value was handed out. -/
structure Adapter where
  seen : Option Nat

namespace Adapter

/-- Asks once for the next value. -/
def next (c : Channel α) (a : Adapter) : Poll α × Adapter :=
  if a.seen ≠ some c.version then (.ready c.value, ⟨some c.version⟩)
  else if c.isOpen then (.pending, a)
  else (.closed, a)

end Adapter

end ZoneConsole
