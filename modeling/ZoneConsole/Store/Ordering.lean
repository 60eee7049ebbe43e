import ZoneConsole.Codec
import ZoneConsole.Named

/-!
# Overlapping loads

Loads of one collection may overlap. Either whichever answer arrives last is
applied, or only the answer to the load that was issued last.
-/

namespace ZoneConsole

/-- Which of several overlapping loads counts. -/
inductive LoadOrdering
  | lastCompletion | latestRequest
  deriving DecidableEq, Repr

namespace LoadOrdering

/-- The name in settings. -/
def name : LoadOrdering → String
  | lastCompletion => "last-completion"
  | latestRequest => "latest-request"

/-- The name in descriptions of a store. -/
def label : LoadOrdering → String
  | lastCompletion => "LastCompletion"
  | latestRequest => "LatestRequest"

instance : Named LoadOrdering := ⟨[lastCompletion, latestRequest], name⟩

/-- Orderings by name. -/
def codec : Codec LoadOrdering := .variant "LoadOrdering" Named.all name

end LoadOrdering

end ZoneConsole
