/-!
# Results that may be errors

What a composed computation that succeeds has done, and a result read off its value.
-/

namespace ZoneConsole

variable {ε α β : Type}

/-- A composed computation that succeeds has succeeded in both of its parts. -/
theorem exists_of_bind_ok {x : Except ε α} {f : α → Except ε β} {b : β}
    (h : (x >>= f) = .ok b) : ∃ a, x = .ok a ∧ f a = .ok b := by
  cases x with
  | error e => cases h
  | ok a => exact ⟨a, rfl, h⟩

/-- A mapped computation that succeeds has succeeded before. -/
theorem exists_of_map_ok {x : Except ε α} {f : α → β} {b : β} (h : x.map f = .ok b) :
    ∃ a, x = .ok a ∧ f a = b := by
  cases x with
  | error e => cases h
  | ok a => exact ⟨a, rfl, Except.ok.inj h⟩

/-- A result that has a value is that value. -/
theorem eq_ok_of_toOption {x : Except ε α} {a : α} (h : x.toOption = some a) : x = .ok a := by
  cases x with
  | error e => cases h
  | ok b =>
      cases h
      rfl

/-- The error of a result that has no value. -/
def errorOf? : Except ε α → Option ε
  | .ok _ => none
  | .error e => some e

/-- A result that has an error is that error. -/
theorem eq_error_of_errorOf? {x : Except ε α} {e : ε} (h : errorOf? x = some e) :
    x = .error e := by
  cases x with
  | ok a => cases h
  | error e' =>
      cases h
      rfl

end ZoneConsole
