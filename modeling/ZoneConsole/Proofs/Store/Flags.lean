import ZoneConsole.Proofs.Store.Effective

/-!
# The flags of a collection

A collection says whether a load is under way and what went wrong with one.  Loads overlap, and
other operations end in between, so each flag is what the last move that touches it has made of
it.

* **`Desk.error_eq_iff`**, **`Desk.loading_iff`** — each flag by the last move that touches it.
* **`Desk.loading_iff_newest`** — under the latest request, loading is the newest load.
* **`flags_of_history`** — all of it, for every history and both orderings.
-/

namespace ZoneConsole

variable {E : Type}

namespace Move

/-- Does the move write the error of a collection?  The start of a load does, an effective
    failure, the clearing of the error and a reset. -/
def TouchesError (ordering : LoadOrdering) (seen : History E) : Move E → Prop
  | start _ | reset | change .errorCleared => True
  | finish load (.error _) => seen.Effective ordering load
  | finish _ (.ok _) | change _ => False

/-- Does the move write whether a collection is loading?  The start of a load does, an effective
    answer and a reset. -/
def TouchesLoading (ordering : LoadOrdering) (seen : History E) : Move E → Prop
  | start _ | reset => True
  | finish load _ => seen.Effective ordering load
  | change _ => False

/-- The message of a failure. -/
def failure? : Move E → Option String
  | finish _ (.error e) => some e.plain
  | _ => none

/-- Is it the start of a load? -/
def isStart : Move E → Bool
  | start _ => true
  | _ => false

theorem failure?_eq_some {m : Move E} {message : String} :
    m.failure? = some message ↔ ∃ load e, m = .finish load (.error e) ∧ e.plain = message := by
  constructor
  · intro hm
    cases m with
    | finish load result =>
        cases result with
        | ok entities => cases hm
        | error e => exact ⟨load, e, rfl, Option.some.inj hm⟩
    | start load | change c | reset => cases hm
  · rintro ⟨load, e, rfl, rfl⟩
    rfl

theorem isStart_iff {m : Move E} : m.isStart = true ↔ ∃ load, m = .start load := by
  cases m <;> simp [isStart]

end Move

namespace Desk

variable [Resource E] {ordering : LoadOrdering}

/-- What a move that touches the error makes of it. -/
theorem error_of_touches {h : History E} {m : Move E} (hm : m.TouchesError ordering h) :
    (play ordering (h ++ [m])).store.ledger.collection.error = m.failure? := by
  cases m with
  | start load => rw [ledger_start]; rfl
  | reset => rw [ledger_reset]; rfl
  | finish load result =>
      cases result with
      | ok entities => exact hm.elim
      | error e =>
          have heffective : h.Effective ordering load := hm
          rw [ledger_finish, if_pos heffective]
          rfl
  | change c =>
      cases c with
      | errorCleared => rw [ledger_change]; rfl
      | created result | replaced id result | removed id result => exact hm.elim

/-- A move that does not touch the error leaves it as it was. -/
theorem error_of_not_touches {h : History E} {m : Move E} (hm : ¬ m.TouchesError ordering h) :
    (play ordering (h ++ [m])).store.ledger.collection.error =
      (play ordering h).store.ledger.collection.error := by
  cases m with
  | start load => exact absurd trivial hm
  | reset => exact absurd trivial hm
  | finish load result =>
      rw [ledger_finish]
      cases result with
      | ok entities => split <;> rfl
      | error e =>
          have hdiscarded : ¬ h.Effective ordering load := hm
          rw [if_neg hdiscarded]
  | change c =>
      rw [ledger_change]
      cases c with
      | errorCleared => exact absurd trivial hm
      | created result => cases result <;> rfl
      | replaced id result => cases result <;> rfl
      | removed id result => cases result <;> rfl

/-- What a move that touches it makes of whether a collection is loading. -/
theorem loading_of_touches {h : History E} {m : Move E} (hm : m.TouchesLoading ordering h) :
    (play ordering (h ++ [m])).store.ledger.collection.loading = m.isStart := by
  cases m with
  | start load => rw [ledger_start]; rfl
  | reset => rw [ledger_reset]; rfl
  | finish load result =>
      have heffective : h.Effective ordering load := hm
      rw [ledger_finish, if_pos heffective]
      cases result <;> rfl
  | change c => exact hm.elim

/-- Any other move leaves it as it was. -/
theorem loading_of_not_touches {h : History E} {m : Move E}
    (hm : ¬ m.TouchesLoading ordering h) :
    (play ordering (h ++ [m])).store.ledger.collection.loading =
      (play ordering h).store.ledger.collection.loading := by
  cases m with
  | start load => exact absurd trivial hm
  | reset => exact absurd trivial hm
  | finish load result =>
      have hdiscarded : ¬ h.Effective ordering load := hm
      rw [ledger_finish, if_neg hdiscarded]
  | change c =>
      rw [ledger_change]
      cases c with
      | errorCleared => rfl
      | created result => cases result <;> rfl
      | replaced id result => cases result <;> rfl
      | removed id result => cases result <;> rfl

/-- The error is that of the last move that touches it, if that is a failure. -/
theorem error_eq_iff (ordering : LoadOrdering) (h : History E) (message : String) :
    (play ordering h).store.state.error = some message ↔
      ∃ seen load e, h.LastOf (Move.TouchesError ordering) seen (.finish load (.error e)) ∧
        e.plain = message := by
  have hlast := History.eq_iff_lastOf (Move.TouchesError ordering)
    (fun h => (play ordering h).store.ledger.collection.error) (fun _ => Move.failure?)
    (fun _ _ _ _ => error_of_touches) (fun _ _ _ _ => error_of_not_touches)
    (h := h) (a := some message) nofun
  refine hlast.trans ?_
  simp only [Move.failure?_eq_some]
  constructor
  · rintro ⟨seen, m, hm, load, e, rfl, he⟩
    exact ⟨seen, load, e, hm, he⟩
  · rintro ⟨seen, load, e, hm, he⟩
    exact ⟨seen, _, hm, load, e, rfl, he⟩

/-- A collection is loading if the last move that touches that is the start of a load. -/
theorem loading_iff (ordering : LoadOrdering) (h : History E) :
    (play ordering h).store.state.loading = true ↔
      ∃ seen load, h.LastOf (Move.TouchesLoading ordering) seen (.start load) := by
  have hlast := History.eq_iff_lastOf (Move.TouchesLoading ordering)
    (fun h => (play ordering h).store.ledger.collection.loading) (fun _ => Move.isStart)
    (fun _ _ _ _ => loading_of_touches) (fun _ _ _ _ => loading_of_not_touches)
    (h := h) (a := true) nofun
  refine hlast.trans ?_
  simp only [Move.isStart_iff]
  constructor
  · rintro ⟨seen, m, hm, load, rfl⟩
    exact ⟨seen, load, hm⟩
  · rintro ⟨seen, load, hm⟩
    exact ⟨seen, _, hm, load, rfl⟩

/-- Where only the latest request counts, a collection is loading while the newest load is under
    way. -/
theorem loading_iff_newest (h : History E) :
    (play .latestRequest h).store.state.loading = true ↔
      ∃ load, h.newest = some load ∧ h.UnderWay load := by
  induction h using List.reverseRecOn with
  | nil =>
      refine iff_of_false Bool.false_ne_true ?_
      rintro ⟨load, hload, -⟩
      cases hload
  | append_singleton h m ih =>
      have hstate : ∀ h : History E, (play .latestRequest h).store.state =
          (play .latestRequest h).store.ledger.collection := fun _ => rfl
      rw [hstate] at ih ⊢
      simp only [History.newest_concat, History.underWay_concat]
      cases m with
      | start load =>
          rw [ledger_start]
          exact iff_of_true rfl ⟨load, rfl, .inl rfl⟩
      | reset =>
          rw [ledger_reset]
          refine iff_of_false Bool.false_ne_true ?_
          rintro ⟨load, hload, -⟩
          cases hload
      | change c =>
          rw [loading_of_not_touches (m := .change c) id, ih]
          simp [Move.newestAfter, Move.ends]
      | finish load result =>
          by_cases heffective : History.Effective .latestRequest h load
          · -- the answer to the newest load ends it
            rw [loading_of_touches (m := .finish load result) heffective]
            refine iff_of_false Bool.false_ne_true ?_
            rintro ⟨l, hl, hstart | ⟨-, hends⟩⟩
            · cases hstart
            · have hnewest := (History.effective_iff.1 heffective).2 rfl
              obtain rfl : load = l := Option.some.inj (hnewest.symm.trans hl)
              simp [Move.ends] at hends
          · -- so the load that ends is not the newest one
            rw [loading_of_not_touches (m := .finish load result) heffective, ih]
            constructor
            · rintro ⟨l, hl, hunder⟩
              refine ⟨l, hl, .inr ⟨hunder, ?_⟩⟩
              have hne : load ≠ l := by
                rintro rfl
                exact heffective (History.effective_iff.2 ⟨hunder, fun _ => hl⟩)
              simp [Move.ends, hne]
            · rintro ⟨l, hl, hstart | ⟨hunder, -⟩⟩
              · cases hstart
              · exact ⟨l, hl, hunder⟩

end Desk

/-- **The flags are a function of the history.**  The error is the message of a failed load
    exactly if its failure is the last of the starts of loads, effective failures, clearings of
    the error and resets, and there is none otherwise.  The collection is loading exactly if a
    start of a load is the last of the starts, effective answers and resets; where only the
    latest request counts, that is while the newest load is under way and no reset has come
    after its start. -/
theorem flags_of_history [Resource E] (ordering : LoadOrdering) (h : History E) :
    (∀ message, (Desk.play ordering h).store.state.error = some message ↔
      ∃ seen load e, h.LastOf (Move.TouchesError ordering) seen (.finish load (.error e)) ∧
        e.plain = message) ∧
    ((Desk.play ordering h).store.state.loading = true ↔
      ∃ seen load, h.LastOf (Move.TouchesLoading ordering) seen (.start load)) ∧
    ((Desk.play .latestRequest h).store.state.loading = true ↔
      ∃ load, h.newest = some load ∧ h.UnderWay load) :=
  ⟨Desk.error_eq_iff ordering h, Desk.loading_iff ordering h, Desk.loading_iff_newest h⟩

end ZoneConsole
