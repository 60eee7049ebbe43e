import ZoneConsole.Proofs.Store.Effective

/-!
# Where the orderings of loads agree

The ordering of loads matters only while loads overlap.  If no load starts and no reset happens
while a load is under way, the token of that load is the count of the store until its answer
arrives, so the answer counts under either ordering.

* **`History.Undisputed`** — no load starts and no reset happens while a load is under way.
* **`Turn`** — a move of the history of a store, or a step with what hangs on the store;
  **`Desk.use`** takes turns from the beginning.
* **`Store.apply_under`** — an event does the same under another ordering, if it is not the
  answer to a load that is outdated.
* **`Desk.current_use`** — in an undisputed history no load under way is outdated.
* **`orderings_agree`** — so the two orderings publish, notify and answer the same.
-/

namespace ZoneConsole

variable {E : Type}

/-! ### Histories without overlapping loads -/

namespace History

/-- No load is under way. -/
def Idle (h : History E) : Prop := ∀ load, ¬ h.UnderWay load

/-- No load starts and no reset happens while a load is under way.  Other operations may end at
    any time. -/
def Undisputed (h : History E) : Prop :=
  ∀ (before : History E) m after, h = before ++ m :: after → m.supersedes = true → before.Idle

instance (h : History E) : Decidable h.Idle :=
  decidable_of_iff (∀ load ∈ h.loads, ¬ h.UnderWay load) <| by
    constructor
    · intro hidle load hunder
      obtain ⟨before, after, hsplit, -⟩ := id hunder
      have hstarts : Move.start load ∈ h := by simp [hsplit]
      exact hidle load (mem_loads.2 hstarts) hunder
    · exact fun hidle load _ => hidle load

instance (h : History E) : Decidable h.Undisputed :=
  decidable_of_iff (∀ n : Fin h.length, h[n].supersedes = true → Idle (h.take n)) <| by
    constructor
    · rintro hall before m after rfl
      have hplace := hall ⟨before.length, by simp⟩
      simpa using hplace
    · intro hundisputed n
      have hsplit : h = h.take n ++ h[n] :: h.drop (n + 1) := by simp
      exact hundisputed _ _ _ hsplit

theorem undisputed_concat {h : History E} {m : Move E} (hu : Undisputed (h ++ [m])) :
    h.Undisputed ∧ (m.supersedes = true → h.Idle) := by
  constructor
  · rintro before x after rfl
    exact hu before x (after ++ [m]) (by simp)
  · exact hu h m [] rfl

end History

/-! ### Turns -/

/-- What happens where a store is used: a move of its history, or a step with what hangs on it. -/
inductive Turn (E : Type)
  | move (m : Move E)
  | session (step : Step (Collection E) (List (Shared E)) String)

/-- The move that a turn is. -/
def Turn.move? : Turn E → Option (Move E)
  | move m => some m
  | session _ => none

/-- The history of a store in turns. -/
def historyOf (turns : List (Turn E)) : History E := turns.filterMap Turn.move?

/-- What a turn gives back: the answer of an operation that ends, or that of a step. -/
inductive Returned (E : Type)
  | operation (answer : Option (Answer E))
  | session (outcome : Outcome (Collection E) (List (Shared E)))

/-! ### Another ordering -/

namespace Store

/-- The store with another ordering of loads. -/
def under (s : Store E) (ordering : LoadOrdering) : Store E := { s with ordering }

variable [Resource E]

/-- Starts of loads and resets are counted, and nothing else is, be the store alive or not. -/
theorem issued_apply (s : Store E) (event : StoreEvent E) :
    (s.apply event).issued = s.issued + event.issues := by
  cases event with
  | loadEnded token result =>
      cases result with
      | ok entities =>
          rw [apply, endLoad]
          split <;> rfl
      | error e =>
          rw [apply, endLoad]
          split <;> rfl
  | created result => cases result <;> rfl
  | replaced id result => cases result <;> rfl
  | removed id result => cases result <;> rfl
  | loadStarted | errorCleared | reset => rfl

/-- **An event does the same under another ordering**, if it is not the answer to a load whose
    token is outdated. -/
theorem apply_under (s : Store E) (ordering : LoadOrdering) {event : StoreEvent E}
    (h : ∀ token result, event = .loadEnded token result → token = s.issued) :
    (s.under ordering).apply event = (s.apply event).under ordering := by
  cases event with
  | loadEnded token result =>
      obtain rfl := h token result rfl
      have hcounts : s.counts s.issued = true := by simp [counts]
      have hcounts' : (s.under ordering).counts s.issued = true := by simp [counts, under]
      cases result with
      | ok entities =>
          rw [apply, apply, endLoad, endLoad, if_pos hcounts, if_pos hcounts']
          rfl
      | error e =>
          rw [apply, apply, endLoad, endLoad, if_pos hcounts, if_pos hcounts']
          rfl
  | created result => cases result <;> rfl
  | replaced id result => cases result <;> rfl
  | removed id result => cases result <;> rfl
  | loadStarted | errorCleared | reset => rfl

end Store

namespace Desk

variable [Resource E]

/-- What an operation answers that ends with a move. -/
def answer? (d : Desk E) : Move E → Option (Answer E)
  | .finish load result => (lookup? load d.waiting).map fun token =>
      (StoreEvent.loadEnded token result).answer d.store.nextTag
  | .change c => some (c.event.answer d.store.nextTag)
  | .start _ | .reset => none

/-- Takes a turn, and says what it gives back. -/
def turn (d : Desk E) : Turn E → Desk E × Returned E
  | .move m => (d.move m, .operation (d.answer? m))
  | .session step => ({ d with store := (d.store.step step).1 }, .session (d.store.step step).2)

/-- Takes turns from the beginning, and says what they give back. -/
def use (ordering : LoadOrdering) (turns : List (Turn E)) : Desk E × List (Returned E) :=
  turns.foldl (fun (d, returned) turn => ((d.turn turn).1, returned ++ [(d.turn turn).2]))
    (make ordering, [])

theorem use_concat (ordering : LoadOrdering) (turns : List (Turn E)) (turn : Turn E) :
    use ordering (turns ++ [turn]) =
      (((use ordering turns).1.turn turn).1,
        (use ordering turns).2 ++ [((use ordering turns).1.turn turn).2]) := by
  rw [use, List.foldl_append]
  rfl

omit [Resource E] in
/-- The desk with another ordering of loads. -/
def under (d : Desk E) (ordering : LoadOrdering) : Desk E :=
  { d with store := d.store.under ordering }

/-- Every load that waits is under way in the history, and its token is the count of the store:
    nothing has outdated it. -/
def Current (d : Desk E) (h : History E) : Prop :=
  ∀ load token, lookup? load d.waiting = some token → h.UnderWay load ∧ token = d.store.issued

/-- One move: in an undisputed history the loads under way stay current. -/
theorem current_move {d : Desk E} {h : History E} (hd : d.Current h) {m : Move E}
    (hidle : m.supersedes = true → h.Idle) : (d.move m).Current (h ++ [m]) := by
  intro load token hlook
  rw [History.underWay_concat]
  cases m with
  | start l =>
      simp only [move, lookup?_put] at hlook ⊢
      by_cases hl : load = l
      · rw [if_pos hl] at hlook
        exact ⟨.inl (by rw [hl]), (Option.some.inj hlook).symm⟩
      · -- nothing else was under way when the load started
        rw [if_neg hl] at hlook
        exact absurd (hd load token hlook).1 (hidle rfl load)
  | finish l result =>
      rw [lookup?_finish] at hlook
      have hl : load ≠ l := by
        rintro rfl
        rw [if_pos rfl] at hlook
        cases hlook
      rw [if_neg hl] at hlook
      obtain ⟨hunder, htoken⟩ := hd load token hlook
      refine ⟨.inr ⟨hunder, by simp [Move.ends, Ne.symm hl]⟩, ?_⟩
      simp only [move]
      cases lookup? l d.waiting with
      | none => exact htoken
      | some _ =>
          exact htoken.trans (Store.issued_apply d.store (.loadEnded _ result)).symm
  | change c =>
      obtain ⟨hunder, htoken⟩ := hd load token hlook
      refine ⟨.inr ⟨hunder, rfl⟩, htoken.trans ?_⟩
      simp only [move, Store.issued_apply]
      cases c <;> rfl
  | reset => exact absurd (hd load token hlook).1 (hidle rfl load)

/-- **Loads under way are current** in an undisputed history. -/
theorem current_use (ordering : LoadOrdering) {turns : List (Turn E)}
    (h : (historyOf turns).Undisputed) : (use ordering turns).1.Current (historyOf turns) := by
  induction turns using List.reverseRecOn with
  | nil => exact fun load token hlook => nomatch hlook
  | append_singleton turns turn ih =>
      rw [use_concat]
      cases turn with
      | session step =>
          have hsame : historyOf (turns ++ [.session step]) = historyOf turns := by
            simp [historyOf, Turn.move?]
          rw [hsame] at h ⊢
          exact ih h
      | move m =>
          have hmore : historyOf (turns ++ [.move m]) = historyOf turns ++ [m] := by
            simp [historyOf, Turn.move?]
          rw [hmore] at h ⊢
          obtain ⟨hbefore, hidle⟩ := History.undisputed_concat h
          exact current_move (ih hbefore) hidle

/-- A move does the same under another ordering, if the loads that wait are current. -/
theorem move_under {d : Desk E} {h : History E} (hd : d.Current h) (ordering : LoadOrdering)
    (m : Move E) : (d.under ordering).move m = (d.move m).under ordering := by
  cases m with
  | finish load result =>
      have hwaiting : (d.under ordering).waiting = d.waiting := rfl
      simp only [move, hwaiting]
      cases hlook : lookup? load d.waiting with
      | none => rfl
      | some token =>
          have hsame : (d.store.under ordering).apply (.loadEnded token result) =
              (d.store.apply (.loadEnded token result)).under ordering := by
            refine Store.apply_under d.store ordering fun token' result' heq => ?_
            cases heq
            exact (hd load token hlook).2
          exact congrArg (Desk.mk · (without load d.waiting)) hsame
  | change c =>
      have hsame : (d.store.under ordering).apply c.event =
          (d.store.apply c.event).under ordering := by
        refine Store.apply_under d.store ordering fun token result heq => ?_
        cases c <;> cases heq
      exact congrArg (Desk.mk · d.waiting) hsame
  | start load | reset => rfl

/-- One turn, with what it gives back. -/
theorem turn_under {d : Desk E} {h : History E} (hd : d.Current h) (ordering : LoadOrdering)
    (turn : Turn E) : (d.under ordering).turn turn =
      ((d.turn turn).1.under ordering, (d.turn turn).2) := by
  cases turn with
  | move m =>
      have hanswer : (d.under ordering).answer? m = d.answer? m := by cases m <;> rfl
      simp only [Desk.turn, move_under hd, hanswer]
  | session step => rfl

end Desk

/-- **Without overlapping loads the ordering does not matter.**  Take any run in which no load
    starts and no reset happens while a load is under way; other operations end at any time, and
    callbacks, views and followers come and go.  Under the two orderings the runs give back the
    same, turn by turn, and leave the same session, in which every publication with its state,
    every call of a callback and everything that it was given are recorded in order.  The stores
    differ in their ordering only. -/
theorem orderings_agree [Resource E] {turns : List (Turn E)}
    (h : (historyOf turns).Undisputed) :
    (Desk.use .latestRequest turns).2 = (Desk.use .lastCompletion turns).2 ∧
      (Desk.use .latestRequest turns).1.store.session =
        (Desk.use .lastCompletion turns).1.store.session ∧
      (Desk.use .latestRequest turns).1 =
        (Desk.use .lastCompletion turns).1.under .latestRequest := by
  have hboth : Desk.use .latestRequest turns =
      ((Desk.use .lastCompletion turns).1.under .latestRequest,
        (Desk.use .lastCompletion turns).2) := by
    induction turns using List.reverseRecOn with
    | nil => rfl
    | append_singleton turns turn ih =>
        have hbefore : (historyOf turns).Undisputed := by
          rintro before m after heq
          refine h before m (after ++ historyOf [turn]) ?_
          rw [historyOf, List.filterMap_append, ← historyOf, heq, List.append_assoc]
          rfl
        have hcurrent := Desk.current_use .lastCompletion hbefore
        rw [Desk.use_concat, Desk.use_concat, ih hbefore, Desk.turn_under hcurrent]
  rw [hboth]
  exact ⟨rfl, rfl, rfl⟩

/-- Two loads with a reset between them, and creations that end while they are under way. -/
def unhurried : List (Turn Zone) :=
  [.session (.subscribe "log" "log"), .move (.start "first"),
    .move (.change (.created (.ok (.ofId "x")))), .move (.finish "first" (.ok [.ofId "y"])),
    .move .reset, .move (.start "second"), .move (.change (.created (.ok (.ofId "z")))),
    .move (.finish "second" (.ok [.ofId "w"]))]

theorem orderings_agree_unhurried :
    (historyOf unhurried).Undisputed ∧
      (Desk.use .latestRequest unhurried).1.store.session =
        (Desk.use .lastCompletion unhurried).1.store.session ∧
      (Desk.use .latestRequest unhurried).1.store.state.ids = ["w"] ∧
      (Desk.use .latestRequest unhurried).1.store.session.hub.source.version = 7 := by
  have hundisputed : (historyOf unhurried).Undisputed := by decide
  exact ⟨hundisputed, (orderings_agree hundisputed).2.1, by decide, by decide⟩

end ZoneConsole
