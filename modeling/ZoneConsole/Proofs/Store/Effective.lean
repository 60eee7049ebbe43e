import ZoneConsole.Proofs.Store.Overlap

/-!
# Effective answers

Which answers to loads are applied can be read off a history, without the tokens of a desk: all
of them under the last completion, and under the latest request those that no start of a load
and no reset has overtaken.

* **`History.Effective`** — the answer to a load is applied if it arrives now.
* **`Desk.ledger_finish`** — an effective answer is applied, any other one is discarded.
* **`History.LastOf`** — the last move of a kind.  What kind a move is of may depend on what
  happened before it.
* **`History.eq_iff_lastOf`** — what only the moves of a kind change is what the last of them
  has made of it.
-/

namespace ZoneConsole

variable {E : Type}

namespace History

/-- The load has started and has not ended since. -/
def UnderWay (h : History E) (load : String) : Prop :=
  ∃ before after, h = before ++ .start load :: after ∧ ∀ m ∈ after, m.ends load = false

/-- The load is under way, and where only the latest request counts, no load has started and no
    reset has happened since it started. -/
def Effective (ordering : LoadOrdering) (h : History E) (load : String) : Prop :=
  ∃ before after, h = before ++ .start load :: after ∧ (∀ m ∈ after, m.ends load = false) ∧
    (ordering = .latestRequest → ∀ m ∈ after, m.supersedes = false)

/-- A place in a history with one move more is the end of it or a place that was there before. -/
theorem concat_eq_append_cons {h before after : History E} {m x : Move E} :
    h ++ [m] = before ++ x :: after ↔
      (before = h ∧ x = m ∧ after = []) ∨
        ∃ earlier, after = earlier ++ [m] ∧ h = before ++ x :: earlier := by
  constructor
  · intro heq
    rcases List.eq_nil_or_concat after with rfl | ⟨earlier, last, rfl⟩
    · obtain ⟨hbefore, hx⟩ := List.append_inj' heq rfl
      exact .inl ⟨hbefore.symm, (List.singleton_inj.1 hx).symm, rfl⟩
    · have hplace : h ++ [m] = (before ++ x :: earlier) ++ [last] := by simpa using heq
      obtain ⟨hh, hm⟩ := List.append_inj' hplace rfl
      exact .inr ⟨earlier, by simp [List.singleton_inj.1 hm], hh⟩
  · rintro (⟨rfl, rfl, rfl⟩ | ⟨earlier, rfl, rfl⟩)
    · rfl
    · simp

/-- One more move: a load is under way if the move starts it, or if it was so and the move does
    not end it. -/
theorem underWay_concat {h : History E} {m : Move E} {load : String} :
    UnderWay (h ++ [m]) load ↔ m = .start load ∨ h.UnderWay load ∧ m.ends load = false := by
  constructor
  · rintro ⟨before, after, heq, hends⟩
    rcases concat_eq_append_cons.1 heq with ⟨-, rfl, -⟩ | ⟨earlier, rfl, rfl⟩
    · exact .inl rfl
    · obtain ⟨hearlier, hm⟩ := List.forall_mem_append.1 hends
      exact .inr ⟨⟨before, earlier, rfl, hearlier⟩, hm m (List.mem_singleton_self m)⟩
  · rintro (rfl | ⟨⟨before, after, rfl, hends⟩, hm⟩)
    · exact ⟨h, [], rfl, List.forall_mem_nil _⟩
    · refine ⟨before, after ++ [m], concat_eq_append_cons.2 (.inr ⟨after, rfl, rfl⟩), ?_⟩
      exact List.forall_mem_append.2 ⟨hends, List.forall_mem_singleton.2 hm⟩

/-- Has the load started and not ended since? -/
def isUnderWay (h : History E) (load : String) : Bool :=
  h.foldl (fun under m => m.starts load || under && !m.ends load) false

theorem isUnderWay_iff {h : History E} {load : String} :
    h.isUnderWay load = true ↔ h.UnderWay load := by
  induction h using List.reverseRecOn with
  | nil =>
      constructor
      · exact nofun
      · rintro ⟨before, after, heq, -⟩
        simp at heq
  | append_singleton h m ih =>
      have hstarts : m.starts load = true ↔ m = .start load := by
        cases m <;> simp [Move.starts]
      have hstep : isUnderWay (h ++ [m]) load =
          (m.starts load || isUnderWay h load && !m.ends load) := by
        simp [isUnderWay]
      rw [hstep, underWay_concat, Bool.or_eq_true, Bool.and_eq_true, ih, hstarts,
        Bool.not_eq_true']

instance (h : History E) (load : String) : Decidable (h.UnderWay load) :=
  decidable_of_iff _ isUnderWay_iff

/-- An answer is effective if its load is under way and, where that matters, the newest one. -/
theorem effective_iff {ordering : LoadOrdering} {h : History E} {load : String} :
    h.Effective ordering load ↔
      h.UnderWay load ∧ (ordering = .latestRequest → h.newest = some load) := by
  constructor
  · rintro ⟨before, after, rfl, hends, hnewest⟩
    refine ⟨⟨before, after, rfl, hends⟩, fun hordering => newest_of_not_supersedes before load ?_⟩
    rw [List.any_eq_false]
    exact fun m hm => Bool.not_eq_true _ ▸ hnewest hordering m hm
  · rintro ⟨⟨before, after, rfl, hends⟩, hnewest⟩
    cases ordering with
    | lastCompletion => exact ⟨before, after, rfl, hends, nofun⟩
    | latestRequest =>
        obtain ⟨before', after', hsplit, hnone⟩ := newest_eq_some (hnewest rfl)
        have hquiet : ∀ m ∈ after', m.supersedes = false := fun m hm =>
          Bool.eq_false_iff.2 (List.any_eq_false.1 hnone m hm)
        refine ⟨before', after', hsplit, fun m hm => hends m ?_, fun _ => hquiet⟩
        -- the start that nothing supersedes is not before the one that was found
        rcases List.append_eq_append_iff.1 hsplit with ⟨between, -, hafter⟩ | ⟨between, -, hafter⟩
        · rcases List.cons_eq_append_iff.1 hafter with ⟨-, heq⟩ | ⟨more, -, rfl⟩
          · exact (List.cons.inj heq).2 ▸ hm
          · exact List.mem_append_right _ (List.mem_cons_of_mem _ hm)
        · rcases List.cons_eq_append_iff.1 hafter with ⟨-, heq⟩ | ⟨more, -, rfl⟩
          · exact (List.cons.inj heq).2 ▸ hm
          · cases hquiet (.start load) (by simp)

instance (ordering : LoadOrdering) (h : History E) (load : String) :
    Decidable (h.Effective ordering load) :=
  decidable_of_iff _ effective_iff.symm

/-! ### The last move of a kind -/

/-- The move after `seen` is of a kind, and no later move is. -/
def LastOf (kind : History E → Move E → Prop) (h seen : History E) (m : Move E) : Prop :=
  ∃ rest, h = seen ++ m :: rest ∧ kind seen m ∧
    ∀ before x after, rest = before ++ x :: after → ¬ kind (seen ++ m :: before) x

theorem lastOf_concat {kind : History E → Move E → Prop} {h seen : History E} {m x : Move E} :
    LastOf kind (h ++ [x]) seen m ↔
      kind h x ∧ seen = h ∧ m = x ∨ ¬ kind h x ∧ LastOf kind h seen m := by
  constructor
  · rintro ⟨rest, heq, hkind, hlast⟩
    rcases concat_eq_append_cons.1 heq with ⟨rfl, rfl, -⟩ | ⟨earlier, rfl, rfl⟩
    · exact .inl ⟨hkind, rfl, rfl⟩
    · refine .inr ⟨hlast earlier x [] rfl, earlier, rfl, hkind, fun before y after hplace => ?_⟩
      exact hlast before y (after ++ [x]) (concat_eq_append_cons.2 (.inr ⟨after, rfl, hplace⟩))
  · rintro (⟨hkind, rfl, rfl⟩ | ⟨hx, rest, rfl, hkind, hlast⟩)
    · exact ⟨[], rfl, hkind, fun before y after hplace => by simp at hplace⟩
    · refine ⟨rest ++ [x], concat_eq_append_cons.2 (.inr ⟨rest, rfl, rfl⟩), hkind, ?_⟩
      intro before y after hplace
      rcases concat_eq_append_cons.1 hplace with ⟨rfl, rfl, -⟩ | ⟨earlier, -, hearlier⟩
      · exact hx
      · exact hlast before y earlier hearlier

/-- **What only the moves of a kind change** is what the last of them has made of it. -/
theorem eq_iff_lastOf {α : Type} (kind : History E → Move E → Prop) (f : History E → α)
    (effect : History E → Move E → α) {h : History E}
    (hkind : ∀ seen m rest, h = seen ++ m :: rest → kind seen m →
      f (seen ++ [m]) = effect seen m)
    (hother : ∀ seen m rest, h = seen ++ m :: rest → ¬ kind seen m →
      f (seen ++ [m]) = f seen)
    {a : α} (hstart : f [] ≠ a) :
    f h = a ↔ ∃ seen m, LastOf kind h seen m ∧ effect seen m = a := by
  -- From the end: either the last move is of the kind, or it changes nothing.
  induction h using List.reverseRecOn with
  | nil =>
      refine iff_of_false hstart ?_
      rintro ⟨seen, m, ⟨rest, heq, -⟩, -⟩
      simp at heq
  | append_singleton h x ih =>
      have hlonger : ∀ {seen m rest}, h = seen ++ m :: rest →
          h ++ [x] = seen ++ m :: (rest ++ [x]) := fun hplace =>
        concat_eq_append_cons.2 (.inr ⟨_, rfl, hplace⟩)
      by_cases hx : kind h x
      · simp only [lastOf_concat, hx, hkind h x [] rfl hx]
        constructor
        · intro ha
          exact ⟨h, x, .inl ⟨trivial, rfl, rfl⟩, ha⟩
        · rintro ⟨seen, m, ⟨-, rfl, rfl⟩ | ⟨hnot, -⟩, ha⟩
          · exact ha
          · exact absurd trivial hnot
      · simp only [lastOf_concat, hx, hother h x [] rfl hx]
        rw [ih (fun seen m rest hplace => hkind seen m _ (hlonger hplace))
          (fun seen m rest hplace => hother seen m _ (hlonger hplace))]
        simp

end History

namespace Desk

variable [Resource E]

/-- The names that wait at a desk are those of the loads under way. -/
theorem waiting_iff (ordering : LoadOrdering) (h : History E) (load : String) :
    (lookup? load (play ordering h).waiting).isSome = true ↔ h.UnderWay load := by
  induction h using List.reverseRecOn with
  | nil =>
      refine iff_of_false nofun ?_
      rintro ⟨before, after, heq, -⟩
      simp at heq
  | append_singleton h m ih =>
      rw [play_concat, History.underWay_concat, ← ih]
      cases m with
      | start l =>
          simp only [move, lookup?_put, Move.ends, Move.start.injEq, and_true]
          by_cases hl : load = l
          · simp [hl]
          · simp [hl, Ne.symm hl]
      | finish l result =>
          rw [lookup?_finish]
          by_cases hl : load = l
          · simp [hl, Move.ends]
          · simp [hl, Ne.symm hl, Move.ends]
      | change c => simp [move, Move.ends]
      | reset => simp [move, Move.ends]

theorem ledger_start (ordering : LoadOrdering) (h : History E) (load : String) :
    (play ordering (h ++ [.start load])).store.ledger =
      (play ordering h).store.ledger.apply .loadStarted := by
  rw [play_concat]
  exact Store.ledger_apply (live_play ordering h) .loadStarted

theorem ledger_change (ordering : LoadOrdering) (h : History E) (c : Change E) :
    (play ordering (h ++ [.change c])).store.ledger =
      (play ordering h).store.ledger.apply c.event := by
  rw [play_concat]
  exact Store.ledger_apply (live_play ordering h) c.event

theorem ledger_reset (ordering : LoadOrdering) (h : History E) :
    (play ordering (h ++ [.reset])).store.ledger =
      (play ordering h).store.ledger.apply .reset := by
  rw [play_concat]
  exact Store.ledger_apply (live_play ordering h) .reset

/-- **An effective answer is applied**, and any other one changes nothing. -/
theorem ledger_finish (ordering : LoadOrdering) (h : History E) (load : String)
    (result : Except ApiError (List E)) :
    (play ordering (h ++ [.finish load result])).store.ledger =
      if h.Effective ordering load then (play ordering h).store.ledger.accept result
      else (play ordering h).store.ledger := by
  have hlive := live_play ordering h
  have hordering := ordering_play ordering h
  rw [play_concat, move]
  cases hw : lookup? load (play ordering h).waiting with
  | none =>
      have hnot : ¬ h.Effective ordering load := fun heffective => by
        have hwaiting := (waiting_iff ordering h load).2 (History.effective_iff.1 heffective).1
        rw [hw] at hwaiting
        cases hwaiting
      rw [if_neg hnot]
  | some token =>
      have hunder : h.UnderWay load := (waiting_iff ordering h load).1 (by rw [hw]; rfl)
      have htracks := (tracks_play ordering h load token hw).2
      -- tokens count exactly if the load is the newest one
      have hcounts : (play ordering h).store.ledger.counts token = true ↔
          h.Effective ordering load := by
        rw [History.effective_iff, ← htracks]
        cases ordering <;> simp [Ledger.counts, Store.ledger, hordering, hunder]
      rw [Store.ledger_apply hlive, Ledger.apply]
      exact if_congr hcounts rfl rfl

end Desk

end ZoneConsole
