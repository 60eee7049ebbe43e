import ZoneConsole.Proofs.Store.History

/-!
# Overlapping loads under the latest request

Where only the answer to the latest request counts, a load that another load or a reset
supersedes leaves no trace: its start only sets flags that the superseding move sets again,
and its answer is discarded.  So the loads that are superseded can be struck out of a
history.

* **`History.settled`** — a history without the starts and ends of superseded loads.
* **`Alike`** — what holds between a desk that plays a history and one that plays it
  without superseded loads: the entities and the next tag are always the same, and so are
  the flags, except while the newest load is one that will be superseded.
* **`alike_play`** — `Alike` holds after every part of a history, by induction on it.
* **`settled_linearizes`** — the settled history is sequential and ends in the same
  collection, and no answer to a superseded load changes anything.
-/

namespace ZoneConsole

variable {E : Type}

namespace History

/-- Does the move stay when superseded loads are struck out? -/
def keeps (h : History E) (m : Move E) : Bool :=
  match m.load? with
  | some load => !h.superseded load
  | none => true

/-- The history without the starts and ends of superseded loads. -/
def settled (h : History E) : History E := h.filter h.keeps

/-- Loads never overlap: when a load starts, every load that started before has ended. -/
def Sequential (h : History E) : Prop :=
  ∀ before load between next after,
    h = before ++ .start load :: (between ++ .start next :: after) →
      ∃ result, .finish load result ∈ between

/-- What happens while a load is under way, read off a place where the load starts. -/
theorem during_append {before : History E} {load : String} (hb : load ∉ before.loads)
    (after : History E) :
    during (before ++ .start load :: after) load = after.takeWhile (!·.ends load) :=
  congrArg (List.takeWhile _) (afterStart_append hb after)

/-- The newest load is not superseded. -/
theorem superseded_newest {h : History E} (hnames : h.loads.Nodup) {load : String}
    (hn : h.newest = some load) : h.superseded load = false := by
  obtain ⟨before, after, rfl, hs⟩ := newest_eq_some hn
  rw [superseded, during_append (not_mem_loads_of_nodup hnames), List.any_eq_false]
  intro m hm
  exact List.any_eq_false.1 hs m (List.takeWhile_subset _ hm)

/-- Striking superseded loads out does not change which load is the newest, if that one is
    not struck out itself. -/
theorem newest_filter_keeps (h : History E) {seen : History E} {load : String}
    (hn : seen.newest = some load) (hk : h.superseded load = false) :
    newest (seen.filter h.keeps) = some load := by
  obtain ⟨before, after, rfl, hs⟩ := newest_eq_some hn
  have hkeep : h.keeps (.start load) = true := by simp [keeps, Move.load?, hk]
  rw [List.filter_append, List.filter_cons_of_pos hkeep]
  refine newest_of_not_supersedes _ load ?_
  rw [List.any_eq_false]
  intro m hm
  exact List.any_eq_false.1 hs m (List.mem_filter.1 hm).1

/-- The settled history is sequential. -/
theorem sequential_settled {h : History E} (hnames : h.loads.Nodup) : h.settled.Sequential := by
  intro before load between next after hsplit
  obtain ⟨before₀, tail₀, hh, -, htail⟩ := List.filter_eq_append_iff.1 hsplit
  obtain ⟨skipped, tail₁, htail₀, -, hkeep, hrest⟩ := List.filter_eq_cons_iff.1 htail
  obtain ⟨between₀, tail₂, htail₁, hbetween, hlast⟩ := List.filter_eq_append_iff.1 hrest
  obtain ⟨skipped₂, after₀, htail₂, hskip, -, -⟩ := List.filter_eq_cons_iff.1 hlast
  have hwhole : h = (before₀ ++ skipped) ++ .start load ::
      ((between₀ ++ skipped₂) ++ .start next :: after₀) := by
    rw [hh, htail₀, htail₁, htail₂]
    simp
  have hk : h.superseded load = false := by simpa [keeps, Move.load?] using hkeep
  have hb : load ∉ loads (before₀ ++ skipped) := by
    rw [hwhole] at hnames
    exact not_mem_loads_of_nodup hnames
  by_contra hnone
  -- without an end in between, the next start falls into the time of the load
  have hends : ∀ m ∈ between₀ ++ skipped₂, (!m.ends load) = true := by
    intro m hm
    cases m with
    | start l => rfl
    | change c => rfl
    | reset => rfl
    | finish l result =>
        by_cases hl : l = load
        · subst hl
          have hstays : h.keeps (.finish l result) = true := by simp [keeps, Move.load?, hk]
          rcases List.mem_append.1 hm with hin | hin
          · have hmem : Move.finish l result ∈ between₀.filter h.keeps :=
              List.mem_filter.2 ⟨hin, hstays⟩
            exact absurd ⟨result, hbetween ▸ hmem⟩ hnone
          · exact absurd hstays (hskip _ hin)
        · simp [Move.ends, hl]
  have hduring : h.during load = (between₀ ++ skipped₂) ++
      (Move.start next :: after₀).takeWhile (!·.ends load) := by
    conv_lhs => rw [hwhole]
    rw [during_append hb, List.takeWhile_append_of_pos hends]
  have hstart : (Move.start next : Move E) ∈ h.during load := by
    rw [hduring, List.takeWhile_cons_of_pos rfl]
    simp
  exact List.any_eq_false.1 hk _ hstart rfl

variable [Resource E]

/-- A load under way that is not going to be superseded is the newest one. -/
theorem newest_of_waiting {ordering : LoadOrdering} {seen rest : History E}
    (hnames : (loads (seen ++ rest)).Nodup) {load : String} {token : Nat}
    (hw : lookup? load (Desk.play ordering seen).waiting = some token)
    (hk : superseded (seen ++ rest) load = false) : seen.newest = some load := by
  obtain ⟨before, after, rfl, hends⟩ := Desk.started_of_waiting hw
  refine newest_of_not_supersedes before load ?_
  rw [List.append_assoc, List.cons_append] at hnames hk
  rw [superseded, during_append (not_mem_loads_of_nodup hnames),
    List.takeWhile_append_of_pos (fun m hm => by simp [hends m hm]), List.any_append,
    Bool.or_eq_false_iff] at hk
  exact hk.1

/-- A load under way that was superseded before its answer arrives is not the newest one. -/
theorem newest_ne_of_superseded {ordering : LoadOrdering} {seen rest : History E} {load : String}
    {result : Except ApiError (List E)} {token : Nat}
    (hnames : (loads (seen ++ .finish load result :: rest)).Nodup)
    (hw : lookup? load (Desk.play ordering seen).waiting = some token)
    (hs : superseded (seen ++ .finish load result :: rest) load = true) :
    seen.newest ≠ some load := by
  obtain ⟨before, after, rfl, hends⟩ := Desk.started_of_waiting hw
  intro hn
  -- both views of the last start of the load see the same moves after it
  obtain ⟨before', after', hsplit, hafter'⟩ := newest_eq_some hn
  have hnames' := hnames
  rw [loads_append] at hnames'
  have hseen := (List.nodup_append.1 hnames').1
  have hb := not_mem_loads_of_nodup hseen
  have hb' : load ∉ loads before' := by
    rw [hsplit] at hseen
    exact not_mem_loads_of_nodup hseen
  have hafter : after = after' := by
    rw [← afterStart_append hb after, hsplit, afterStart_append hb' after']
  rw [List.append_assoc, List.cons_append, superseded, during_append hb,
    List.takeWhile_append_of_pos (fun m hm => by simp [hends m hm])] at hs
  have hstop : (Move.finish load result :: rest).takeWhile (!·.ends load) = [] := by
    simp [Move.ends]
  rw [hstop, List.append_nil, hafter, hafter'] at hs
  cases hs

end History

/-- An answer that counts makes the same of the same collection. -/
theorem Ledger.accept_congr {l k : Ledger E} (hc : k.collection = l.collection)
    (ht : k.nextTag = l.nextTag) (result : Except ApiError (List E)) :
    (k.accept result).collection = (l.accept result).collection ∧
      (k.accept result).nextTag = (l.accept result).nextTag := by
  cases result with
  | ok entities => simp [accept, hc, ht]
  | error e => simp [accept, hc, ht]

variable [Resource E]

/-- The entities and the next tag after a change depend on nothing but those before it. -/
theorem Ledger.items_change {l k : Ledger E} (hi : k.collection.items = l.collection.items)
    (ht : k.nextTag = l.nextTag) (c : Change E) :
    (k.apply c.event).collection.items = (l.apply c.event).collection.items ∧
      (k.apply c.event).nextTag = (l.apply c.event).nextTag := by
  cases c with
  | created result =>
      cases result with
      | ok e => simp [Change.event, apply, Collection.appended, hi, ht]
      | error e => exact ⟨hi, ht⟩
  | replaced id result =>
      cases result with
      | ok e => simp [Change.event, apply, Collection.replaced, hi, ht]
      | error e => exact ⟨hi, ht⟩
  | removed id result =>
      cases result with
      | ok u => simp [Change.event, apply, Collection.without, hi, ht]
      | error e => exact ⟨hi, ht⟩
  | errorCleared => exact ⟨hi, ht⟩

/-- The collection after a change depends on nothing but the collection and the next tag
    before it. -/
theorem Ledger.collection_change {l k : Ledger E} (hc : k.collection = l.collection)
    (ht : k.nextTag = l.nextTag) (c : Change E) :
    (k.apply c.event).collection = (l.apply c.event).collection := by
  cases c with
  | created result => cases result <;> simp [Change.event, apply, hc, ht]
  | replaced id result => cases result <;> simp [Change.event, apply, hc, ht]
  | removed id result => cases result <;> simp [Change.event, apply, hc]
  | errorCleared => simp [Change.event, apply, hc]

namespace Desk

/-- The end of a load takes its name from the desk, and no other one. -/
theorem lookup?_finish (d : Desk E) (load other : String) (result : Except ApiError (List E)) :
    lookup? other (d.move (.finish load result)).waiting
      = if other = load then none else lookup? other d.waiting := by
  simp only [move]
  cases hl : lookup? load d.waiting with
  | none =>
      by_cases heq : other = load
      · rw [if_pos heq, heq, hl]
      · rw [if_neg heq]
  | some token => exact lookup?_without load other d.waiting

/-- The answer to a superseded load changes nothing when it arrives. -/
theorem store_finish_of_superseded {seen rest : History E} {load : String}
    {result : Except ApiError (List E)}
    (hnames : (History.loads (seen ++ .finish load result :: rest)).Nodup)
    (hs : History.superseded (seen ++ .finish load result :: rest) load = true) :
    ((play .latestRequest seen).move (.finish load result)).store
      = (play .latestRequest seen).store := by
  simp only [move]
  cases hw : lookup? load (play .latestRequest seen).waiting with
  | none => rfl
  | some token =>
      have hn := History.newest_ne_of_superseded hnames hw hs
      have htoken : (play .latestRequest seen).store.issued ≠ token := fun heq =>
        hn ((tracks_play .latestRequest seen load token hw).2.1 heq)
      have hcounts : (play .latestRequest seen).store.counts token = false := by
        simp [Store.counts, ordering_play, htoken]
      cases result with
      | ok entities => simp [Store.apply, Store.endLoad, hcounts]
      | error e => simp [Store.apply, Store.endLoad, hcounts]

/-- The answer to the newest load is applied. -/
theorem ledger_finish_newest {seen : History E} {load : String} {token : Nat}
    (hw : lookup? load (play .latestRequest seen).waiting = some token)
    (hn : seen.newest = some load) (result : Except ApiError (List E)) :
    ((play .latestRequest seen).move (.finish load result)).store.ledger
      = (play .latestRequest seen).store.ledger.accept result := by
  have htoken : (play .latestRequest seen).store.issued = token :=
    (tracks_play .latestRequest seen load token hw).2.2 hn
  have hcounts : (play .latestRequest seen).store.ledger.counts token = true := by
    simp [Ledger.counts, Store.ledger, htoken]
  simp only [move, hw]
  rw [Store.ledger_apply (live_play .latestRequest seen), Ledger.apply, if_pos hcounts]

end Desk

/-- A desk that plays a history, and a desk that plays it without superseded loads.  The
    flags of the first one may differ while its newest load is one that is superseded
    later: the superseding move will set them again. -/
structure Alike (h : History E) (newest : Option String) (full kept : Desk E) : Prop where
  items : kept.store.ledger.collection.items = full.store.ledger.collection.items
  nextTag : kept.store.ledger.nextTag = full.store.ledger.nextTag
  collection : (∀ load, newest = some load → h.superseded load = false) →
    kept.store.ledger.collection = full.store.ledger.collection
  waiting : ∀ load, h.superseded load = false →
    (lookup? load kept.waiting).isSome = (lookup? load full.waiting).isSome

namespace Alike

variable {h : History E} {newest : Option String} {full kept : Desk E}

/-- A reset makes the two desks the same. -/
theorem reset (ha : Alike h newest full kept) (hf : full.store.Live) (hk : kept.store.Live) :
    Alike h none (full.move .reset) (kept.move .reset) := by
  simp only [Desk.move]
  refine ⟨?_, ?_, ?_, ha.waiting⟩
  · rw [Store.ledger_apply hf, Store.ledger_apply hk]; rfl
  · rw [Store.ledger_apply hf, Store.ledger_apply hk]; exact ha.nextTag
  · intro _
    rw [Store.ledger_apply hf, Store.ledger_apply hk]; rfl

/-- A change happens on both desks. -/
theorem change (ha : Alike h newest full kept) (hf : full.store.Live) (hk : kept.store.Live)
    (c : Change E) : Alike h newest (full.move (.change c)) (kept.move (.change c)) := by
  have hsame := Ledger.items_change ha.items ha.nextTag c
  simp only [Desk.move]
  refine ⟨?_, ?_, ?_, ha.waiting⟩
  · rw [Store.ledger_apply hf, Store.ledger_apply hk]; exact hsame.1
  · rw [Store.ledger_apply hf, Store.ledger_apply hk]; exact hsame.2
  · intro hagree
    rw [Store.ledger_apply hf, Store.ledger_apply hk]
    exact Ledger.collection_change (ha.collection hagree) ha.nextTag c

/-- The start of a load that is superseded later is struck out: only flags differ. -/
theorem start_struck (ha : Alike h newest full kept) (hf : full.store.Live) {load : String}
    (hs : h.superseded load = true) : Alike h (some load) (full.move (.start load)) kept := by
  simp only [Desk.move]
  refine ⟨?_, ?_, ?_, ?_⟩
  · rw [Store.ledger_apply hf]; exact ha.items
  · rw [Store.ledger_apply hf]; exact ha.nextTag
  · intro hagree
    exact absurd (hagree load rfl) (by simp [hs])
  · intro other hother
    have hne : other ≠ load := by
      intro heq
      rw [heq, hs] at hother
      cases hother
    rw [lookup?_put, if_neg hne]
    exact ha.waiting other hother

/-- The start of another load happens on both desks, and sets the same flags. -/
theorem start_kept (ha : Alike h newest full kept) (hf : full.store.Live) (hk : kept.store.Live)
    (load : String) : Alike h (some load) (full.move (.start load)) (kept.move (.start load)) := by
  simp only [Desk.move]
  refine ⟨?_, ?_, ?_, ?_⟩
  · rw [Store.ledger_apply hf, Store.ledger_apply hk]; exact ha.items
  · rw [Store.ledger_apply hf, Store.ledger_apply hk]; exact ha.nextTag
  · intro _
    rw [Store.ledger_apply hf, Store.ledger_apply hk]
    simp only [Ledger.apply, Collection.loadStarted, ha.items]
  · intro other hother
    rw [lookup?_put, lookup?_put]
    by_cases heq : other = load
    · rw [if_pos heq, if_pos heq]; rfl
    · rw [if_neg heq, if_neg heq]
      exact ha.waiting other hother

/-- The end of a superseded load is struck out: it has changed nothing. -/
theorem finish_struck (ha : Alike h newest full kept) {load : String}
    (hs : h.superseded load = true) {result : Except ApiError (List E)}
    (hsame : (full.move (.finish load result)).store = full.store) :
    Alike h newest (full.move (.finish load result)) kept := by
  refine ⟨?_, ?_, ?_, ?_⟩
  · rw [hsame]; exact ha.items
  · rw [hsame]; exact ha.nextTag
  · rw [hsame]; exact ha.collection
  · intro other hother
    have hne : other ≠ load := by
      intro heq
      rw [heq, hs] at hother
      cases hother
    rw [Desk.lookup?_finish, if_neg hne]
    exact ha.waiting other hother

/-- The end of another load that both desks apply to the same collection. -/
theorem finish_kept (ha : Alike h newest full kept) {load : String}
    (hn : newest = some load) (hs : h.superseded load = false)
    {result : Except ApiError (List E)}
    (hf : (full.move (.finish load result)).store.ledger = full.store.ledger.accept result)
    (hk : (kept.move (.finish load result)).store.ledger = kept.store.ledger.accept result) :
    Alike h newest (full.move (.finish load result)) (kept.move (.finish load result)) := by
  have hcoll : kept.store.ledger.collection = full.store.ledger.collection := by
    refine ha.collection ?_
    intro other hother
    obtain rfl : load = other := Option.some.inj (hn.symm.trans hother)
    exact hs
  have hsame := Ledger.accept_congr hcoll ha.nextTag result
  refine ⟨?_, ?_, ?_, ?_⟩
  · rw [hf, hk, hsame.1]
  · rw [hf, hk, hsame.2]
  · intro _
    rw [hf, hk, hsame.1]
  · intro other hother
    rw [Desk.lookup?_finish, Desk.lookup?_finish]
    by_cases heq : other = load
    · rw [if_pos heq, if_pos heq]
    · rw [if_neg heq, if_neg heq]
      exact ha.waiting other hother

/-- The end of a load that neither desk waits for is no move at all. -/
theorem finish_ignored (ha : Alike h newest full kept) {load : String}
    (hf : lookup? load full.waiting = none) (hk : lookup? load kept.waiting = none)
    (result : Except ApiError (List E)) :
    Alike h newest (full.move (.finish load result)) (kept.move (.finish load result)) := by
  simp only [Desk.move, hf, hk]
  exact ha

end Alike

/-- After every part of a history the two desks are alike. -/
theorem alike_play {h seen rest : History E} (hnames : h.loads.Nodup) (hh : h = seen ++ rest) :
    Alike h seen.newest (Desk.play .latestRequest seen)
      (Desk.play .latestRequest (seen.filter h.keeps)) := by
  induction seen using List.reverseRecOn generalizing rest with
  | nil => exact ⟨rfl, rfl, fun _ => rfl, fun _ _ => rfl⟩
  | append_singleton seen m ih =>
      have hsplit : h = seen ++ (m :: rest) := by simpa using hh
      have ha := ih hsplit
      have hf := Desk.live_play .latestRequest seen
      have hk := Desk.live_play .latestRequest (seen.filter h.keeps)
      rw [List.filter_append, Desk.play_concat, History.newest_concat]
      -- both desks make the move, or it belongs to a superseded load and only one of them does
      cases m with
      | reset =>
          rw [List.filter_cons_of_pos rfl, List.filter_nil, Desk.play_concat]
          exact ha.reset hf hk
      | change c =>
          rw [List.filter_cons_of_pos rfl, List.filter_nil, Desk.play_concat]
          exact ha.change hf hk c
      | start load =>
          cases hs : h.superseded load with
          | true =>
              rw [List.filter_cons_of_neg (by simp [History.keeps, Move.load?, hs]),
                List.filter_nil, List.append_nil]
              exact ha.start_struck hf hs
          | false =>
              rw [List.filter_cons_of_pos (by simp [History.keeps, Move.load?, hs]),
                List.filter_nil, Desk.play_concat]
              exact ha.start_kept hf hk load
      | finish load result =>
          cases hs : h.superseded load with
          | true =>
              rw [List.filter_cons_of_neg (by simp [History.keeps, Move.load?, hs]),
                List.filter_nil, List.append_nil]
              -- such an answer is discarded, so the store is as it was
              refine ha.finish_struck hs ?_
              rw [hsplit] at hnames hs
              exact Desk.store_finish_of_superseded hnames hs
          | false =>
              rw [List.filter_cons_of_pos (by simp [History.keeps, Move.load?, hs]),
                List.filter_nil, Desk.play_concat]
              have hboth := ha.waiting load hs
              cases hw : lookup? load (Desk.play .latestRequest seen).waiting with
              | none =>
                  rw [hw, Option.isSome_none, Option.isSome_eq_false_iff, Option.isNone_iff_eq_none]
                    at hboth
                  exact ha.finish_ignored hw hboth result
              | some token =>
                  rw [hw] at hboth
                  obtain ⟨token', hw'⟩ := Option.isSome_iff_exists.1 hboth
                  -- a load that waits and is never superseded is the newest one on either desk
                  have hn : History.newest seen = some load := by
                    rw [hsplit] at hnames hs
                    exact History.newest_of_waiting hnames hw hs
                  have hn' := History.newest_filter_keeps h hn hs
                  exact ha.finish_kept hn hs (Desk.ledger_finish_newest hw hn result)
                    (Desk.ledger_finish_newest hw' hn' result)

/-- **Superseded loads leave no trace.**  Where only the answer to the latest request
    counts, the history without superseded loads is sequential and ends in the same
    collection; and the answer to a superseded load changes nothing when it arrives. -/
theorem settled_linearizes (h : History E) (hnames : h.loads.Nodup) :
    h.settled.Sequential ∧
      (Desk.play .latestRequest h.settled).store.state = (Desk.play .latestRequest h).store.state ∧
      ∀ seen load result rest, h = seen ++ .finish load result :: rest →
        h.superseded load = true →
        (Desk.play .latestRequest (seen ++ [.finish load result])).store
          = (Desk.play .latestRequest seen).store := by
  refine ⟨History.sequential_settled hnames, ?_, ?_⟩
  · have ha : Alike h h.newest (Desk.play .latestRequest h) (Desk.play .latestRequest h.settled) :=
      alike_play hnames (List.append_nil h).symm
    exact ha.collection (fun load hn => History.superseded_newest hnames hn)
  · intro seen load result rest hh hs
    rw [hh] at hnames hs
    rw [Desk.play_concat]
    exact Desk.store_finish_of_superseded hnames hs

/-- A load that is overtaken by another one and answered last. -/
def overtaken : History Zone :=
  [.start "old", .change (.created (.ok (.ofId "x"))), .start "new",
    .finish "new" (.ok [.ofId "y"]), .change (.created (.ok (.ofId "z"))),
    .finish "old" (.ok [.ofId "w"])]

theorem settled_linearizes_overtaken :
    overtaken.loads.Nodup ∧
      overtaken.settled = [.change (.created (.ok (.ofId "x"))), .start "new",
        .finish "new" (.ok [.ofId "y"]), .change (.created (.ok (.ofId "z")))] ∧
      overtaken.settled.Sequential ∧
      (Desk.play .latestRequest overtaken.settled).store.state.ids = ["y", "z"] ∧
      (Desk.play .latestRequest overtaken.settled).store.state
        = (Desk.play .latestRequest overtaken).store.state := by
  have h := settled_linearizes overtaken (by decide)
  exact ⟨by decide, rfl, h.1, by decide, h.2.1⟩

end ZoneConsole
