import ZoneConsole.Proofs.Store.History

/-!
# One entity for each identity

A collection is looked up, replaced and filtered by identity, so it should hold at most one
entity of each.  What the server answers can be asked to be consistent: no list names an
identity twice, no two creations answer the same one, and a changed entity keeps its own.
That is not enough.  A list may be read after an entity was created and before the creation
is confirmed; the confirmation appends the entity although it is there already.

* **`uniqueIds_iff_fresh`** — under consistent answers, identities are unique in every state
  of a history exactly if every creation is confirmed while its identity is absent.
* **`relisted`** — the shortest history in which a confirmation comes too late.
-/

namespace ZoneConsole

variable {E : Type} [Resource E]

namespace Collection

theorem ids_loaded_share (c : Collection E) (tag : Nat) (entities : List E) :
    (c.loaded (Store.share tag entities)).ids = entities.map Resource.id := by
  simp only [ids, loaded, Store.share, List.map_map]
  have hval : ((fun item : Shared E => Resource.id item.value) ∘
      fun p : E × Nat => (⟨p.2, p.1⟩ : Shared E)) = Resource.id ∘ Prod.fst := rfl
  rw [hval, ← List.map_map, List.zipIdx_map_fst]

theorem ids_appended (c : Collection E) (entity : Shared E) :
    (c.appended entity).ids = c.ids ++ [Resource.id entity.value] := by
  simp [ids, appended]

/-- An entity that keeps the identity it was asked for leaves the identities as they are. -/
theorem ids_replaced (c : Collection E) (id : String) (entity : Shared E)
    (hid : Resource.id entity.value = id) : (c.replaced id entity).ids = c.ids := by
  simp only [ids, replaced, List.map_map]
  refine List.map_congr_left ?_
  intro item _
  by_cases hi : hasId id item = true
  · have hitem : Resource.id item.value = id := by simpa [hasId] using hi
    simp [hi, hid, hitem]
  · simp [hi]

theorem ids_without (c : Collection E) (id : String) :
    (c.without id).ids = c.ids.filter (· ≠ id) := by
  simp only [ids, without, List.filter_map]
  refine congrArg (List.map _) (List.filter_congr ?_)
  intro item _
  simp [hasId]

end Collection

namespace Move

/-- The answer of a consistent server: no list names an identity twice, and a changed entity
    keeps its identity. -/
def Honest : Move E → Prop
  | finish _ (.ok entities) => (entities.map Resource.id).Nodup
  | change (.replaced id (.ok e)) => Resource.id e = id
  | _ => True

/-- The identity that the confirmation of a creation carries. -/
def createdId? : Move E → Option String
  | change (.created (.ok e)) => some (Resource.id e)
  | _ => none

/-- The identities that an answered list carries. -/
def listedIds : Move E → List String
  | finish _ (.ok entities) => entities.map Resource.id
  | _ => []

end Move

namespace History

/-- Every answer is that of a consistent server, and no two creations answer the same
    identity. -/
structure Consistent (h : History E) : Prop where
  honest : ∀ m ∈ h, m.Honest
  created : (h.filterMap Move.createdId?).Nodup

/-- Identities are unique in every state of the history. -/
def UniqueIds (ordering : LoadOrdering) (h : History E) : Prop :=
  ∀ seen rest, h = seen ++ rest → (Desk.play ordering seen).store.state.ids.Nodup

/-- Every creation is confirmed while its identity is absent. -/
def FreshlyCreated (ordering : LoadOrdering) (h : History E) : Prop :=
  ∀ seen e rest, h = seen ++ .change (.created (.ok e)) :: rest →
    Resource.id e ∉ (Desk.play ordering seen).store.state.ids

end History

namespace Desk

/-- The identities after a move: those of an answered list that counts, one more after a
    creation, one less after a removal, none after a reset, and otherwise the same. -/
theorem ids_move {d : Desk E} (hd : d.store.Live) {m : Move E} (hm : m.Honest) :
    (d.move m).store.state.ids = d.store.state.ids ∨
    (d.move m).store.state.ids = m.listedIds ∧ m.listedIds.Nodup ∨
    (∃ id, m.createdId? = some id ∧ (d.move m).store.state.ids = d.store.state.ids ++ [id]) ∨
    (∃ id, (d.move m).store.state.ids = d.store.state.ids.filter (· ≠ id)) := by
  have hstate : ∀ event, (d.store.apply event).state = (d.store.ledger.apply event).collection :=
    fun event => congrArg Ledger.collection (Store.ledger_apply hd event)
  cases m with
  | start load =>
      left
      simp only [move, hstate]
      rfl
  | reset =>
      right; left
      simp only [move, hstate]
      exact ⟨rfl, List.nodup_nil⟩
  | change c =>
      simp only [move, hstate]
      cases c with
      | errorCleared => left; rfl
      | created result =>
          cases result with
          | error e => left; rfl
          | ok e => exact .inr (.inr (.inl ⟨Resource.id e, rfl, Collection.ids_appended _ _⟩))
      | replaced id result =>
          left
          cases result with
          | error e => rfl
          | ok e => exact Collection.ids_replaced _ id _ hm
      | removed id result =>
          cases result with
          | error e => left; rfl
          | ok u => exact .inr (.inr (.inr ⟨id, Collection.ids_without _ id⟩))
  | finish load result =>
      simp only [move]
      cases hl : lookup? load d.waiting with
      | none => left; rfl
      | some token =>
          simp only [hstate, Ledger.apply]
          -- an answer that does not count changes nothing, whatever it lists
          by_cases hc : d.store.ledger.counts token = true
          · rw [if_pos hc]
            cases result with
            | error e => left; rfl
            | ok entities => exact .inr (.inl ⟨Collection.ids_loaded_share _ _ _, hm⟩)
          · rw [if_neg hc]
            left; rfl

/-- One move keeps identities unique, if it is not a creation of one that is there. -/
theorem nodup_ids_move {d : Desk E} (hd : d.store.Live) {m : Move E} (hm : m.Honest)
    (hn : d.store.state.ids.Nodup)
    (hfresh : ∀ id, m.createdId? = some id → id ∉ d.store.state.ids) :
    (d.move m).store.state.ids.Nodup := by
  rcases ids_move hd hm with heq | ⟨heq, hlist⟩ | ⟨id, hid, heq⟩ | ⟨id, heq⟩
  · rw [heq]; exact hn
  · rw [heq]; exact hlist
  · rw [heq, List.nodup_append]
    refine ⟨hn, List.pairwise_singleton _ id, ?_⟩
    intro x hx y hy hxy
    rw [List.mem_singleton] at hy
    exact hfresh id hid (hy ▸ hxy ▸ hx)
  · rw [heq]; exact hn.filter _

/-- The creation of an identity that is there makes it stand there twice. -/
theorem not_nodup_ids_created {d : Desk E} (hd : d.store.Live) {e : E}
    (hin : Resource.id e ∈ d.store.state.ids) :
    ¬ (d.move (.change (.created (.ok e)))).store.state.ids.Nodup := by
  have heq : (d.move (.change (.created (.ok e)))).store.state.ids
      = d.store.state.ids ++ [Resource.id e] := by
    have hl := congrArg Ledger.collection (Store.ledger_apply hd (.created (.ok e)))
    simp only [move]
    rw [show (d.store.apply (Change.created (.ok e)).event).state = _ from hl]
    exact Collection.ids_appended _ _
  rw [heq, List.nodup_append]
  rintro ⟨-, -, hdisj⟩
  exact hdisj _ hin _ (List.mem_singleton_self _) rfl

/-- What stands in a collection came from a list that was answered or from a creation. -/
theorem source_of_mem_ids (ordering : LoadOrdering) {h : History E} (hm : ∀ m ∈ h, m.Honest)
    {id : String} (hid : id ∈ (play ordering h).store.state.ids) :
    (∃ m ∈ h, id ∈ m.listedIds) ∨ id ∈ h.filterMap Move.createdId? := by
  induction h using List.reverseRecOn generalizing id with
  | nil => exact nomatch hid
  | append_singleton h m ih =>
      have hlast : m.Honest := hm m (by simp)
      have hold : id ∈ (play ordering h).store.state.ids →
          (∃ m' ∈ h ++ [m], id ∈ m'.listedIds) ∨ id ∈ (h ++ [m]).filterMap Move.createdId? := by
        intro hin
        rcases ih (fun m' hm' => hm m' (by simp [hm'])) hin with ⟨m', hm', hl⟩ | hc
        · exact .inl ⟨m', by simp [hm'], hl⟩
        · exact .inr (by rw [List.filterMap_append]; exact List.mem_append_left _ hc)
      rw [play_concat] at hid
      rcases ids_move (live_play ordering h) hlast with heq | ⟨heq, -⟩ | ⟨id', hid', heq⟩ |
          ⟨id', heq⟩
      · exact hold (heq ▸ hid)
      · exact .inl ⟨m, by simp, heq ▸ hid⟩
      · rw [heq, List.mem_append, List.mem_singleton] at hid
        rcases hid with hin | rfl
        · exact hold hin
        · exact .inr (by simp [hid'])
      · rw [heq] at hid
        exact hold (List.mem_filter.1 hid).1

end Desk

namespace History

/-- Fresh creations keep identities unique: the induction over a history. -/
theorem uniqueIds_of_fresh {ordering : LoadOrdering} {h : History E} (hm : ∀ m ∈ h, m.Honest)
    (hf : h.FreshlyCreated ordering) : h.UniqueIds ordering := by
  intro seen
  induction seen using List.reverseRecOn with
  | nil => intro rest _; exact List.nodup_nil
  | append_singleton seen m ih =>
      intro rest hh
      have hsplit : h = seen ++ (m :: rest) := by simpa using hh
      rw [Desk.play_concat]
      refine Desk.nodup_ids_move (Desk.live_play ordering seen) (hm m (by simp [hsplit]))
        (ih _ hsplit) ?_
      intro id hid
      cases m with
      | change c =>
          cases c with
          | created result =>
              cases result with
              | ok e =>
                  obtain rfl : Resource.id e = id := Option.some.inj hid
                  exact hf seen e rest hsplit
              | error e => exact nomatch hid
          | _ => exact nomatch hid
      | _ => exact nomatch hid

/-- Unique identities leave no room for a creation of one that is there. -/
theorem fresh_of_uniqueIds {ordering : LoadOrdering} {h : History E}
    (hu : h.UniqueIds ordering) : h.FreshlyCreated ordering := by
  intro seen e rest hsplit hin
  have hn := hu (seen ++ [.change (.created (.ok e))]) rest (by simp [hsplit])
  rw [Desk.play_concat] at hn
  exact Desk.not_nodup_ids_created (Desk.live_play ordering seen) hin hn

/-- No list that is answered before a creation is confirmed carries what was created. -/
def NeverListedEarly (h : History E) : Prop :=
  ∀ seen e rest, h = seen ++ .change (.created (.ok e)) :: rest →
    ∀ m ∈ seen, Resource.id e ∉ m.listedIds

/-- If lists never run ahead of confirmations, creations are fresh. -/
theorem fresh_of_neverListedEarly {h : History E} (hc : h.Consistent) (hl : h.NeverListedEarly)
    (ordering : LoadOrdering) : h.FreshlyCreated ordering := by
  intro seen e rest hsplit hin
  have hm : ∀ m ∈ seen, m.Honest := fun m hmem => hc.honest m (by simp [hsplit, hmem])
  rcases Desk.source_of_mem_ids ordering hm hin with ⟨m, hmem, hlist⟩ | hcreated
  · exact hl seen e rest hsplit m hmem hlist
  · have hn := hc.created
    rw [hsplit, List.filterMap_append, List.nodup_append] at hn
    exact hn.2.2 _ hcreated _ List.mem_cons_self rfl

end History

/-- **Identities are unique exactly if creations are fresh.**  Under consistent answers and
    either ordering of loads, no state of a history holds an identity twice if and only if
    every creation is confirmed while its identity is absent; and that is so whenever no list
    that was answered before a confirmation carries the created entity. -/
theorem uniqueIds_iff_fresh (ordering : LoadOrdering) (h : History E) (hc : h.Consistent) :
    (h.UniqueIds ordering ↔ h.FreshlyCreated ordering) ∧
      (h.NeverListedEarly → h.UniqueIds ordering) :=
  ⟨⟨History.fresh_of_uniqueIds, History.uniqueIds_of_fresh hc.honest⟩,
    fun hl => History.uniqueIds_of_fresh hc.honest
      (History.fresh_of_neverListedEarly hc hl ordering)⟩

/-- A zone is created while a list is on its way, and the list names the zone as well. -/
def confirmedFirst : History Zone :=
  [.start "list", .change (.created (.ok (.ofId "z1"))),
    .finish "list" (.ok [.ofId "z1", .ofId "z2"])]

/-- With the confirmation first, identities are unique throughout. -/
theorem confirmedFirst_uniqueIds :
    confirmedFirst.Consistent ∧ confirmedFirst.NeverListedEarly ∧
      confirmedFirst.UniqueIds .lastCompletion := by
  have hconsistent : confirmedFirst.Consistent := by
    refine ⟨?_, by decide⟩
    intro m hm
    simp only [confirmedFirst, List.mem_cons, List.not_mem_nil, or_false] at hm
    rcases hm with rfl | rfl | rfl
    · trivial
    · trivial
    · show (["z1", "z2"] : List String).Nodup
      decide
  have hearly : confirmedFirst.NeverListedEarly := by
    intro seen e rest hsplit m hm
    rcases seen with _ | ⟨first, _ | ⟨second, _ | ⟨third, seen⟩⟩⟩
    · exact nomatch hm
    · obtain ⟨rfl, -⟩ := List.cons.inj hsplit
      obtain rfl := List.mem_singleton.1 hm
      exact List.not_mem_nil
    · simp [confirmedFirst] at hsplit
    · simp [confirmedFirst] at hsplit
  exact ⟨hconsistent, hearly,
    (uniqueIds_iff_fresh .lastCompletion confirmedFirst hconsistent).2 hearly⟩

/-- A list is read after a zone was created and before its creation is confirmed. -/
def relisted : History Zone :=
  [.start "list", .finish "list" (.ok [.ofId "z1"]), .change (.created (.ok (.ofId "z1")))]

/-- Consistent answers alone do not keep identities unique, under neither ordering. -/
theorem relisted_twice :
    relisted.Consistent ∧ ¬ relisted.UniqueIds .lastCompletion ∧
      ¬ relisted.UniqueIds .latestRequest := by
  have hconsistent : relisted.Consistent := by
    refine ⟨?_, by decide⟩
    intro m hm
    simp only [relisted, List.mem_cons, List.not_mem_nil, or_false] at hm
    rcases hm with rfl | rfl | rfl
    · trivial
    · exact List.pairwise_singleton _ _
    · trivial
  refine ⟨hconsistent, ?_, ?_⟩
  · intro hu
    exact absurd (hu relisted [] rfl) (by decide)
  · intro hu
    exact absurd (hu relisted [] rfl) (by decide)

end ZoneConsole
