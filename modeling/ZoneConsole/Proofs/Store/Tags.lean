import ZoneConsole.Proofs.Store.History

/-!
# Tags are given once

An entity is shared, and its tag stands for which answer brought it.  That works because tags are
counted up: whatever an event brings has a tag that no entity of the collection has.

* **`Ledger.Renews`** — what is in the collection later was there or has a new tag.
* **`Desk.tag_ne_of_new`** — an entity that a move brings is none of those before it.
-/

namespace ZoneConsole

variable {E : Type}

/-- An entity gets a tag from the given one on, and below the next one to be given. -/
theorem Store.tag_of_mem_share {tag : Nat} {entities : List E} {item : Shared E}
    (hitem : item ∈ Store.share tag entities) :
    tag ≤ item.tag ∧ item.tag < tag + entities.length := by
  obtain ⟨⟨e, n⟩, hmem, rfl⟩ := List.mem_map.1 hitem
  obtain ⟨hle, hlt, -⟩ := List.mem_zipIdx hmem
  exact ⟨hle, hlt⟩

namespace Ledger

/-- Tags are counted up, and each entity of the later collection was in the earlier one or got
    its tag in between. -/
structure Renews (before after : Ledger E) : Prop where
  nextTag : before.nextTag ≤ after.nextTag
  items : ∀ item ∈ after.collection.items, item ∈ before.collection.items ∨
    before.nextTag ≤ item.tag ∧ item.tag < after.nextTag

/-- All tags are below the next one. -/
def Tagged (l : Ledger E) : Prop := ∀ item ∈ l.collection.items, item.tag < l.nextTag

theorem Renews.tagged {before after : Ledger E} (hr : Renews before after)
    (ht : before.Tagged) : after.Tagged := by
  intro item hitem
  rcases hr.items item hitem with hold | ⟨-, hlt⟩
  · exact Nat.lt_of_lt_of_le (ht item hold) hr.nextTag
  · exact hlt

/-- If an event changes no tag and brings no entity, it renews nothing. -/
theorem renews_of_subset {before after : Ledger E} (htag : after.nextTag = before.nextTag)
    (hitems : after.collection.items ⊆ before.collection.items) : Renews before after :=
  ⟨Nat.le_of_eq htag.symm, fun _ hitem => .inl (hitems hitem)⟩

variable [Resource E]

/-- What an event brings gets new tags. -/
theorem renews_apply (l : Ledger E) (event : StoreEvent E) : l.Renews (l.apply event) := by
  cases event with
  | loadStarted => exact renews_of_subset rfl (List.Subset.refl _)
  | loadEnded token result =>
      rw [apply]
      by_cases hc : l.counts token = true
      · rw [if_pos hc]
        cases result with
        | ok entities =>
            exact ⟨Nat.le_add_right .., fun item hitem => .inr (Store.tag_of_mem_share hitem)⟩
        | error e => exact renews_of_subset rfl (List.Subset.refl _)
      · rw [if_neg hc]
        exact renews_of_subset rfl (List.Subset.refl _)
  | created result =>
      cases result with
      | ok e =>
          refine ⟨Nat.le_succ _, fun item hitem => ?_⟩
          rcases List.mem_append.1 hitem with hold | hnew
          · exact .inl hold
          · obtain rfl := List.mem_singleton.1 hnew
            exact .inr ⟨Nat.le_refl _, Nat.lt_succ_self _⟩
      | error e => exact renews_of_subset rfl (List.Subset.refl _)
  | replaced id result =>
      cases result with
      | ok e =>
          -- every entry of that identity gets the one new tag, and all others keep theirs
          refine ⟨Nat.le_succ _, fun item hitem => ?_⟩
          obtain ⟨old, hold, rfl⟩ := List.mem_map.1 hitem
          by_cases hid : Collection.hasId id old = true
          · rw [if_pos hid]
            exact .inr ⟨Nat.le_refl _, Nat.lt_succ_self _⟩
          · rw [if_neg hid]
            exact .inl hold
      | error e => exact renews_of_subset rfl (List.Subset.refl _)
  | removed id result =>
      cases result with
      | ok u => exact renews_of_subset rfl List.filter_sublist.subset
      | error e => exact renews_of_subset rfl (List.Subset.refl _)
  | errorCleared => exact renews_of_subset rfl (List.Subset.refl _)
  | reset => exact renews_of_subset rfl (List.nil_subset _)

end Ledger

namespace Desk

variable [Resource E]

theorem renews_move {d : Desk E} (hd : d.store.Live) (m : Move E) :
    d.store.ledger.Renews (d.move m).store.ledger := by
  have hevent : ∀ event, d.store.ledger.Renews (d.store.apply event).ledger := by
    intro event
    rw [Store.ledger_apply hd]
    exact Ledger.renews_apply d.store.ledger event
  cases m with
  | start load => exact hevent .loadStarted
  | finish load result =>
      rw [move]
      cases lookup? load d.waiting with
      | none => exact Ledger.renews_of_subset rfl (List.Subset.refl _)
      | some token => exact hevent (.loadEnded token result)
  | change c => exact hevent c.event
  | reset => exact hevent .reset

theorem tagged_play (ordering : LoadOrdering) (h : History E) :
    (play ordering h).store.ledger.Tagged := by
  induction h using List.reverseRecOn with
  | nil => exact List.forall_mem_nil _
  | append_singleton h m ih =>
      rw [play_concat]
      exact (renews_move (live_play ordering h) m).tagged ih

/-- **What a move brings is new**: it shares its tag with no entity before it. -/
theorem tag_ne_of_new (ordering : LoadOrdering) (h : History E) (m : Move E) {item : Shared E}
    (hitem : item ∈ (play ordering (h ++ [m])).store.state.items) :
    item ∈ (play ordering h).store.state.items ∨
      ∀ old ∈ (play ordering h).store.state.items, old.tag ≠ item.tag := by
  rw [play_concat] at hitem
  rcases (renews_move (live_play ordering h) m).items item hitem with hold | ⟨hnew, -⟩
  · exact .inl hold
  · exact .inr fun old hold =>
      Nat.ne_of_lt (Nat.lt_of_lt_of_le (tagged_play ordering h old hold) hnew)

end Desk

end ZoneConsole
