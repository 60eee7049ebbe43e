import Mathlib.Data.List.Basic
import ZoneConsole.Proofs.Store.History

/-!
# Completions in any order

Changes and deletions of different entities do not meet in a collection: each entity there is
left as the one completion has it that is about its identity, and what is created comes behind.
Loads that start or fail meet none of this, since they only touch the flags.

* **`StoreEvent.fate`** — what completions leave of an entity, without regard to their order.
* **`Ledger.entities_apply`**, **`Ledger.entities_run`** — the entities after one event and after
  a run.
* **`StoreEvent.fate_perm`** — the order does not matter for what is left.
* **`Ledger.SameFlags.run`** — the flags after a run are those after its flag events alone.
* **`completions_confluent`** — so any two orders of the same completions end alike.
-/

namespace ZoneConsole

variable {E : Type}

namespace StoreEvent

/-- Does the event touch nothing but the flags of a collection?  The start of a load does so, a
    load that fails, and the clearing of the error. -/
def isFlag : StoreEvent E → Bool
  | loadStarted | errorCleared | loadEnded _ (.error _) => true
  | loadEnded _ (.ok _) | created _ | replaced _ _ | removed _ _ | reset => false

/-- The identity that a successful change or deletion is about. -/
def addressed? : StoreEvent E → Option String
  | replaced id (.ok _) | removed id (.ok _) => some id
  | _ => none

/-- What is left of the entity that the event is about. -/
def left? : StoreEvent E → Option E
  | replaced _ (.ok e) => some e
  | _ => none

/-- The entity that a successful creation brings. -/
def brought? : StoreEvent E → Option E
  | created (.ok e) => some e
  | _ => none

variable [Resource E]

/-- The event is the success of an operation other than a load, and an entity that comes back for
    an identity has that identity. -/
inductive Completes : StoreEvent E → Prop
  | created (e : E) : Completes (created (.ok e))
  | replaced (e : E) : Completes (replaced (Resource.id e) (.ok e))
  | removed (id : String) : Completes (removed id (.ok ()))

/-- What one event leaves of an entity. -/
def effect (event : StoreEvent E) (item : E) : Option E :=
  if event.addressed? = some (Resource.id item) then event.left? else some item

/-- What events leave of an entity: what the first of them does that is about its identity. -/
def fate : List (StoreEvent E) → E → Option E
  | [], item => some item
  | event :: rest, item =>
    if event.addressed? = some (Resource.id item) then event.left? else fate rest item

/-- Completions on pairwise different identities, creations of entities with other identities, and
    events that only touch the flags. -/
structure Batch (events : List (StoreEvent E)) : Prop where
  completes : ∀ event ∈ events, event.isFlag = true ∨ event.Completes
  distinct : (events.filterMap addressed?).Nodup
  fresh : ∀ e ∈ events.filterMap brought?, Resource.id e ∉ events.filterMap addressed?

theorem Batch.perm {xs ys : List (StoreEvent E)} (h : Batch xs) (hperm : xs.Perm ys) :
    Batch ys where
  completes event hevent := h.completes event (hperm.mem_iff.2 hevent)
  distinct := (hperm.filterMap addressed?).nodup_iff.1 h.distinct
  fresh e he := by
    rw [← (hperm.filterMap addressed?).mem_iff]
    exact h.fresh e ((hperm.filterMap brought?).mem_iff.2 he)

theorem Batch.tail {event : StoreEvent E} {rest : List (StoreEvent E)}
    (h : Batch (event :: rest)) : Batch rest := by
  have hsub := List.sublist_cons_self event rest
  exact ⟨fun e he => h.completes e (hsub.subset he), h.distinct.sublist (hsub.filterMap addressed?),
    fun e he haddressed => h.fresh e ((hsub.filterMap brought?).subset he)
      ((hsub.filterMap addressed?).subset haddressed)⟩

omit [Resource E] in
/-- An event that only touches the flags is about no identity and brings nothing. -/
theorem addressed?_of_isFlag {event : StoreEvent E} (h : event.isFlag = true) :
    event.addressed? = none ∧ event.brought? = none := by
  cases event with
  | loadStarted | errorCleared | loadEnded _ _ => exact ⟨rfl, rfl⟩
  | created _ | replaced _ _ | removed _ _ | reset => cases h

/-- An entity that no event is about stays as it is. -/
theorem fate_of_not_mem {events : List (StoreEvent E)} {item : E}
    (h : Resource.id item ∉ events.filterMap addressed?) : fate events item = some item := by
  induction events with
  | nil => rfl
  | cons event rest ih =>
      have hother : event.addressed? ≠ some (Resource.id item) := by
        intro haddressed
        exact h (List.mem_filterMap.2 ⟨event, List.mem_cons_self .., haddressed⟩)
      rw [fate, if_neg hother]
      exact ih fun hmem => h (((List.sublist_cons_self event rest).filterMap _).subset hmem)

/-- **The order does not matter** for what is left of an entity, if each event is about another
    identity. -/
theorem fate_perm {xs ys : List (StoreEvent E)} (hperm : xs.Perm ys)
    (hdistinct : (xs.filterMap addressed?).Nodup) (item : E) : fate xs item = fate ys item := by
  induction hperm with
  | nil => rfl
  | cons event _ ih =>
      rw [fate, fate, ih (hdistinct.sublist ((List.sublist_cons_self event _).filterMap _))]
  | swap x y rest =>
      simp only [fate]
      split
      · rename_i hy
        split
        · -- both would be about the identity of the item
          rename_i hx
          rw [List.filterMap_cons_some hy, List.filterMap_cons_some hx] at hdistinct
          exact absurd (List.mem_cons_self ..) (List.nodup_cons.1 hdistinct).1
        · rfl
      · rfl
  | trans hperm _ ih ih' =>
      exact (ih hdistinct).trans (ih' ((hperm.filterMap _).nodup_iff.1 hdistinct))

/-- The events after one that is about an entity leave what it leaves. -/
theorem fate_cons {event : StoreEvent E} {rest : List (StoreEvent E)}
    (h : Batch (event :: rest)) (item : E) :
    fate (event :: rest) item = (event.effect item).bind (fate rest) := by
  rw [fate, effect]
  split
  · rename_i haddressed
    rcases h.completes event (List.mem_cons_self ..) with hflag | hcompletes
    · rw [(addressed?_of_isFlag hflag).1] at haddressed
      cases haddressed
    · cases hcompletes with
      | created e => cases haddressed
      | removed id => rfl
      | replaced e =>
          have hnot : Resource.id e ∉ rest.filterMap addressed? := (List.nodup_cons.1 h.distinct).1
          exact (fate_of_not_mem hnot).symm
  · rfl

end StoreEvent

open StoreEvent

namespace Ledger

/-- The entities of a collection in order, whichever answers brought them. -/
def entities (l : Ledger E) : List E := l.collection.items.map Shared.value

/-- The flags of a collection are the same, and so is what decides which loads count. -/
structure SameFlags (l l' : Ledger E) : Prop where
  loading : l.collection.loading = l'.collection.loading
  error : l.collection.error = l'.collection.error
  issued : l.issued = l'.issued
  ordering : l.ordering = l'.ordering

variable [Resource E]

/-- **The entities after one event**: what it leaves of those there were, and what it brings. -/
theorem entities_apply (l : Ledger E) {event : StoreEvent E}
    (h : event.isFlag = true ∨ event.Completes) :
    (l.apply event).entities = l.entities.filterMap event.effect ++ event.brought?.toList := by
  have hkept : event.addressed? = none → l.entities.filterMap event.effect = l.entities := by
    intro hnone
    have heffect : event.effect = some := by
      funext item
      rw [effect, hnone, if_neg nofun]
    rw [heffect, List.filterMap_some]
  rcases h with hflag | hcompletes
  · -- an event that sets flags addresses nobody and brings nothing
    obtain ⟨haddressed, hbrought⟩ := addressed?_of_isFlag hflag
    rw [hkept haddressed, hbrought, Option.toList_none, List.append_nil]
    cases event with
    | loadStarted | errorCleared => rfl
    | created _ | replaced _ _ | removed _ _ | reset => cases hflag
    | loadEnded token result =>
        cases result with
        | ok entities => cases hflag
        | error e =>
            rw [apply]
            split <;> rfl
  · cases hcompletes with
    | created e =>
        rw [hkept rfl]
        exact List.map_append ..
    -- a removal and a replacement are filters and maps of the entries, read here as effects
    | removed id =>
        have hentities : (l.apply (.removed id (.ok ()))).entities =
            (l.collection.items.filter fun item => !Collection.hasId id item).map
              Shared.value := rfl
        rw [hentities, ← List.filterMap_eq_filter, List.map_filterMap, entities, List.filterMap_map]
        refine (List.filterMap_congr fun item _ => ?_).trans (List.append_nil _).symm
        by_cases hid : Resource.id item.value = id
        · simp [effect, addressed?, left?, Collection.hasId, hid]
        · simp [effect, addressed?, Collection.hasId, hid, Ne.symm hid]
    | replaced e =>
        have hentities : (l.apply (.replaced (Resource.id e) (.ok e))).entities =
            (l.collection.items.map fun item =>
              if Collection.hasId (Resource.id e) item then ⟨l.nextTag, e⟩ else item).map
                Shared.value := rfl
        rw [hentities, List.map_map, ← List.filterMap_eq_map, entities, List.filterMap_map]
        refine (List.filterMap_congr fun item _ => ?_).trans (List.append_nil _).symm
        by_cases hid : Resource.id item.value = Resource.id e
        · simp [effect, addressed?, left?, Collection.hasId, hid]
        · simp [effect, addressed?, Collection.hasId, hid, Ne.symm hid]

/-- **The entities after a batch** of events: what they leave of those there were, and behind
    them what was created, in the order of the events. -/
theorem entities_run (l : Ledger E) {events : List (StoreEvent E)} (h : Batch events) :
    (l.run events).entities = l.entities.filterMap (fate events) ++ events.filterMap brought? := by
  induction events generalizing l with
  | nil =>
      rw [List.filterMap_nil, List.append_nil]
      exact List.filterMap_some.symm
  | cons event rest ih =>
      -- nothing that follows is about the entity that a creation brings
      have hbrought : event.brought?.toList.filterMap (fate rest) = event.brought?.toList := by
        cases hb : event.brought? with
        | none => rfl
        | some e =>
            have hfresh : Resource.id e ∉ rest.filterMap addressed? := by
              intro hmem
              refine h.fresh e ?_ (((List.sublist_cons_self event rest).filterMap _).subset hmem)
              rw [List.filterMap_cons_some hb]
              exact List.mem_cons_self ..
            simp [fate_of_not_mem hfresh]
      have hcons : (event :: rest).filterMap brought? =
          event.brought?.toList ++ rest.filterMap brought? := by
        cases hb : event.brought? with
        | none => rw [List.filterMap_cons_none hb]; rfl
        | some e => rw [List.filterMap_cons_some hb]; rfl
      have hfirst := entities_apply l (h.completes event (List.mem_cons_self ..))
      rw [run, ih (l.apply event) h.tail, hfirst, List.filterMap_append, List.filterMap_filterMap,
        hbrought, hcons, List.append_assoc,
        List.filterMap_congr fun item _ => (fate_cons h item).symm]

/-- A completion leaves the flags as they are. -/
theorem sameFlags_apply {event : StoreEvent E} (h : event.Completes) (l : Ledger E) :
    (l.apply event).SameFlags l := by
  cases h <;> exact ⟨rfl, rfl, rfl, rfl⟩

/-- What only touches the flags makes of the same flags the same. -/
theorem SameFlags.apply {l l' : Ledger E} (h : l.SameFlags l') {event : StoreEvent E}
    (hflag : event.isFlag = true) : (l.apply event).SameFlags (l'.apply event) := by
  obtain ⟨hloading, herror, hissued, hordering⟩ := h
  cases event with
  | loadStarted => exact ⟨rfl, rfl, congrArg (· + 1) hissued, hordering⟩
  | errorCleared => exact ⟨hloading, rfl, hissued, hordering⟩
  | created _ | replaced _ _ | removed _ _ | reset => cases hflag
  | loadEnded token result =>
      cases result with
      | ok entities => cases hflag
      | error e =>
          have hcounts : l.counts token = l'.counts token := by
            rw [counts, counts, hissued, hordering]
          rw [Ledger.apply, Ledger.apply, hcounts]
          split
          · exact ⟨rfl, rfl, hissued, hordering⟩
          · exact ⟨hloading, herror, hissued, hordering⟩

/-- **The flags after a run** are those after the events that only touch them. -/
theorem SameFlags.run {l l' : Ledger E} (h : l.SameFlags l') {events : List (StoreEvent E)}
    (hevents : ∀ event ∈ events, event.isFlag = true ∨ event.Completes) :
    (l.run events).SameFlags (l'.run (events.filter isFlag)) := by
  induction events generalizing l l' with
  | nil => exact h
  | cons event rest ih =>
      have hrest : ∀ event ∈ rest, event.isFlag = true ∨ event.Completes :=
        fun e he => hevents e (List.mem_cons_of_mem _ he)
      cases hflag : event.isFlag with
      | true =>
          rw [List.filter_cons_of_pos hflag]
          exact ih (h.apply hflag) hrest
      | false =>
          have hcompletes : event.Completes :=
            (hevents event (List.mem_cons_self ..)).resolve_left (by simp [hflag])
          obtain ⟨hloading, herror, hissued, hordering⟩ := sameFlags_apply hcompletes l
          rw [List.filter_cons_of_neg (by simp [hflag])]
          exact ih ⟨hloading.trans h.loading, herror.trans h.error, hissued.trans h.issued,
            hordering.trans h.ordering⟩ hrest

end Ledger

/-- With one element at most there is one order. -/
theorem eq_of_perm_of_length_le_one {α : Type} {xs ys : List α} (hperm : xs.Perm ys)
    (hone : xs.length ≤ 1) : xs = ys := by
  cases xs with
  | nil => exact hperm.nil_eq
  | cons x rest =>
      obtain rfl : rest = [] := List.eq_nil_of_length_eq_zero (by simpa using hone)
      exact hperm.singleton_eq

namespace Store

/-- The entities of a store in order, whichever answers brought them. -/
def entities (s : Store E) : List E := s.state.items.map Shared.value

end Store

/-- **Completions may come in any order.**  Take any store, successful completions of changes,
    state transitions and deletions on pairwise different identities, and of creations of entities
    with none of these, with starts of loads, loads that fail and clearings of the error in
    between.  In every order that keeps the latter in theirs, what is left of the entities that
    were there is the same, and so are the flags; only what was created stands in the order of the
    completions, so that with one creation at most all is the same. -/
theorem completions_confluent [Resource E] {s : Store E} (hlive : s.Live)
    {xs ys : List (StoreEvent E)} (hbatch : Batch xs) (hperm : xs.Perm ys)
    (hflags : xs.filter isFlag = ys.filter isFlag) :
    (s.run xs).entities = s.entities.filterMap (fate xs) ++ xs.filterMap brought? ∧
    (s.run ys).entities = s.entities.filterMap (fate xs) ++ ys.filterMap brought? ∧
    (xs.filterMap brought?).Perm (ys.filterMap brought?) ∧
    ((xs.filterMap brought?).length ≤ 1 → (s.run xs).entities = (s.run ys).entities) ∧
    (s.run xs).state.loading = (s.run ys).state.loading ∧
    (s.run xs).state.error = (s.run ys).state.error := by
  -- each order has the closed form of its batch, and the fate of an entity is that of the other
  have hxs : (s.run xs).entities = s.entities.filterMap (fate xs) ++ xs.filterMap brought? := by
    have hrun := s.ledger.entities_run hbatch
    rw [← Store.ledger_run hlive] at hrun
    exact hrun
  have hys : (s.run ys).entities = s.entities.filterMap (fate xs) ++ ys.filterMap brought? := by
    have hrun := s.ledger.entities_run (hbatch.perm hperm)
    rw [← Store.ledger_run hlive,
      List.filterMap_congr fun item _ => (fate_perm hperm hbatch.distinct item).symm] at hrun
    exact hrun
  have hbrought := hperm.filterMap brought?
  refine ⟨hxs, hys, hbrought, fun hone => ?_, ?_⟩
  · rw [hxs, hys, eq_of_perm_of_length_le_one hbrought hone]
  · have hsame : s.ledger.SameFlags s.ledger := ⟨rfl, rfl, rfl, rfl⟩
    have hrunX := hsame.run hbatch.completes
    have hrunY := hsame.run (hbatch.perm hperm).completes
    rw [← hflags] at hrunY
    rw [← Store.ledger_run hlive] at hrunX hrunY
    exact ⟨hrunX.loading.trans hrunY.loading.symm, hrunX.error.trans hrunY.error.symm⟩

/-- Zones that are deleted, connected and created while a load starts. -/
def zoneChanges : List (StoreEvent Zone) :=
  [.removed "z2" (.ok ()), .replaced "z1" (.ok (Zone.ofId "z1")), .loadStarted,
    .created (.ok (Zone.ofId "z4"))]

theorem batch_zoneChanges : Batch zoneChanges where
  completes := by
    simp only [zoneChanges, List.forall_mem_cons]
    exact ⟨.inr (.removed "z2"), .inr (.replaced (Zone.ofId "z1")), .inl rfl, .inr (.created _),
      List.forall_mem_nil _⟩
  distinct := by decide
  fresh := by
    intro e he
    obtain rfl : e = Zone.ofId "z4" := List.mem_singleton.1 he
    decide

/-- They may as well come the other way round. -/
theorem completions_confluent_reversed :
    let s := (Store.make .lastCompletion : Store Zone).run
      [.loadEnded 0 (.ok [Zone.ofId "z1", Zone.ofId "z2", Zone.ofId "z3"])]
    s.Live ∧ Batch zoneChanges ∧ zoneChanges.Perm zoneChanges.reverse ∧
      zoneChanges.filter isFlag = zoneChanges.reverse.filter isFlag ∧
      (s.run zoneChanges).entities = (s.run zoneChanges.reverse).entities := by
  intro s
  have hlive : s.Live := Store.live_apply (Store.live_make .lastCompletion) _
  have hperm := (List.reverse_perm zoneChanges).symm
  have hends := completions_confluent hlive batch_zoneChanges hperm rfl
  exact ⟨hlive, batch_zoneChanges, hperm, rfl, hends.2.2.2.1 (Nat.le_refl 1)⟩

end ZoneConsole
