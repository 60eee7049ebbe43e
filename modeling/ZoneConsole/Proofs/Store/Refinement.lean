import ZoneConsole.Proofs.Store.Effective
import ZoneConsole.Proofs.Store.Identity
import ZoneConsole.Proofs.Store.OrderedMap
import ZoneConsole.Proofs.Store.Tags

/-!
# A store is an ordered map

A collection is a list that is searched from its beginning.  If no applied list names an identity
twice, nothing is created that is there already and changed entities keep their identity, then
the list is as good as a map by identity that keeps the order of insertion.

* **`Collection.Represents`** — a collection has the keys of a map, in their order, and finds
  under each of them what the map has there.
* **`Effect`** — what a move does to the entities, with what it makes of a collection and of a
  map.  `Desk.items_concat` says that moves do nothing else, and all that follows is by cases on
  effects.
* **`History.asMap`** — the map that a history makes, move after move.
* **`Desk.represents_play`** — a store is its map after every orderly history.
* **`refines_orderedMap`** — that, the last write of each identity, and what stays the very same.
-/

namespace ZoneConsole

variable {E : Type} [Resource E]

/-! ### Lookups in a collection -/

namespace Collection

/-- A list that is applied is looked up from its beginning. -/
theorem get?_loaded_share (c : Collection E) (tag : Nat) (entities : List E) (id : String) :
    ((c.loaded (Store.share tag entities)).get? id).map Shared.value =
      entities.find? (Resource.id · = id) := by
  have hvalues : (Store.share tag entities).map Shared.value = entities := by
    rw [Store.share, List.map_map]
    exact List.zipIdx_map_fst ..
  have hfind := List.find?_map (f := Shared.value) (p := fun e : E => Resource.id e = id)
    (l := Store.share tag entities)
  rw [hvalues] at hfind
  exact hfind.symm

theorem get?_appended (c : Collection E) (entity : Shared E) (id : String) :
    (c.appended entity).get? id =
      (c.get? id).or (if Resource.id entity.value = id then some entity else none) := by
  have hlast : [entity].find? (hasId id) =
      if Resource.id entity.value = id then some entity else none := by
    by_cases hid : Resource.id entity.value = id <;> simp [hasId, hid]
  rw [get?, appended, List.find?_append, hlast]
  rfl

/-- An entity that keeps the identity it was asked for is found under it, if one was before. -/
theorem get?_replaced (c : Collection E) {id : String} {entity : Shared E}
    (hid : Resource.id entity.value = id) (j : String) :
    (c.replaced id entity).get? j =
      if j = id then (c.get? j).map fun _ => entity else c.get? j := by
  have hkept : hasId j ∘ (fun item => if hasId id item then entity else item) = hasId j := by
    funext item
    by_cases hitem : Resource.id item.value = id <;> simp [hasId, hitem, hid]
  rw [get?, replaced, List.find?_map, hkept]
  by_cases hj : j = id
  · -- what was found is what is replaced
    rw [if_pos hj]
    refine Option.map_congr fun item hitem => ?_
    have hfound : hasId id item = true := hj ▸ List.find?_some hitem
    rw [if_pos hfound]
  · rw [if_neg hj]
    refine (Option.map_congr fun item hitem => ?_).trans Option.map_id'
    have hfound : Resource.id item.value = j := by simpa [hasId] using List.find?_some hitem
    have hother : ¬ hasId id item = true := by simp [hasId, hfound, hj]
    exact if_neg hother

theorem get?_without (c : Collection E) (id j : String) :
    (c.without id).get? j = if j = id then none else c.get? j := by
  rw [get?, without, List.find?_filter]
  by_cases hj : j = id
  · rw [if_pos hj, List.find?_eq_none]
    intro item _
    simp [hasId, hj]
  · rw [if_neg hj]
    refine congrArg (List.find? · c.items) (funext fun item => ?_)
    by_cases hitem : Resource.id item.value = j
    · simp [hasId, hitem, hj]
    · simp [hasId, hitem]

/-- Where identities are unique, an entity is found under its own one. -/
theorem get?_of_mem {c : Collection E} (hn : c.ids.Nodup) {item : Shared E}
    (hitem : item ∈ c.items) : c.get? (Resource.id item.value) = some item := by
  have hsome : (c.get? (Resource.id item.value)).isSome = true :=
    List.find?_isSome.2 ⟨item, hitem, by simp [hasId]⟩
  obtain ⟨found, hfound⟩ := Option.isSome_iff_exists.1 hsome
  have hid : Resource.id found.value = Resource.id item.value := by
    simpa [hasId] using List.find?_some hfound
  rw [hfound, List.inj_on_of_nodup_map hn (List.mem_of_find?_eq_some hfound) hitem hid]

/-- The collection has the keys of the map, in their order, and finds what the map has. -/
structure Represents (c : Collection E) (m : OrderedMap String E) : Prop where
  keys : c.ids = m.keys
  lookup : ∀ id, (c.get? id).map Shared.value = m.lookup id

namespace Represents

variable {c : Collection E} {m : OrderedMap String E}

/-- The values stand in the collection as in the map. -/
theorem values (h : c.Represents m) : c.items.map Shared.value = m.values := by
  -- the keys of a map are unique, so each entity is found under its own identity
  have hn : c.ids.Nodup := h.keys ▸ m.nodup
  have hfound : ∀ item ∈ c.items, m.lookup (Resource.id item.value) = some item.value := by
    intro item hitem
    rw [← h.lookup, get?_of_mem hn hitem]
    rfl
  rw [OrderedMap.values, ← h.keys, ids, List.filterMap_map, ← List.filterMap_eq_map]
  exact List.filterMap_congr fun item hitem => (hfound item hitem).symm

theorem empty : (Collection.empty : Collection E).Represents .empty := ⟨rfl, fun _ => rfl⟩

/-- Flags do not matter. -/
theorem of_items {c' : Collection E} (h : c.Represents m) (hitems : c'.items = c.items) :
    c'.Represents m := by
  refine ⟨?_, fun id => ?_⟩
  · rw [ids, hitems]
    exact h.keys
  · rw [get?, hitems]
    exact h.lookup id

/-- A list with distinct identities replaces everything, in its own order. -/
theorem loaded (c : Collection E) (tag : Nat) {entities : List E}
    (hids : (entities.map Resource.id).Nodup) :
    (c.loaded (Store.share tag entities)).Represents
      (.ofList (entities.map fun e => (Resource.id e, e))) := by
  have hkeys : (entities.map fun e => (Resource.id e, e)).map (·.1) = entities.map Resource.id :=
    List.map_map ..
  refine ⟨?_, fun id => ?_⟩
  · rw [ids_loaded_share, OrderedMap.keys_ofList (hkeys ▸ hids), hkeys]
  · rw [get?_loaded_share, OrderedMap.lookup_ofList, List.find?_map, Option.map_map]
    exact Option.map_id'.symm

/-- An entity that is not there yet is inserted last. -/
theorem appended (h : c.Represents m) {entity : Shared E}
    (hnew : Resource.id entity.value ∉ c.ids) :
    (c.appended entity).Represents (m.insertLast (Resource.id entity.value) entity.value) := by
  refine ⟨?_, fun id => ?_⟩
  · rw [ids_appended, OrderedMap.keys_insertLast (h.keys ▸ hnew), h.keys]
  · rw [get?_appended, OrderedMap.lookup_insertLast, ← h.lookup]
    by_cases hid : Resource.id entity.value = id
    · cases c.get? id <;> simp [hid]
    · simp [hid, Ne.symm hid]

/-- An entity is overwritten in its place, if it is there. -/
theorem replaced (h : c.Represents m) {id : String} {entity : Shared E}
    (hid : Resource.id entity.value = id) :
    (c.replaced id entity).Represents (m.overwrite id entity.value) := by
  refine ⟨(ids_replaced c id entity hid).trans h.keys, fun j => ?_⟩
  rw [get?_replaced c hid]
  by_cases hj : j = id
  · simp only [OrderedMap.overwrite, hj, if_true, ← h.lookup]
    cases c.get? id <;> rfl
  · simp [OrderedMap.overwrite, hj, h.lookup]

/-- An entity is deleted. -/
theorem without (h : c.Represents m) (id : String) :
    (c.without id).Represents (m.erase id) := by
  refine ⟨?_, fun j => ?_⟩
  · rw [ids_without, h.keys]
    rfl
  · rw [get?_without]
    by_cases hj : j = id
    · simp [OrderedMap.erase, hj]
    · simp [OrderedMap.erase, hj, h.lookup]

end Represents

end Collection

/-! ### Effects -/

/-- What a move does to the entities of a collection. -/
inductive Effect (E : Type)
  | nothing
  | listed (entities : List E)
  | created (entity : E)
  | replaced (id : String) (entity : E)
  | removed (id : String)
  | emptied

namespace Effect

/-- What an effect makes of a collection, whose next entity gets the tag. -/
def onCollection (tag : Nat) (c : Collection E) : Effect E → Collection E
  | nothing => c
  | listed entities => c.loaded (Store.share tag entities)
  | created entity => c.appended ⟨tag, entity⟩
  | replaced id entity => c.replaced id ⟨tag, entity⟩
  | removed id => c.without id
  | emptied => .empty

/-- What an effect makes of a map.  A list replaces everything in its own order, a creation comes
    last, and a changed entity is overwritten in its place. -/
def onMap (m : OrderedMap String E) : Effect E → OrderedMap String E
  | nothing => m
  | listed entities => .ofList (entities.map fun e => (Resource.id e, e))
  | created entity => m.insertLast (Resource.id entity) entity
  | replaced id entity => m.overwrite id entity
  | removed id => m.erase id
  | emptied => .empty

/-- What is asked of an effect: a list names no identity twice, what is created is not there, and
    a changed entity keeps the identity that was asked for. -/
def Orderly (c : Collection E) : Effect E → Prop
  | listed entities => (entities.map Resource.id).Nodup
  | created entity => Resource.id entity ∉ c.ids
  | replaced id entity => Resource.id entity = id
  | nothing | removed _ | emptied => True

/-- Does the effect address an identity? -/
def Addresses (id : String) : Effect E → Prop
  | nothing => False
  | listed _ | emptied => True
  | created entity => Resource.id entity = id
  | replaced i _ | removed i => i = id

/-- Does the effect write what a map has under an identity?  A changed entity is written only if
    one is there. -/
def Writes (m : OrderedMap String E) (id : String) : Effect E → Prop
  | replaced i _ => i = id ∧ id ∈ m.keys
  | effect => effect.Addresses id

/-- What the effect writes under an identity: nothing if it is removed, reset away or missing from
    a list. -/
def written? (id : String) : Effect E → Option E
  | listed entities => entities.find? (Resource.id · = id)
  | created entity | replaced _ entity => some entity
  | nothing | removed _ | emptied => none

variable {c : Collection E} {m : OrderedMap String E} {effect : Effect E} {id : String}

/-- **An effect does to a collection what it does to its map.** -/
theorem represents (hr : c.Represents m) (ho : effect.Orderly c) (tag : Nat) :
    (effect.onCollection tag c).Represents (effect.onMap m) := by
  cases effect with
  | nothing => exact hr
  | listed entities => exact .loaded c tag ho
  | created entity => exact hr.appended ho
  | replaced id entity => exact hr.replaced ho
  | removed id => exact hr.without id
  | emptied => exact .empty

/-- What is found under an identity that is not addressed is the very same. -/
theorem get?_of_not_addresses (ho : effect.Orderly c) (hid : ¬ effect.Addresses id) (tag : Nat) :
    (effect.onCollection tag c).get? id = c.get? id := by
  cases effect with
  | nothing => rfl
  | listed entities => exact absurd trivial hid
  | created entity =>
      have hother : ¬ Resource.id entity = id := hid
      rw [onCollection, Collection.get?_appended, if_neg hother, Option.or_none]
  | replaced i entity =>
      have hkept : Resource.id (Shared.value ⟨tag, entity⟩) = i := ho
      have hother : ¬ id = i := Ne.symm hid
      rw [onCollection, Collection.get?_replaced c hkept, if_neg hother]
  | removed i =>
      have hother : ¬ id = i := Ne.symm hid
      rw [onCollection, Collection.get?_without, if_neg hother]
  | emptied => exact absurd trivial hid

/-- What is written is looked up after that. -/
theorem lookup_of_writes (hr : c.Represents m) (ho : effect.Orderly c) (hw : effect.Writes m id) :
    (effect.onMap m).lookup id = effect.written? id := by
  cases effect with
  | nothing => exact hw.elim
  | listed entities =>
      rw [onMap, OrderedMap.lookup_ofList, List.find?_map, Option.map_map]
      exact Option.map_id'
  | created entity =>
      obtain rfl : Resource.id entity = id := hw
      -- it comes last, but it is not hidden by an earlier one
      have hnew : Resource.id entity ∉ m.keys := hr.keys ▸ ho
      rw [onMap, OrderedMap.lookup_insertLast, OrderedMap.lookup_eq_none.2 hnew, if_pos rfl]
      rfl
  | replaced i entity =>
      obtain ⟨rfl, hthere⟩ := hw
      obtain ⟨old, hold⟩ := Option.isSome_iff_exists.1 ((m.mem_keys i).1 hthere)
      simp [onMap, OrderedMap.overwrite, hold, written?]
  | removed i =>
      obtain rfl : i = id := hw
      exact if_pos rfl
  | emptied => rfl

/-- What is not written is looked up as before. -/
theorem lookup_of_not_writes (hw : ¬ effect.Writes m id) :
    (effect.onMap m).lookup id = m.lookup id := by
  cases effect with
  | nothing => rfl
  | listed entities => exact absurd trivial hw
  | created entity =>
      have hother : ¬ id = Resource.id entity := Ne.symm hw
      rw [onMap, OrderedMap.lookup_insertLast, if_neg hother, Option.or_none]
  | replaced i entity =>
      by_cases hi : id = i
      · have habsent : id ∉ m.keys := fun hthere => hw ⟨hi.symm, hthere⟩
        simp [onMap, OrderedMap.overwrite, ← hi, OrderedMap.lookup_eq_none.2 habsent]
      · simp [onMap, OrderedMap.overwrite, hi]
  | removed i => exact if_neg (Ne.symm hw)
  | emptied => exact absurd trivial hw

end Effect

/-! ### Histories -/

/-- The effect of a move: that of an answer, if it is no failure and, for a list, if it is
    effective. -/
def Move.effect (ordering : LoadOrdering) (seen : History E) : Move E → Effect E
  | .finish load (.ok entities) =>
    if seen.Effective ordering load then .listed entities else .nothing
  | .change (.created (.ok entity)) => .created entity
  | .change (.replaced id (.ok entity)) => .replaced id entity
  | .change (.removed id (.ok ())) => .removed id
  | .reset => .emptied
  | _ => .nothing

namespace History

/-- What the rest of a history makes of a map. -/
def mapFrom (ordering : LoadOrdering) (seen : History E) (m : OrderedMap String E) :
    History E → OrderedMap String E
  | [] => m
  | move :: rest => mapFrom ordering (seen ++ [move]) ((move.effect ordering seen).onMap m) rest

/-- The map that a history makes. -/
def asMap (ordering : LoadOrdering) (h : History E) : OrderedMap String E :=
  mapFrom ordering [] .empty h

theorem mapFrom_concat (ordering : LoadOrdering) (seen : History E) (m : OrderedMap String E)
    (h : History E) (move : Move E) :
    mapFrom ordering seen m (h ++ [move]) =
      (move.effect ordering (seen ++ h)).onMap (mapFrom ordering seen m h) := by
  induction h generalizing seen m with
  | nil => rw [List.append_nil]; rfl
  | cons first rest ih =>
      rw [List.cons_append, mapFrom, ih, mapFrom, List.append_assoc]
      rfl

theorem asMap_concat (ordering : LoadOrdering) (h : History E) (move : Move E) :
    asMap ordering (h ++ [move]) = (move.effect ordering h).onMap (asMap ordering h) :=
  mapFrom_concat ordering [] .empty h move

/-- Every effect is orderly where it happens. -/
def Orderly (ordering : LoadOrdering) (h : History E) : Prop :=
  ∀ seen m rest, h = seen ++ m :: rest →
    (m.effect ordering seen).Orderly (Desk.play ordering seen).store.state

theorem Orderly.of_append {ordering : LoadOrdering} {seen rest : History E}
    (ho : Orderly ordering (seen ++ rest)) : Orderly ordering seen := by
  intro before m after hsplit
  refine ho before m (after ++ rest) ?_
  rw [hsplit, List.append_assoc]
  rfl

theorem orderly_concat {ordering : LoadOrdering} {h : History E} {m : Move E} :
    Orderly ordering (h ++ [m]) ↔ Orderly ordering h ∧
      (m.effect ordering h).Orderly (Desk.play ordering h).store.state := by
  constructor
  · intro ho
    exact ⟨ho.of_append, ho h m [] rfl⟩
  · rintro ⟨ho, hm⟩ seen x rest hsplit
    rcases concat_eq_append_cons.1 hsplit with ⟨rfl, rfl, -⟩ | ⟨earlier, -, hh⟩
    · exact hm
    · exact ho seen x earlier hh

end History

namespace Desk

variable {ordering : LoadOrdering} {h : History E}

/-- **One move** does to the entities what its effect does. -/
theorem items_concat (ordering : LoadOrdering) (h : History E) (m : Move E) :
    (play ordering (h ++ [m])).store.ledger.collection.items =
      ((m.effect ordering h).onCollection (play ordering h).store.nextTag
        (play ordering h).store.state).items := by
  cases m with
  | start load => rw [ledger_start]; rfl
  | reset => rw [ledger_reset]; rfl
  | finish load result =>
      rw [ledger_finish]
      cases result with
      | ok entities =>
          by_cases heffective : h.Effective ordering load
          · rw [if_pos heffective, Move.effect, if_pos heffective]
            rfl
          · rw [if_neg heffective, Move.effect, if_neg heffective]
            rfl
      | error e => split <;> rfl
  | change c =>
      rw [ledger_change]
      cases c with
      | errorCleared => rfl
      | created result => cases result <;> rfl
      | replaced id result => cases result <;> rfl
      | removed id result => cases result <;> rfl

/-- **A store is its map** after every orderly history. -/
theorem represents_play (ho : h.Orderly ordering) :
    (play ordering h).store.state.Represents (h.asMap ordering) := by
  induction h using List.reverseRecOn with
  | nil => exact .empty
  | append_singleton h m ih =>
      obtain ⟨hh, hm⟩ := History.orderly_concat.1 ho
      rw [History.asMap_concat]
      exact (Effect.represents (ih hh) hm _).of_items (items_concat ordering h m)

/-- **What is found is the last write** of the identity. -/
theorem get?_eq_iff (ho : h.Orderly ordering) (id : String) (e : E) :
    ((play ordering h).store.state.get? id).map Shared.value = some e ↔
      ∃ seen m, h.LastOf (fun seen m => (m.effect ordering seen).Writes (seen.asMap ordering) id)
        seen m ∧ (m.effect ordering seen).written? id = some e := by
  rw [(represents_play ho).lookup]
  refine History.eq_iff_lastOf _ (fun h => (h.asMap ordering).lookup id)
    (fun seen m => (m.effect ordering seen).written? id) ?_ ?_ nofun
  · intro seen m rest hsplit hwrites
    have hm := ho seen m rest hsplit
    rw [hsplit] at ho
    rw [History.asMap_concat]
    exact Effect.lookup_of_writes (represents_play ho.of_append) hm hwrites
  · intro seen m rest _ hother
    rw [History.asMap_concat]
    exact Effect.lookup_of_not_writes hother

end Desk

/-- **A store refines a map that keeps the order of insertion.**  At every point of an orderly
    history, the collection has the keys and the values of the map that the history makes, in
    their order; under each identity stands what its last write has brought.  And whatever happens
    next, an entity under an identity that is not addressed is the very same before and after it,
    and an entity that was not there before is none of the earlier ones. -/
theorem refines_orderedMap (ordering : LoadOrdering) (h : History E) (ho : h.Orderly ordering) :
    ∀ seen rest, h = seen ++ rest →
      ((Desk.play ordering seen).store.state.ids = (seen.asMap ordering).keys ∧
        (Desk.play ordering seen).store.state.items.map Shared.value =
          (seen.asMap ordering).values) ∧
      (∀ id e, ((Desk.play ordering seen).store.state.get? id).map Shared.value = some e ↔
        ∃ before m, seen.LastOf
          (fun before m => (m.effect ordering before).Writes (before.asMap ordering) id) before m ∧
          (m.effect ordering before).written? id = some e) ∧
      ∀ m after, rest = m :: after →
        (∀ id, ¬ (m.effect ordering seen).Addresses id →
          (Desk.play ordering (seen ++ [m])).store.state.get? id =
            (Desk.play ordering seen).store.state.get? id) ∧
        ∀ item ∈ (Desk.play ordering (seen ++ [m])).store.state.items,
          item ∈ (Desk.play ordering seen).store.state.items ∨
            ∀ old ∈ (Desk.play ordering seen).store.state.items, old.tag ≠ item.tag := by
  rintro seen rest rfl
  have hseen : History.Orderly ordering seen := ho.of_append
  have hr := Desk.represents_play hseen
  refine ⟨⟨hr.keys, hr.values⟩, Desk.get?_eq_iff hseen, ?_⟩
  rintro m after rfl
  have hm := ho seen m after rfl
  -- a move writes at most one identity or all of them, and whatever it writes gets a new tag
  constructor
  · intro id hid
    refine Eq.trans ?_ (Effect.get?_of_not_addresses hm hid (Desk.play ordering seen).store.nextTag)
    exact congrArg (List.find? _) (Desk.items_concat ordering seen m)
  · intro item hitem
    exact Desk.tag_ne_of_new ordering seen m hitem

/-- Two zones are listed and a third one is created; then the first one is changed and the second
    one is removed, while another list fails. -/
def tended : History Zone :=
  [.start "first", .finish "first" (.ok [.ofId "z1", .ofId "z2"]),
    .change (.created (.ok (.ofId "z3"))),
    .start "second", .change (.replaced "z1" (.ok (.ofId "z1"))),
    .finish "second" (.error (.undecodable "no list" "")), .change (.removed "z2" (.ok ()))]

/-- The changed zone keeps its place with a new tag, and the created one is the very same to the
    end. -/
theorem tended_refines :
    tended.Orderly .lastCompletion ∧
      (Desk.play .lastCompletion tended).store.state.ids = (tended.asMap .lastCompletion).keys ∧
      (Desk.play .lastCompletion tended).store.state.ids = ["z1", "z3"] ∧
      (Desk.play .lastCompletion tended).store.state.items.map Shared.tag = [3, 2] ∧
      (Desk.play .lastCompletion tended).store.state.get? "z3" =
        (Desk.play .lastCompletion (tended.take 6)).store.state.get? "z3" := by
  have horderly : tended.Orderly .lastCompletion := by
    have hnone : History.Orderly .lastCompletion ([] : History Zone) := by
      intro seen m rest hsplit
      simp at hsplit
    have hmore {h : History Zone} (m : Move Zone) (ho : h.Orderly .lastCompletion)
        (hm : (m.effect .lastCompletion h).Orderly (Desk.play .lastCompletion h).store.state) :
        History.Orderly .lastCompletion (h ++ [m]) :=
      History.orderly_concat.2 ⟨ho, hm⟩
    have hdistinct : ([Zone.ofId "z1", Zone.ofId "z2"].map Resource.id).Nodup := by decide
    have hlisted := hmore (.finish "first" (.ok [.ofId "z1", .ofId "z2"]))
      (hmore (.start "first") hnone trivial) hdistinct
    have hnew : Resource.id (Zone.ofId "z3") ∉ (Desk.play .lastCompletion
        (tended.take 2)).store.state.ids := by decide +kernel
    have hcreated := hmore (.change (.created (.ok (.ofId "z3")))) hlisted hnew
    have hchanged := hmore (.change (.replaced "z1" (.ok (.ofId "z1"))))
      (hmore (.start "second") hcreated trivial) rfl
    exact hmore (.change (.removed "z2" (.ok ())))
      (hmore (.finish "second" (.error (.undecodable "no list" ""))) hchanged trivial) trivial
  have hrefines := refines_orderedMap .lastCompletion tended horderly
  refine ⟨horderly, (hrefines tended [] rfl).1.1, by decide +kernel, by decide +kernel, ?_⟩
  have hother : ¬ "z2" = "z3" := by decide
  exact ((hrefines (tended.take 6) (tended.drop 6) rfl).2.2 _ [] rfl).1 "z3" hother

end ZoneConsole
