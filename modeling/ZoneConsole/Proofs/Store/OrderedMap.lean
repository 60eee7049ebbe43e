import Mathlib.Data.List.Nodup

/-!
# Maps that keep the order of insertion

A map with its keys in the order in which they were inserted.  It knows nothing of lists that are
searched: a key is looked up by a function, and the keys stand apart in their order.

* **`OrderedMap`** — keys without repetition, and a value for just these.
* **`OrderedMap.insertLast`**, **`OrderedMap.overwrite`**, **`OrderedMap.erase`**,
  **`OrderedMap.ofList`** — each with what it makes of the keys and of a lookup.
-/

namespace ZoneConsole

/-- Keys in the order of their insertion, with a value for each of them and for no other one. -/
structure OrderedMap (K V : Type) where
  keys : List K
  lookup : K → Option V
  nodup : keys.Nodup
  mem_keys : ∀ k, k ∈ keys ↔ (lookup k).isSome = true

namespace OrderedMap

variable {K V : Type} {m : OrderedMap K V}

/-- The values in the order of their keys. -/
def values (m : OrderedMap K V) : List V := m.keys.filterMap m.lookup

theorem lookup_eq_none {k : K} : m.lookup k = none ↔ k ∉ m.keys := by
  rw [m.mem_keys, Bool.not_eq_true, Option.isSome_eq_false_iff, Option.isNone_iff_eq_none]

/-- The map of nothing. -/
def empty : OrderedMap K V := ⟨[], fun _ => none, .nil, by simp⟩

variable [DecidableEq K]

/-- A key that is not there comes last; one that is there keeps its value. -/
def insertLast (m : OrderedMap K V) (k : K) (v : V) : OrderedMap K V :=
  if hk : k ∈ m.keys then m else
    { keys := m.keys ++ [k]
      lookup := fun j => if j = k then some v else m.lookup j
      nodup := by
        rw [List.nodup_append]
        refine ⟨m.nodup, List.nodup_singleton k, fun x hx y hy hxy => hk ?_⟩
        rw [List.mem_singleton] at hy
        exact hy ▸ hxy ▸ hx
      mem_keys := by
        intro j
        by_cases hj : j = k <;> simp [hj, m.mem_keys] }

/-- A key that is there takes a new value at its old place; nothing is inserted. -/
def overwrite (m : OrderedMap K V) (k : K) (v : V) : OrderedMap K V where
  keys := m.keys
  lookup j := if j = k then (m.lookup k).map fun _ => v else m.lookup j
  nodup := m.nodup
  mem_keys := by
    intro j
    by_cases hj : j = k <;> simp [hj, m.mem_keys]

/-- A key is taken out; the others keep their order. -/
def erase (m : OrderedMap K V) (k : K) : OrderedMap K V where
  keys := m.keys.filter (· ≠ k)
  lookup j := if j = k then none else m.lookup j
  nodup := m.nodup.filter _
  mem_keys := by
    intro j
    by_cases hj : j = k <;> simp [hj, m.mem_keys]

/-- The entries of a list, one after the other. -/
def ofList (entries : List (K × V)) : OrderedMap K V :=
  entries.foldl (fun m entry => m.insertLast entry.1 entry.2) empty

theorem keys_insertLast {k : K} (hk : k ∉ m.keys) (v : V) :
    (m.insertLast k v).keys = m.keys ++ [k] := by
  rw [insertLast, dif_neg hk]

theorem lookup_insertLast (m : OrderedMap K V) (k j : K) (v : V) :
    (m.insertLast k v).lookup j = (m.lookup j).or (if j = k then some v else none) := by
  by_cases hk : k ∈ m.keys
  · -- a key that is there keeps its value
    rw [insertLast, dif_pos hk]
    by_cases hj : j = k
    · obtain ⟨u, hu⟩ := Option.isSome_iff_exists.1 ((m.mem_keys k).1 hk)
      rw [hj, hu, Option.some_or]
    · rw [if_neg hj, Option.or_none]
  · rw [insertLast, dif_neg hk]
    by_cases hj : j = k
    · simp only [hj, if_true, lookup_eq_none.2 hk, Option.none_or]
    · simp only [if_neg hj, Option.or_none]

/-- What entries that are inserted one after the other make of a lookup: the first one of a key
    counts. -/
theorem lookup_foldl (entries : List (K × V)) (m : OrderedMap K V) (k : K) :
    (entries.foldl (fun m entry => m.insertLast entry.1 entry.2) m).lookup k =
      (m.lookup k).or ((entries.find? (·.1 = k)).map (·.2)) := by
  induction entries generalizing m with
  | nil => exact (Option.or_none ..).symm
  | cons entry rest ih =>
      rw [List.foldl_cons, ih, lookup_insertLast, Option.or_assoc]
      by_cases hk : entry.1 = k
      · simp [hk]
      · simp [hk, Ne.symm hk]

theorem keys_foldl (entries : List (K × V)) {m : OrderedMap K V}
    (hnew : (m.keys ++ entries.map (·.1)).Nodup) :
    (entries.foldl (fun m entry => m.insertLast entry.1 entry.2) m).keys =
      m.keys ++ entries.map (·.1) := by
  induction entries generalizing m with
  | nil => exact (List.append_nil _).symm
  | cons entry rest ih =>
      -- no later entry has a key of an earlier one
      have hentry : entry.1 ∉ m.keys := by
        intro hmem
        exact (List.nodup_append.1 hnew).2.2 _ hmem _ (List.mem_cons_self ..) rfl
      have hkeys := keys_insertLast hentry entry.2
      rw [List.map_cons, List.append_cons] at hnew ⊢
      rw [List.foldl_cons, ih (hkeys ▸ hnew), hkeys]

theorem lookup_ofList (entries : List (K × V)) (k : K) :
    (ofList entries).lookup k = (entries.find? (·.1 = k)).map (·.2) :=
  lookup_foldl entries empty k

theorem keys_ofList {entries : List (K × V)} (hkeys : (entries.map (·.1)).Nodup) :
    (ofList entries).keys = entries.map (·.1) :=
  keys_foldl entries hkeys

end OrderedMap

end ZoneConsole
