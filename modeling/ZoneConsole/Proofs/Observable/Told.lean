import Mathlib.Data.List.Basic

/-!
# What one callback is told

A callback that stays registered is told of each version once, but not always in order: a
publication that begins while a notification in progress has still to call it overtakes that
notification.  This file is about the versions alone.  `calls` are those that a callback is told,
one after the other, and `waits` says for each publication who had still to be called when it
began.

* **`Told`** — all versions are told, the newest is told last unless the last publication
  overtook a call, and they are told in order unless some publication did.
* **`Told.append`**, **`Told.append_due`**, **`Told.append_new`** — one stretch of a run after
  another, for a callback that is called in neither by an earlier notification, in the second
  one, or that is registered in the second one only.
-/

namespace ZoneConsole

/-! ### Versions in a row -/

/-- The versions from one to another, both included. -/
def versions (first last : Nat) : List Nat := List.range' first (last + 1 - first)

theorem mem_versions {first last v : Nat} : v ∈ versions first last ↔ first ≤ v ∧ v ≤ last := by
  rw [versions, List.mem_range'_1]
  omega

@[simp] theorem versions_succ_self (v : Nat) : versions (v + 1) v = [] := by
  simp [versions]

@[simp] theorem versions_self (v : Nat) : versions v v = [v] := by
  simp [versions]

theorem versions_append {first between last : Nat} (hfirst : first ≤ between + 1)
    (hlast : between ≤ last) :
    versions first between ++ versions (between + 1) last = versions first last := by
  have hlength : last + 1 - first =
      (between + 1 - first) + (last + 1 - (between + 1)) := by omega
  have hstart : first + (between + 1 - first) = between + 1 := by omega
  rw [versions, versions, versions, hlength, ← List.range'_append_1, hstart]

/-- What the callback `c` is told while the version goes from `before` to `after`: what a
    notification that began earlier has left for it, which is `due`, and all versions from
    `first` on. -/
structure Told (c : Nat) (due : List Nat) (first before after : Nat) (calls : List Nat)
    (waits : List (List Nat)) : Prop where
  version : after = before + waits.length
  overdue : ∀ v ∈ due, v ≤ before
  complete : calls.Perm (due ++ versions first after)
  newest : ∀ w, waits.getLast? = some w → ∃ v, calls.getLast? = some v ∧ (v = after ↔ c ∉ w)
  ordered : calls.Pairwise (· < ·) ↔ ∀ w ∈ waits, c ∉ w

namespace Told

variable {c v first before between after : Nat} {due calls calls₁ calls₂ later : List Nat}
  {waits waits₁ waits₂ : List (List Nat)}

theorem le (h : Told c due first before after calls waits) : before ≤ after := by
  have := h.version
  omega

theorem le_of_mem (h : Told c due first before after calls waits) (hv : v ∈ calls) :
    v ≤ after := by
  rcases List.mem_append.1 (h.complete.subset hv) with hdue | hversion
  · exact Nat.le_trans (h.overdue v hdue) h.le
  · exact (mem_versions.1 hversion).2

/-- Nothing old is told if nothing is due. -/
theorem first_le_of_mem (h : Told c [] first before after calls waits) (hv : v ∈ calls) :
    first ≤ v :=
  (mem_versions.1 (h.complete.subset hv)).1

/-- Nothing happened, and nothing is told. -/
protected theorem nil (c before : Nat) : Told c [] (before + 1) before before [] [] where
  version := rfl
  overdue := nofun
  complete := by simp
  newest := nofun
  ordered := by simp

/-- What was left for the callback is told first. -/
theorem cons (h : Told c [] (before + 1) before after calls waits) (hv : v ≤ before) :
    Told c [v] (before + 1) before after (v :: calls) waits where
  version := h.version
  overdue u hu := List.mem_singleton.1 hu ▸ hv
  complete := h.complete.cons v
  newest w hw := by
    obtain ⟨u, hu, hnew⟩ := h.newest w hw
    exact ⟨u, by rw [List.getLast?_cons, hu, Option.getD_some], hnew⟩
  ordered := by
    have hbelow : ∀ u ∈ calls, v < u := fun u hu =>
      Nat.lt_of_le_of_lt hv (h.first_le_of_mem hu)
    rw [List.pairwise_cons, ← h.ordered]
    exact and_iff_right hbelow

/-- What was left for the callback may be counted among the versions in a row. -/
theorem fold (h : Told c [before] (before + 1) before after calls waits) :
    Told c [] before before after calls waits where
  version := h.version
  overdue := nofun
  complete := by
    have hrow := versions_append (Nat.le_succ before) h.le
    rw [versions_self] at hrow
    rw [List.nil_append, ← hrow]
    exact h.complete
  newest := h.newest
  ordered := h.ordered

theorem notMem_map_append_iff (hc : c ∉ later) :
    (∀ w ∈ waits.map (· ++ later), c ∉ w) ↔ ∀ w ∈ waits, c ∉ w := by
  simp [hc]

/-- Two stretches, of which the second finds nothing left over. -/
theorem append (h₁ : Told c due first before between calls₁ waits₁)
    (hfirst : first ≤ between + 1) (h₂ : Told c [] (between + 1) between after calls₂ waits₂)
    (hc : c ∉ later) :
    Told c due first before after (calls₁ ++ calls₂) (waits₁.map (· ++ later) ++ waits₂) where
  version := by
    have := h₁.version
    have := h₂.version
    simp
    omega
  overdue := h₁.overdue
  complete := by
    rw [← versions_append hfirst h₂.le, ← List.append_assoc]
    exact h₁.complete.append h₂.complete
  newest w hw := by
    cases hlast : waits₂.getLast? with
    | some w₂ =>
        -- the last publication is in the second stretch
        rw [List.getLast?_append, hlast] at hw
        obtain rfl := Option.some.inj hw
        obtain ⟨v, hv, hnew⟩ := h₂.newest w₂ hlast
        exact ⟨v, by rw [List.getLast?_append, hv, Option.some_or], hnew⟩
    | none =>
        obtain rfl := List.getLast?_eq_none_iff.1 hlast
        obtain rfl : after = between := h₂.version
        obtain rfl : calls₂ = [] := by simpa using h₂.complete
        rw [List.append_nil, List.getLast?_map, Option.map_eq_some_iff] at hw
        obtain ⟨w₁, hw₁, rfl⟩ := hw
        obtain ⟨v, hv, hnew⟩ := h₁.newest w₁ hw₁
        refine ⟨v, by rw [List.append_nil, hv], hnew.trans ?_⟩
        simp [hc]
  ordered := by
    have hcross : ∀ u ∈ calls₁, ∀ v ∈ calls₂, u < v := fun u hu v hv =>
      Nat.lt_of_le_of_lt (h₁.le_of_mem hu) (h₂.first_le_of_mem hv)
    rw [List.pairwise_append, h₁.ordered, h₂.ordered, List.forall_mem_append,
      notMem_map_append_iff hc, and_iff_left hcross]

/-- Two stretches, where a notification that began before both reaches the callback in the second
    one.  Whatever is published in the first one overtakes it. -/
theorem append_due (h₁ : Told c [] (before + 1) before between calls₁ waits₁)
    (h₂ : Told c [v] (between + 1) between after calls₂ waits₂) (hv : v ≤ before)
    (hc : c ∈ later) :
    Told c [v] (before + 1) before after (calls₁ ++ calls₂)
      (waits₁.map (· ++ later) ++ waits₂) := by
  cases waits₁ with
  | nil =>
      obtain rfl : between = before := h₁.version
      obtain rfl : calls₁ = [] := by simpa using h₁.complete
      exact h₂
  | cons w₀ more =>
      have hgrown : before < between := by
        have := h₁.version
        rw [List.length_cons] at this
        omega
      have hmem₁ : between ∈ calls₁ :=
        h₁.complete.symm.subset (mem_versions.2 ⟨hgrown, Nat.le_refl _⟩)
      have hmem₂ : v ∈ calls₂ := h₂.complete.symm.subset (List.mem_cons_self ..)
      refine ⟨?_, fun u hu => List.mem_singleton.1 hu ▸ hv, ?_, ?_, ?_⟩
      · have := h₁.version
        have := h₂.version
        simp at *
        omega
      · rw [← versions_append (Nat.succ_le_succ (Nat.le_of_lt hgrown)) h₂.le]
        exact (h₁.complete.append h₂.complete).trans List.perm_middle
      · intro w hw
        cases hlast : waits₂.getLast? with
        | some w₂ =>
            rw [List.getLast?_append, hlast] at hw
            obtain rfl := Option.some.inj hw
            obtain ⟨u, hu, hnew⟩ := h₂.newest w₂ hlast
            exact ⟨u, by rw [List.getLast?_append, hu, Option.some_or], hnew⟩
        | none =>
            -- nothing is published after the overtaken call
            obtain rfl := List.getLast?_eq_none_iff.1 hlast
            obtain rfl : after = between := h₂.version
            obtain rfl : calls₂ = [v] := by simpa using h₂.complete
            rw [List.append_nil, List.getLast?_map, Option.map_eq_some_iff] at hw
            obtain ⟨w₁, -, rfl⟩ := hw
            refine ⟨v, by simp, ?_⟩
            simp [hc]
            omega
      · constructor
        · intro hordered
          have := (List.pairwise_append.1 hordered).2.2 _ hmem₁ _ hmem₂
          omega
        · intro hwaits
          exact absurd (List.mem_append_right _ hc)
            (hwaits (w₀ ++ later) (by simp))

/-- Two stretches, where the callback is registered in the second one only. -/
theorem append_new (hversion : between = before + waits₁.length) (hwaits : ∀ w ∈ waits₁, c ∉ w)
    (hc : c ∉ later) (hfirst : between ≤ first) (hlast : first ≤ after)
    (h : Told c [] first between after calls waits₂) :
    Told c [] first before after calls (waits₁.map (· ++ later) ++ waits₂) where
  version := by
    have := h.version
    simp
    omega
  overdue := nofun
  complete := h.complete
  newest w hw := by
    cases hw₂ : waits₂.getLast? with
    | some w₂ =>
        rw [List.getLast?_append, hw₂] at hw
        obtain rfl := Option.some.inj hw
        exact h.newest w₂ hw₂
    | none =>
        -- it is told just one version, the newest
        obtain rfl := List.getLast?_eq_none_iff.1 hw₂
        obtain rfl : after = between := h.version
        obtain rfl : first = after := Nat.le_antisymm hlast hfirst
        obtain rfl : calls = [first] := by simpa using h.complete
        rw [List.append_nil] at hw
        refine ⟨first, rfl, iff_of_true rfl ?_⟩
        exact (notMem_map_append_iff hc).2 hwaits w (List.mem_of_getLast? hw)
  ordered := by
    rw [h.ordered, List.forall_mem_append, notMem_map_append_iff hc]
    exact (and_iff_right hwaits).symm

/-- A publication comes first, which overtakes nobody. -/
theorem after_publication (h : Told c [] first (before + 1) after calls waits)
    (hfirst : before + 1 ≤ first) (hlast : first ≤ after) :
    Told c [] first before after calls ([] :: waits) := by
  show Told c [] first before after calls ([[]].map (· ++ []) ++ waits)
  exact append_new rfl (by simp) nofun hfirst hlast h

/-- The newest version is told last unless the last publication overtook a call. -/
theorem last_iff (h : Told c [] first before after calls waits)
    (hfirst : before ≤ first) (hlast : first ≤ after) :
    calls.getLast? = some after ↔ ∀ w, waits.getLast? = some w → c ∉ w := by
  constructor
  · intro hcalls w hw
    obtain ⟨v, hv, hnew⟩ := h.newest w hw
    exact hnew.1 (Option.some.inj (hv.symm.trans hcalls))
  · intro hwaits
    cases hw : waits.getLast? with
    | some w =>
        obtain ⟨v, hv, hnew⟩ := h.newest w hw
        rw [hv, hnew.2 (hwaits w hw)]
    | none =>
        obtain rfl := List.getLast?_eq_none_iff.1 hw
        obtain rfl : after = before := h.version
        obtain rfl : first = after := Nat.le_antisymm hlast hfirst
        obtain rfl : calls = [first] := by simpa using h.complete
        rfl

end Told

end ZoneConsole
