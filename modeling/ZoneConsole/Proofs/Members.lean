import ZoneConsole.Members

/-!
# Looking up names

What is found under a name stands in the table, and what a table holds under a name after an
entry was put into it or taken out of it.
-/

namespace ZoneConsole

variable {α : Type}

theorem mem_of_lookup? {name : String} {table : List (String × α)} {b : α}
    (hfound : lookup? name table = some b) : (name, b) ∈ table := by
  induction table with
  | nil => cases hfound
  | cons entry rest ih =>
      obtain ⟨n, c⟩ := entry
      rw [lookup?] at hfound
      by_cases hn : n = name
      · rw [if_pos hn] at hfound
        obtain rfl := Option.some.inj hfound
        rw [hn]
        exact List.mem_cons_self
      · rw [if_neg hn] at hfound
        exact List.mem_cons_of_mem _ (ih hfound)

theorem lookup?_without (name other : String) (table : List (String × α)) :
    lookup? other (without name table) = if other = name then none else lookup? other table := by
  induction table with
  | nil => simp [without, lookup?]
  | cons entry rest ih =>
      obtain ⟨n, a⟩ := entry
      have hstep : without name ((n, a) :: rest)
          = if n = name then without name rest else (n, a) :: without name rest := by
        by_cases hn : n = name <;> simp [without, hn]
      rw [hstep]
      by_cases hn : n = name
      · rw [if_pos hn, ih]
        by_cases ho : other = name
        · rw [if_pos ho, if_pos ho]
        · rw [if_neg ho, if_neg ho, lookup?, if_neg (fun h => ho (h.symm.trans hn))]
      · rw [if_neg hn, lookup?, lookup?, ih]
        by_cases ho : other = name
        · rw [if_pos ho, if_pos ho, if_neg (fun h => hn (h.trans ho))]
        · rw [if_neg ho, if_neg ho]

theorem lookup?_put (name other : String) (a : α) (table : List (String × α)) :
    lookup? other (put name a table) = if other = name then some a else lookup? other table := by
  rw [put, lookup?, lookup?_without]
  by_cases ho : other = name
  · rw [if_pos ho.symm, if_pos ho]
  · rw [if_neg (fun h => ho h.symm), if_neg ho, if_neg ho]

theorem lookup?_map {β : Type} (f : α → β) (name : String) (table : List (String × α)) :
    lookup? name (table.map fun entry => (entry.1, f entry.2)) = (lookup? name table).map f := by
  induction table with
  | nil => rfl
  | cons entry rest ih =>
      rw [List.map_cons, lookup?, lookup?, ih]
      split <;> rfl

/-- A table that is kept where a name is concerned holds the same under it. -/
theorem lookup?_filter (keep : String → Bool) {name : String} (hname : keep name = true)
    (table : List (String × α)) :
    lookup? name (table.filter fun entry => keep entry.1) = lookup? name table := by
  induction table with
  | nil => rfl
  | cons entry rest ih =>
      rw [List.filter_cons]
      by_cases hn : entry.1 = name
      · rw [if_pos (hn ▸ hname), lookup?, lookup?, if_pos hn, if_pos hn]
      · rw [lookup?, if_neg hn, ← ih]
        split
        · rw [lookup?, if_neg hn]
        · rfl

end ZoneConsole
