import Mathlib.Data.List.Induction
import Mathlib.Data.List.Nodup
import Mathlib.Data.String.Basic
import ZoneConsole.Proofs.Members

/-!
# Members sorted by name

A table that is sorted by name holds one entry for each name, so it is known by what it holds
under each: **`eq_of_lookup?`**.  `insertMember` keeps a table sorted and changes what it holds
under the one name, and `sortMembers` holds the last value of each name: **`lookup?_sortMembers`**.
-/

namespace ZoneConsole

variable {α : Type}

/-- The names of a table strictly grow. -/
def SortedByName (table : List (String × α)) : Prop :=
  table.Pairwise fun a b => a.1 < b.1

instance (table : List (String × α)) : Decidable (SortedByName table) :=
  inferInstanceAs (Decidable (table.Pairwise fun a b => a.1 < b.1))

theorem sortedByName_nil : SortedByName ([] : List (String × α)) := .nil

theorem SortedByName.nodup {table : List (String × α)} (hsorted : SortedByName table) :
    (table.map (·.1)).Nodup :=
  List.pairwise_map.2 (hsorted.imp fun h => ne_of_lt h)

theorem lookup?_eq_none {name : String} {table : List (String × α)} :
    lookup? name table = none ↔ name ∉ table.map (·.1) := by
  induction table with
  | nil => simp [lookup?]
  | cons entry rest ih =>
      obtain ⟨n, a⟩ := entry
      rw [lookup?, List.map_cons, List.mem_cons, not_or]
      by_cases hn : n = name
      · rw [if_pos hn]
        exact ⟨fun h => absurd h (Option.some_ne_none a), fun h => absurd hn.symm h.1⟩
      · rw [if_neg hn, ih]
        exact ⟨fun h => ⟨fun h' => hn h'.symm, h⟩, And.right⟩

theorem lookup?_of_mem {name : String} {a : α} {table : List (String × α)}
    (hnodup : (table.map (·.1)).Nodup) (hmem : (name, a) ∈ table) :
    lookup? name table = some a := by
  induction table with
  | nil => cases hmem
  | cons entry rest ih =>
      obtain ⟨n, b⟩ := entry
      obtain ⟨hn, hrest⟩ := List.nodup_cons.1 hnodup
      rcases List.mem_cons.1 hmem with heq | hmem
      · cases heq
        exact if_pos rfl
      · have hname : name ∈ rest.map (·.1) := List.mem_map_of_mem (f := (·.1)) hmem
        have hne : n ≠ name := by
          rintro rfl
          exact hn hname
        rw [lookup?, if_neg hne]
        exact ih hrest hmem

theorem mem_iff_lookup? {name : String} {a : α} {table : List (String × α)}
    (hsorted : SortedByName table) : (name, a) ∈ table ↔ lookup? name table = some a :=
  ⟨lookup?_of_mem hsorted.nodup, mem_of_lookup?⟩

/-- Two sorted tables that hold the same under each name are the same. -/
theorem eq_of_lookup? {s t : List (String × α)} (hs : SortedByName s) (ht : SortedByName t)
    (hsame : ∀ name, lookup? name s = lookup? name t) : s = t := by
  have hperm : s.Perm t := by
    refine (List.perm_ext_iff_of_nodup hs.nodup.of_map ht.nodup.of_map).2 fun ⟨name, a⟩ => ?_
    rw [mem_iff_lookup? hs, mem_iff_lookup? ht, hsame]
  refine hperm.eq_of_pairwise ?_ hs ht
  rintro a b - - hab hba
  exact absurd hba hab.asymm

/-! ### Inserting -/

theorem lookup?_insertMember (name other : String) (a : α) (table : List (String × α)) :
    lookup? other (insertMember name a table)
      = if other = name then some a else lookup? other table := by
  induction table with
  | nil => simp only [insertMember, lookup?, eq_comm]
  | cons entry rest ih =>
      obtain ⟨n, b⟩ := entry
      rw [insertMember]
      by_cases hlt : name < n
      · rw [if_pos hlt, lookup?]
        simp only [eq_comm]
      · rw [if_neg hlt]
        by_cases heq : name = n
        · subst heq
          rw [if_pos rfl, lookup?, lookup?]
          by_cases ho : other = name
          · rw [if_pos ho, if_pos ho.symm]
          · rw [if_neg ho, if_neg (fun h => ho h.symm), if_neg (fun h => ho h.symm)]
        · rw [if_neg heq, lookup?, lookup?, ih]
          by_cases ho : other = name
          · rw [if_pos ho, if_pos ho, if_neg (fun h => heq (ho.symm.trans h.symm))]
          · rw [if_neg ho, if_neg ho]

theorem eq_or_mem_of_mem_insertMember {name : String} {a : α} {table : List (String × α)}
    {e : String × α} (he : e ∈ insertMember name a table) : e = (name, a) ∨ e ∈ table := by
  induction table with
  | nil => exact .inl (List.mem_singleton.1 he)
  | cons entry rest ih =>
      obtain ⟨n, b⟩ := entry
      rw [insertMember] at he
      split at he
      · rcases List.mem_cons.1 he with rfl | he
        · exact .inl rfl
        · exact .inr he
      · split at he
        · rcases List.mem_cons.1 he with rfl | he
          · exact .inl rfl
          · exact .inr (List.mem_cons_of_mem _ he)
        · rcases List.mem_cons.1 he with rfl | he
          · exact .inr List.mem_cons_self
          · rcases ih he with heq | he
            · exact .inl heq
            · exact .inr (List.mem_cons_of_mem _ he)

theorem SortedByName.insertMember {name : String} {a : α} {table : List (String × α)}
    (hsorted : SortedByName table) : SortedByName (insertMember name a table) := by
  induction table with
  | nil => exact List.pairwise_singleton _ _
  | cons entry rest ih =>
      obtain ⟨n, b⟩ := entry
      obtain ⟨hn, hrest⟩ := List.pairwise_cons.1 hsorted
      rw [ZoneConsole.insertMember]
      by_cases hlt : name < n
      · rw [if_pos hlt]
        refine List.pairwise_cons.2 ⟨fun e he => ?_, hsorted⟩
        rcases List.mem_cons.1 he with rfl | he
        · exact hlt
        · exact lt_trans hlt (hn e he)
      · rw [if_neg hlt]
        by_cases heq : name = n
        · subst heq
          rw [if_pos rfl]
          exact List.pairwise_cons.2 ⟨hn, hrest⟩
        · have hgt : n < name := lt_of_le_of_ne (not_lt.1 hlt) fun h => heq h.symm
          rw [if_neg heq]
          refine List.pairwise_cons.2 ⟨fun e he => ?_, ih hrest⟩
          rcases eq_or_mem_of_mem_insertMember he with rfl | he
          · exact hgt
          · exact hn e he

/-! ### Sorting -/

theorem sortMembers_concat (members : List (String × α)) (m : String × α) :
    sortMembers (members ++ [m]) = insertMember m.1 m.2 (sortMembers members) := by
  rw [sortMembers, List.foldl_append]
  rfl

theorem sortedByName_sortMembers (members : List (String × α)) :
    SortedByName (sortMembers members) := by
  induction members using List.reverseRecOn with
  | nil => exact sortedByName_nil
  | append_singleton members m ih =>
      rw [sortMembers_concat]
      exact ih.insertMember

/-- Of several members with one name the last counts. -/
theorem lookup?_sortMembers (name : String) (members : List (String × α)) :
    lookup? name (sortMembers members) = lookup? name members.reverse := by
  induction members using List.reverseRecOn with
  | nil => rfl
  | append_singleton members m ih =>
      rw [sortMembers_concat, lookup?_insertMember, List.reverse_concat, lookup?, ih]
      exact if_congr eq_comm rfl rfl

theorem mem_names_sortMembers {name : String} {members : List (String × α)} :
    name ∈ (sortMembers members).map (·.1) ↔ name ∈ members.map (·.1) := by
  rw [← not_iff_not, ← lookup?_eq_none, lookup?_sortMembers, lookup?_eq_none, List.map_reverse,
    List.mem_reverse]

end ZoneConsole
