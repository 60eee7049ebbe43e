import Mathlib.Data.List.Forall2
import ZoneConsole.Url.Percent

/-!
# Parts of texts

What parts of a text between separators have in common, and how texts are put together and taken
apart.

* **`splitOn_append`** — the first part of a text ends at the first separator.
* **`mem_splitOn`**, **`mem_intercalate`** — the characters of parts, and of parts put together.
* **`mapM_eq_some_iff`** — when all parts of a list can be read.
-/

namespace ZoneConsole.Url

variable {sep : Char → Bool} {part rest : List Char}

theorem splitOn_ne_nil (sep : Char → Bool) (cs : List Char) : splitOn sep cs ≠ [] := by
  cases cs with
  | nil => exact List.cons_ne_nil _ _
  | cons c cs =>
      rw [splitOn]
      split
      · exact List.cons_ne_nil _ _
      · split <;> exact List.cons_ne_nil _ _

/-- A character that is no separator belongs to the first part. -/
theorem splitOn_cons {c : Char} (hc : sep c = false) {cs first : List Char}
    {parts : List (List Char)} (h : splitOn sep cs = first :: parts) :
    splitOn sep (c :: cs) = (c :: first) :: parts := by
  rw [splitOn, if_neg (by simp [hc]), h]

/-- A text without separators is one part. -/
theorem splitOn_of_none (hpart : ∀ c ∈ part, sep c = false) : splitOn sep part = [part] := by
  induction part with
  | nil => rfl
  | cons c part ih =>
      obtain ⟨hc, hpart⟩ := List.forall_mem_cons.1 hpart
      exact splitOn_cons hc (ih hpart)

/-- **The first part ends at the first separator.** -/
theorem splitOn_append (hpart : ∀ c ∈ part, sep c = false) {c : Char} (hc : sep c = true) :
    splitOn sep (part ++ c :: rest) = part :: splitOn sep rest := by
  induction part with
  | nil => rw [List.nil_append, splitOn, if_pos hc]
  | cons d part ih =>
      obtain ⟨hd, hpart⟩ := List.forall_mem_cons.1 hpart
      exact splitOn_cons hd (ih hpart)

/-- A part has no separators, and all that it has is in the text. -/
theorem mem_splitOn {cs : List Char} (h : part ∈ splitOn sep cs) {c : Char} (hc : c ∈ part) :
    c ∈ cs ∧ sep c = false := by
  induction cs generalizing part with
  | nil =>
      obtain rfl := List.mem_singleton.1 h
      cases hc
  | cons d cs ih =>
      by_cases hd : sep d
      · rw [splitOn, if_pos hd] at h
        rcases List.mem_cons.1 h with rfl | h
        · cases hc
        · exact (ih h hc).imp_left (List.mem_cons_of_mem d)
      · rw [Bool.not_eq_true] at hd
        obtain ⟨first, parts, hsplit⟩ := List.exists_cons_of_ne_nil (splitOn_ne_nil sep cs)
        rw [splitOn_cons hd hsplit] at h
        rw [hsplit] at ih
        rcases List.mem_cons.1 h with rfl | h
        · rcases List.mem_cons.1 hc with rfl | hc
          · exact ⟨List.mem_cons_self, hd⟩
          · exact (ih List.mem_cons_self hc).imp_left (List.mem_cons_of_mem d)
        · exact (ih (List.mem_cons_of_mem _ h) hc).imp_left (List.mem_cons_of_mem d)

/-- What stands in parts put together is a separator or stands in one of them. -/
theorem mem_intercalate {c d : Char} {parts : List (List Char)}
    (h : d ∈ List.intercalate [c] parts) : d = c ∨ ∃ part ∈ parts, d ∈ part := by
  induction parts with
  | nil => cases h
  | cons first more ih =>
      cases more with
      | nil =>
          rw [List.intercalate_singleton] at h
          exact .inr ⟨first, List.mem_cons_self, h⟩
      | cons second more =>
          rw [List.intercalate_cons_cons, List.append_assoc, List.mem_append] at h
          rcases h with h | h
          · exact .inr ⟨first, List.mem_cons_self, h⟩
          rcases List.mem_cons.1 h with rfl | h
          · exact .inl rfl
          · refine (ih h).imp_right ?_
            rintro ⟨part, hpart, hd⟩
            exact ⟨part, List.mem_cons_of_mem _ hpart, hd⟩

/-- All of a list can be read if each of it can. -/
theorem mapM_eq_some_iff {α β : Type} {f : α → Option β} {l : List α} {l' : List β} :
    l.mapM f = some l' ↔ List.Forall₂ (fun a b => f a = some b) l l' := by
  induction l generalizing l' with
  | nil =>
      rw [List.mapM_nil, List.forall₂_nil_left_iff]
      exact ⟨fun h => (Option.some.inj h).symm, fun h => congrArg some h.symm⟩
  | cons a l ih =>
      rw [List.mapM_cons, List.forall₂_cons_left_iff]
      constructor
      · intro h
        obtain ⟨b, hb, h⟩ := Option.bind_eq_some_iff.1 h
        obtain ⟨more, hmore, h⟩ := Option.bind_eq_some_iff.1 h
        exact ⟨b, more, hb, ih.1 hmore, (Option.some.inj h).symm⟩
      · rintro ⟨b, more, hb, hmore, rfl⟩
        rw [hb, ih.2 hmore]
        rfl

end ZoneConsole.Url
