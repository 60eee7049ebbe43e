import ZoneConsole.Proofs.Text.Digits
import ZoneConsole.Text.Blank

/-!
# Texts without the blanks at their ends

What is trimmed off a text does not matter to what remains, and nothing is trimmed off a text
that has no blank at either end.

* **`trimChars_append`** — blanks around a text are trimmed off.
* **`trimChars_of_stops`** — a text without blanks at its ends stays.
-/

namespace ZoneConsole.Text

variable {before cs after : List Char}

/-- Blanks in front of a text are trimmed off. -/
theorem trimChars_append_left (hbefore : ∀ c ∈ before, isBlank c = true) (cs : List Char) :
    trimChars (before ++ cs) = trimChars cs := by
  rw [trimChars, List.dropWhile_append_of_pos hbefore, trimChars]

/-- Blanks behind a text are trimmed off. -/
theorem trimChars_append_right (hafter : ∀ c ∈ after, isBlank c = true) (cs : List Char) :
    trimChars (cs ++ after) = trimChars cs := by
  induction cs with
  | nil =>
      have hall := trimChars_append_left hafter []
      rwa [List.append_nil] at hall
  | cons c cs ih =>
      rw [List.cons_append]
      by_cases hc : isBlank c = true
      · have hskip : ∀ cs, trimChars (c :: cs) = trimChars cs := fun cs => by
          rw [trimChars, List.dropWhile_cons_of_pos hc, trimChars]
        rw [hskip, hskip, ih]
      · -- The text begins here, and the blanks behind it are the first ones read from its end.
        rw [trimChars, trimChars, List.dropWhile_cons_of_neg hc, List.dropWhile_cons_of_neg hc,
          ← List.cons_append, List.reverse_append, List.dropWhile_append_of_pos]
        exact fun d hd => hafter d (List.mem_reverse.1 hd)

/-- **Blanks around a text are trimmed off.** -/
theorem trimChars_append (hbefore : ∀ c ∈ before, isBlank c = true)
    (hafter : ∀ c ∈ after, isBlank c = true) (cs : List Char) :
    trimChars (before ++ cs ++ after) = trimChars cs := by
  rw [trimChars_append_right hafter, trimChars_append_left hbefore]

/-- Nothing is left of blanks alone. -/
theorem trimChars_of_blank (h : ∀ c ∈ cs, isBlank c = true) : trimChars cs = [] := by
  have hall := trimChars_append_left h []
  rwa [List.append_nil] at hall

/-- **A text without blanks at its ends** stays as it is. -/
theorem trimChars_of_stops (hfirst : Stops isBlank cs) (hlast : Stops isBlank cs.reverse) :
    trimChars cs = cs := by
  rw [trimChars, dropWhile_of_stops hfirst, dropWhile_of_stops hlast, List.reverse_reverse]

/-- A character that is shown in ASCII is not blank. -/
theorem isBlank_of_shown {c : Char} (h : 0x20 < c.toNat ∧ c.toNat ≤ 0x7e) : isBlank c = false := by
  simp only [isBlank, Bool.or_eq_false_iff, Bool.and_eq_false_iff, decide_eq_false_iff_not,
    beq_eq_false_iff_ne]
  omega

end ZoneConsole.Text
