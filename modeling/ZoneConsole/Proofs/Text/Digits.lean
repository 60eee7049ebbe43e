import ZoneConsole.Text.Digits

/-!
# Digits and their values

What `Text.decimal` and `Text.decimalPadded` write is digits and nothing else, and their value
is the number.  A reader that takes all digits takes just these, if no digit follows.

* **`Stops`** — what follows does not go on with characters of a kind.
* **`decimalValue_decimal`**, **`decimalValue_decimalPadded`** — the number is back.
* **`hexValue?_hexDigit`**, **`hexValue?_hexDigitUpper`** — so is a hexadecimal digit.
-/

namespace ZoneConsole.Text

/-- A text does not start with a character of a kind. -/
def Stops (p : Char → Bool) (rest : List Char) : Prop := ∀ c ∈ rest.head?, p c = false

theorem stops_nil (p : Char → Bool) : Stops p [] := nofun

theorem stops_cons {p : Char → Bool} {c : Char} (h : p c = false) (rest : List Char) :
    Stops p (c :: rest) := by
  intro d hd
  obtain rfl := Option.some.inj hd
  exact h

variable {p : Char → Bool} {ds rest : List Char}

theorem takeWhile_stops (hds : ∀ c ∈ ds, p c) (hrest : Stops p rest) :
    (ds ++ rest).takeWhile p = ds := by
  rw [List.takeWhile_append_of_pos hds]
  cases rest with
  | nil => simp
  | cons c r => rw [List.takeWhile_cons_of_neg (by simp [hrest c rfl]), List.append_nil]

theorem dropWhile_stops (hds : ∀ c ∈ ds, p c) (hrest : Stops p rest) :
    (ds ++ rest).dropWhile p = rest := by
  rw [List.dropWhile_append_of_pos hds]
  cases rest with
  | nil => rfl
  | cons c r => rw [List.dropWhile_cons_of_neg (by simp [hrest c rfl])]

theorem dropWhile_of_stops (hrest : Stops p rest) : rest.dropWhile p = rest := by
  have hnone : ∀ c ∈ ([] : List Char), p c := nofun
  exact dropWhile_stops hnone hrest

theorem isDigit_iff {c : Char} : isDigit c ↔ 48 ≤ c.toNat ∧ c.toNat ≤ 57 := by
  simp only [isDigit, Bool.and_eq_true, decide_eq_true_eq]
  exact Iff.rfl

/-- A digit differs from what is none. -/
theorem ne_of_isDigit {c d : Char} (hc : isDigit c) (hd : isDigit d = false) : c ≠ d := by
  rintro rfl
  rw [hc] at hd
  cases hd

theorem isDigit_of_mem_decimal {n : Nat} {c : Char} (hc : c ∈ decimal n) : isDigit c := by
  have hdigit : c.isDigit := Nat.isDigit_of_mem_toDigits (by decide) (by decide) hc
  simp only [Char.isDigit, Bool.and_eq_true, decide_eq_true_eq] at hdigit
  exact isDigit_iff.2 hdigit

theorem decimal_ne_nil (n : Nat) : decimal n ≠ [] := Nat.toDigits_ne_nil

theorem foldl_eq_ofDigitChars (ds : List Char) (n : Nat) :
    ds.foldl (fun n c => n * 10 + digitValue c) n = Nat.ofDigitChars 10 ds n := by
  rw [Nat.ofDigitChars_eq_foldl]
  congr 1
  funext n c
  rw [Nat.mul_comm]
  rfl

theorem decimalValue_decimal (n : Nat) : decimalValue (decimal n) = n := by
  rw [decimalValue, foldl_eq_ofDigitChars]
  exact Nat.ofDigitChars_ten_toDigits

/-- Only zero starts with a zero. -/
theorem head?_decimal_ne {n : Nat} (hn : n ≠ 0) : (decimal n).head? ≠ some '0' := by
  induction n using Nat.strongRecOn with
  | _ n ih =>
      rw [decimal, Nat.toDigits_eq_if (by decide)]
      by_cases hlt : n < 10
      · rw [if_pos hlt]
        simpa using hn
      · have hrest : (decimal (n / 10)).head? ≠ some '0' := ih (n / 10) (by omega) (by omega)
        rw [decimal] at hrest
        obtain ⟨c, cs, hcs⟩ := List.exists_cons_of_ne_nil (decimal_ne_nil (n / 10))
        rw [decimal] at hcs
        rw [if_neg hlt, hcs]
        rw [hcs] at hrest
        exact hrest

theorem decimal_zero : decimal 0 = ['0'] := Nat.toDigits_zero 10

/-! ### Numbers of a width -/

theorem isDigit_of_mem_decimalPadded {width n : Nat} {c : Char}
    (hc : c ∈ decimalPadded width n) : isDigit c := by
  rcases List.mem_append.1 hc with hzero | hdigit
  · obtain rfl := List.eq_of_mem_replicate hzero
    rfl
  · exact isDigit_of_mem_decimal hdigit

theorem decimalPadded_ne_nil (width n : Nat) : decimalPadded width n ≠ [] := by
  simp [decimalPadded, decimal_ne_nil]

theorem decimalValue_decimalPadded (width n : Nat) :
    decimalValue (decimalPadded width n) = n := by
  rw [decimalValue, foldl_eq_ofDigitChars, decimalPadded, Nat.ofDigitChars_append,
    Nat.ofDigitChars_replicate_zero, Nat.mul_zero]
  exact Nat.ofDigitChars_ten_toDigits

theorem length_decimalPadded {width n : Nat} (hwidth : 0 < width) (hn : n < Nat.pow 10 width) :
    (decimalPadded width n).length = width := by
  have hle : (decimal n).length ≤ width := (Nat.length_toDigits_le_iff (by decide) hwidth).2 hn
  rw [decimalPadded, List.length_append, List.length_replicate]
  omega

/-! ### Hexadecimal digits -/

theorem hexValue?_hexDigit {n : Nat} (hn : n < 16) : hexValue? (hexDigit n) = some n := by
  have hall : ∀ i : Fin 16, hexValue? (hexDigit i.val) = some i.val := by decide
  exact hall ⟨n, hn⟩

theorem hexValue?_hexDigitUpper {n : Nat} (hn : n < 16) :
    hexValue? (hexDigitUpper n) = some n := by
  have hall : ∀ i : Fin 16, hexValue? (hexDigitUpper i.val) = some i.val := by decide
  exact hall ⟨n, hn⟩

end ZoneConsole.Text
