import Mathlib.Tactic.SplitIfs
import ZoneConsole.Json.Quoted
import ZoneConsole.Proofs.Text.Digits

/-!
# Quoted texts in JSON come back

Every character of a text is read back from its escape, whichever of the forms it has, and so is
the text: **`readQuoted_writeQuoted`**.
-/

namespace ZoneConsole.Json

theorem hexUnit?_hexDigit {n : Nat} (hn : n < 256) :
    hexUnit? '0' '0' (Text.hexDigit (n / 16)) (Text.hexDigit (n % 16)) = some n := by
  rw [hexUnit?, Text.hexValue?_hexDigit (by omega), Text.hexValue?_hexDigit (by omega)]
  show some (((0 * 16 + 0) * 16 + n / 16) * 16 + n % 16) = some n
  congr 1
  omega

/-- A code below the surrogates is the character of that code. -/
theorem readQuoted_unit {a b c d : Char} {n : Nat} (hunit : hexUnit? a b c d = some n)
    (hn : n < 0xd800) (acc rest : List Char) :
    readQuoted acc none ('\\' :: 'u' :: a :: b :: c :: d :: rest)
      = readQuoted (Char.ofNat n :: acc) none rest := by
  have hlow : ¬ (0xdc00 ≤ n ∧ n ≤ 0xdfff) := by omega
  have hhigh : ¬ (0xd800 ≤ n ∧ n ≤ 0xdbff) := by omega
  rw [readQuoted]
  simp only [hunit, if_neg hlow, if_neg hhigh]

/-- A character is read back from its escape. -/
theorem readQuoted_escapeChar (acc : List Char) (c : Char) (rest : List Char) :
    readQuoted acc none (escapeChar c ++ rest) = readQuoted (c :: acc) none rest := by
  rw [escapeChar]
  split_ifs with hquote hbackslash hbell htab hline hform hreturn hcontrol
  · subst hquote
    rfl
  · subst hbackslash
    rfl
  · obtain rfl : c = '\x08' := Char.toNat_inj.1 hbell
    rfl
  · subst htab
    rfl
  · subst hline
    rfl
  · obtain rfl : c = '\x0c' := Char.toNat_inj.1 hform
    rfl
  · subst hreturn
    rfl
  · have hunit := hexUnit?_hexDigit (n := c.toNat) (by omega)
    rw [List.cons_append, List.cons_append]
    exact (readQuoted_unit hunit (by omega) acc rest).trans (by rw [Char.ofNat_toNat])
  · -- No quote, no backslash and no control: the character stands for itself.
    rw [List.singleton_append, readQuoted, if_neg hcontrol]
    · exact hquote
    · exact hbackslash

theorem readQuoted_escape (cs acc rest : List Char) :
    readQuoted acc none (escape cs ++ '"' :: rest)
      = (.str (String.ofList (acc.reverse ++ cs)), some rest) := by
  induction cs generalizing acc with
  | nil =>
      rw [List.append_nil]
      rfl
  | cons c cs ih =>
      rw [escape, List.flatMap_cons, List.append_assoc, readQuoted_escapeChar]
      have hread := ih (c :: acc)
      rwa [List.reverse_cons, List.append_assoc] at hread

theorem writeQuoted_append (s : String) (rest : List Char) :
    writeQuoted s ++ rest = '"' :: (escape s.toList ++ '"' :: rest) := by
  rw [writeQuoted, List.cons_append, List.append_assoc, List.singleton_append]

/-- A text in quotes is read back after its opening quote. -/
theorem readQuoted_writeQuoted (s : String) (rest : List Char) :
    readQuoted [] none (escape s.toList ++ '"' :: rest) = (.str s, some rest) := by
  rw [readQuoted_escape, List.reverse_nil, List.nil_append, String.ofList_toList]

end ZoneConsole.Json
