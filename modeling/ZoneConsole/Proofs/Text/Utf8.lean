import ZoneConsole.Text.Utf8

/-!
# UTF-8 is read back

The bytes of a text are read back as that text, whatever follows it.  A character has one
to four bytes, and which of the four forms its first byte announces depends on its code
alone; the proof goes form by form, with the bytes as numbers.

* **`readUtf8_utf8Char`** — a character in front of other bytes is read first.
* **`readUtf8_utf8`** — a text is read back from its bytes.
-/

namespace ZoneConsole.Text

/-- A number below 256 is the number of its byte. -/
theorem toNat_toUInt8 {n : Nat} (h : n < 256) : n.toUInt8.toNat = n := by
  simp [Nat.toUInt8, Nat.mod_eq_of_lt h]

/-- The code of a character is below the surrogates, or above them and in range. -/
theorem code_cases (c : Char) : c.toNat < 0xd800 ∨ 0xe000 ≤ c.toNat ∧ c.toNat < 0x110000 := by
  rcases c.valid with h | ⟨h₁, h₂⟩
  · exact .inl h
  · exact .inr ⟨Nat.succ_le_of_lt h₁, h₂⟩

/-- The test of a continuing byte, on the number of the byte. -/
theorem isTail_iff (b : UInt8) : isTail b = true ↔ 0x80 ≤ b.toNat ∧ b.toNat ≤ 0xbf := by
  simp [isTail, UInt8.le_iff_toNat_le]

/-- A test of a second byte, which is tighter at the bottom after one first byte and at the
    top after another one, on the numbers of the bytes. -/
theorem fits_iff {x y low high : UInt8} (hxy : x ≠ y) (hlow : 0x80 ≤ low.toNat)
    (hhigh : high.toNat ≤ 0xbf) (a b : UInt8) :
    (if a = x then low ≤ b && b ≤ 0xbf else if a = y then 0x80 ≤ b && b ≤ high else isTail b) =
        true ↔
      (0x80 ≤ b.toNat ∧ b.toNat ≤ 0xbf) ∧ (a.toNat = x.toNat → low.toNat ≤ b.toNat) ∧
        (a.toNat = y.toNat → b.toNat ≤ high.toNat) := by
  have hne : x.toNat ≠ y.toNat := mt UInt8.toNat_inj.1 hxy
  by_cases hx : a = x
  · subst hx
    simp [UInt8.le_iff_toNat_le, hne]
    omega
  have hx' : a.toNat ≠ x.toNat := mt UInt8.toNat_inj.1 hx
  by_cases hy : a = y
  · subst hy
    simp [hx, hx', UInt8.le_iff_toNat_le]
    omega
  have hy' : a.toNat ≠ y.toNat := mt UInt8.toNat_inj.1 hy
  simp [hx, hx', hy, hy', isTail_iff]

theorem fitsThree_iff (a b : UInt8) :
    fitsThree a b = true ↔
      (0x80 ≤ b.toNat ∧ b.toNat ≤ 0xbf) ∧ (a.toNat = 0xe0 → 0xa0 ≤ b.toNat) ∧
        (a.toNat = 0xed → b.toNat ≤ 0x9f) :=
  fits_iff (by decide) (by decide) (by decide) a b

theorem fitsFour_iff (a b : UInt8) :
    fitsFour a b = true ↔
      (0x80 ≤ b.toNat ∧ b.toNat ≤ 0xbf) ∧ (a.toNat = 0xf0 → 0x90 ≤ b.toNat) ∧
        (a.toNat = 0xf4 → b.toNat ≤ 0x8f) :=
  fits_iff (by decide) (by decide) (by decide) a b

/-- A byte above the first half starts no character of its own. -/
theorem not_lt_half {a : UInt8} (ha : 0x80 ≤ a.toNat) : ¬ a < 0x80 := by
  rw [UInt8.lt_iff_toNat_lt]
  exact Nat.not_lt.2 ha

/-- The form of two bytes is read as one character. -/
theorem readUtf8_two {a b : UInt8} {rest : List UInt8}
    (ha : 0xc2 ≤ a.toNat ∧ a.toNat ≤ 0xdf) (hb : isTail b = true) :
    readUtf8 (a :: b :: rest) = charOfBytes (a.toNat % 32) [b] :: readUtf8 rest := by
  have h1 : ¬ a < 0x80 := not_lt_half (Nat.le_trans (by decide) ha.1)
  have h2 : (0xc2 ≤ a && a ≤ 0xdf) = true := by
    simpa [UInt8.le_iff_toNat_le] using ha
  rw [readUtf8.eq_def]
  simp only [h1, h2, hb, if_true, if_false]

/-- The form of three bytes is read as one character. -/
theorem readUtf8_three {a b c : UInt8} {rest : List UInt8}
    (ha : 0xe0 ≤ a.toNat ∧ a.toNat ≤ 0xef) (hb : fitsThree a b = true) (hc : isTail c = true) :
    readUtf8 (a :: b :: c :: rest) = charOfBytes (a.toNat % 16) [b, c] :: readUtf8 rest := by
  have h1 : ¬ a < 0x80 := not_lt_half (Nat.le_trans (by decide) ha.1)
  have h2 : (0xc2 ≤ a && a ≤ 0xdf) = false := by
    simp [UInt8.le_iff_toNat_le]
    omega
  have h3 : (0xe0 ≤ a && a ≤ 0xef) = true := by
    simpa [UInt8.le_iff_toNat_le] using ha
  rw [readUtf8.eq_def]
  simp only [h1, h2, h3, hb, hc, if_true, if_false, Bool.false_eq_true]

/-- The form of four bytes is read as one character. -/
theorem readUtf8_four {a b c d : UInt8} {rest : List UInt8}
    (ha : 0xf0 ≤ a.toNat ∧ a.toNat ≤ 0xf4) (hb : fitsFour a b = true) (hc : isTail c = true)
    (hd : isTail d = true) :
    readUtf8 (a :: b :: c :: d :: rest) =
      charOfBytes (a.toNat % 8) [b, c, d] :: readUtf8 rest := by
  have h1 : ¬ a < 0x80 := not_lt_half (Nat.le_trans (by decide) ha.1)
  have h2 : (0xc2 ≤ a && a ≤ 0xdf) = false := by
    simp [UInt8.le_iff_toNat_le]
    omega
  have h3 : (0xe0 ≤ a && a ≤ 0xef) = false := by
    simp [UInt8.le_iff_toNat_le]
    omega
  have h4 : (0xf0 ≤ a && a ≤ 0xf4) = true := by
    simpa [UInt8.le_iff_toNat_le] using ha
  rw [readUtf8.eq_def]
  simp only [h1, h2, h3, h4, hb, hc, hd, if_true, if_false, Bool.false_eq_true]

/-- **One character is read back**, in front of whatever other bytes. -/
theorem readUtf8_utf8Char (c : Char) (rest : List UInt8) :
    readUtf8 (utf8Char c ++ rest) = c :: readUtf8 rest := by
  have hback : ∀ n, n = c.toNat → Char.ofNat n = c := by
    rintro n rfl
    exact Char.ofNat_toNat c
  have hcode := code_cases c
  have htail : ∀ n, (0x80 + n % 64).toUInt8.toNat = 0x80 + n % 64 :=
    fun n => toNat_toUInt8 (by omega)
  have hisTail : ∀ n, isTail (0x80 + n % 64).toUInt8 = true := by
    intro n
    rw [isTail_iff, htail]
    omega
  rw [utf8Char]
  by_cases h1 : c.toNat < 0x80
  · -- one byte, the code itself
    have ha := toNat_toUInt8 (n := c.toNat) (by omega)
    have hlt : c.toNat.toUInt8 < 0x80 := by
      rw [UInt8.lt_iff_toNat_lt, ha]
      exact h1
    simp only [h1, if_true, List.cons_append, List.nil_append]
    rw [readUtf8.eq_def]
    simp only [hlt, if_true, ha, Char.ofNat_toNat]
  by_cases h2 : c.toNat < 0x800
  · -- two bytes: a code of at least 0x80 makes the first one at least 0xc2
    have ha := toNat_toUInt8 (n := 0xc0 + c.toNat / 64) (by omega)
    simp only [h1, h2, if_true, if_false, List.cons_append, List.nil_append]
    rw [readUtf8_two (by rw [ha]; omega) (hisTail _)]
    refine congrArg (· :: _) (hback _ ?_)
    simp only [List.foldl_cons, List.foldl_nil, ha, htail]
    omega
  by_cases h3 : c.toNat < 0x10000
  · -- three bytes: that the code is no surrogate is what the second byte after 0xed needs
    have ha := toNat_toUInt8 (n := 0xe0 + c.toNat / 4096) (by omega)
    have hfits : fitsThree (0xe0 + c.toNat / 4096).toUInt8
        (0x80 + c.toNat / 64 % 64).toUInt8 = true := by
      rw [fitsThree_iff, ha, htail]
      omega
    simp only [h1, h2, h3, if_true, if_false, List.cons_append, List.nil_append]
    rw [readUtf8_three (by rw [ha]; omega) hfits (hisTail _)]
    refine congrArg (· :: _) (hback _ ?_)
    simp only [List.foldl_cons, List.foldl_nil, ha, htail]
    omega
  · -- four bytes: that the code is in range is what the second byte after 0xf4 needs
    have ha := toNat_toUInt8 (n := 0xf0 + c.toNat / 262144) (by omega)
    have hfits : fitsFour (0xf0 + c.toNat / 262144).toUInt8
        (0x80 + c.toNat / 4096 % 64).toUInt8 = true := by
      rw [fitsFour_iff, ha, htail]
      omega
    simp only [h1, h2, h3, if_false, List.cons_append, List.nil_append]
    rw [readUtf8_four (by rw [ha]; omega) hfits (hisTail _) (hisTail _)]
    refine congrArg (· :: _) (hback _ ?_)
    simp only [List.foldl_cons, List.foldl_nil, ha, htail]
    omega

/-- **A text is read back from its bytes.** -/
theorem readUtf8_utf8 (cs : List Char) : readUtf8 (utf8 cs) = cs := by
  induction cs with
  | nil => rw [utf8, List.flatMap_nil, readUtf8.eq_def]
  | cons c rest ih =>
      rw [utf8, List.flatMap_cons, readUtf8_utf8Char]
      exact congrArg (c :: ·) ih

end ZoneConsole.Text
