import ZoneConsole.Proofs.Url.Percent
import ZoneConsole.Proofs.Url.Split
import ZoneConsole.Url.Parser

/-!
# Parts of URLs in their encoded form

The sets of characters that are encoded in the parts of a URL hold neither the percent sign nor
the digits of the encoded form.  So an encoded text has no character of its set, and encoding it
once more leaves it as it is; and a segment that names no directory does not begin to name one
when it is encoded.

* **`Encodes`** — such a set; `isEncoded_percentEncode`, `percentEncode_of_isEncoded`.
* **`IsDots`** — the texts that stand for so many dots; `isDots_of_percentEncode`.
-/

namespace ZoneConsole.Url

/-! ### Encoded texts -/

/-- A set of characters that leaves the percent sign, the digits after it and the dot alone, and
    encodes all that is not shown in ASCII. -/
structure Encodes (set : Char → Bool) : Prop where
  percent : set '%' = false
  digits : ∀ n < 16, set (Text.hexDigitUpper n) = false
  dot : set '.' = false
  hidden : ∀ c, c.toNat ≤ 0x20 ∨ 0x7e < c.toNat → set c = true

/-- No character of a text is to be encoded. -/
def IsEncoded (set : Char → Bool) (cs : List Char) : Prop := ∀ c ∈ cs, set c = false

/-- Blanks, controls and what is beyond ASCII. -/
theorem hidden_cases {c : Char} (h : c.toNat ≤ 0x20 ∨ 0x7e < c.toNat) :
    c = ' ' ∨ controlSet c = true := by
  by_cases hblank : c = ' '
  · exact .inl hblank
  · have hne : c.toNat ≠ 0x20 := fun h => hblank (Char.toNat_inj.1 h)
    refine .inr ?_
    rw [controlSet, Bool.or_eq_true, decide_eq_true_eq, decide_eq_true_eq]
    omega

theorem encodes_fragmentSet : Encodes fragmentSet := by
  refine ⟨by decide, by decide, by decide, fun c hc => ?_⟩
  rcases hidden_cases hc with rfl | hcontrol
  · decide
  · rw [fragmentSet, hcontrol, Bool.true_or]

variable {set : Char → Bool} {cs : List Char}

/-- A set stays one when characters are added. -/
theorem Encodes.or (h : Encodes set) {more : Char → Bool} (hpercent : more '%' = false)
    (hdigits : ∀ n < 16, more (Text.hexDigitUpper n) = false) (hdot : more '.' = false) :
    Encodes fun c => set c || more c := by
  refine ⟨?_, fun n hn => ?_, ?_, fun c hc => ?_⟩
  · simp only [h.percent, hpercent, Bool.or_self]
  · simp only [h.digits n hn, hdigits n hn, Bool.or_self]
  · simp only [h.dot, hdot, Bool.or_self]
  · simp only [h.hidden c hc, Bool.true_or]

theorem encodes_pathSet : Encodes pathSet :=
  encodes_fragmentSet.or (by decide) (by decide) (by decide)

theorem encodes_userSet : Encodes userSet :=
  encodes_pathSet.or (by decide) (by decide) (by decide)

theorem encodes_querySet : Encodes specialQuerySet := by
  refine ⟨by decide, by decide, by decide, fun c hc => ?_⟩
  rcases hidden_cases hc with rfl | hcontrol
  · decide
  · rw [specialQuerySet, querySet, hcontrol, Bool.true_or, Bool.true_or]

/-- What is encoded already stays as it is. -/
theorem percentEncode_of_isEncoded (h : IsEncoded set cs) : percentEncode set cs = cs := by
  induction cs with
  | nil => rfl
  | cons c cs ih =>
      obtain ⟨hc, hcs⟩ := List.forall_mem_cons.1 h
      rw [percentEncode, List.flatMap_cons, hc, if_neg Bool.false_ne_true]
      exact congrArg (c :: ·) (ih hcs)

/-- What stands in an encoded text was there before, or belongs to the encoded form of a byte. -/
theorem mem_percentEncode {c : Char} (h : c ∈ percentEncode set cs) :
    (c ∈ cs ∧ set c = false) ∨ c = '%' ∨ ∃ n < 16, c = Text.hexDigitUpper n := by
  obtain ⟨d, hd, hc⟩ := List.mem_flatMap.1 h
  split at hc
  · obtain ⟨b, -, hc⟩ := List.mem_flatMap.1 hc
    have hlt : b.toNat < 256 := UInt8.toNat_lt b
    simp only [percentByte, List.mem_cons, List.not_mem_nil, or_false] at hc
    rcases hc with rfl | rfl | rfl
    · exact .inr (.inl rfl)
    · exact .inr (.inr ⟨_, by omega, rfl⟩)
    · exact .inr (.inr ⟨_, by omega, rfl⟩)
  · rename_i hshown
    rw [List.mem_singleton.1 hc]
    exact .inl ⟨hd, Bool.eq_false_iff.2 hshown⟩

/-- **An encoded text** has no character of the set. -/
theorem isEncoded_percentEncode (hset : Encodes set) (cs : List Char) :
    IsEncoded set (percentEncode set cs) := by
  intro c hc
  rcases mem_percentEncode hc with ⟨-, hc⟩ | rfl | ⟨n, hn, rfl⟩
  · exact hc
  · exact hset.percent
  · exact hset.digits n hn

/-- A part is encoded once it was encoded. -/
theorem isEncoded_ofList (hset : Encodes set) (cs : List Char) :
    IsEncoded set (String.ofList (percentEncode set cs)).toList := by
  rw [String.toList_ofList]
  exact isEncoded_percentEncode hset cs

/-- A part that is encoded already is kept. -/
theorem ofList_percentEncode {s : String} (h : IsEncoded set s.toList) :
    String.ofList (percentEncode set s.toList) = s := by
  rw [percentEncode_of_isEncoded h, String.ofList_toList]

/-- The characters of an encoded text are shown. -/
theorem Encodes.shown (hset : Encodes set) (h : IsEncoded set cs) :
    ∀ c ∈ cs, 0x20 < c.toNat ∧ c.toNat ≤ 0x7e := by
  intro c hc
  by_contra hout
  have hmem := hset.hidden c (by omega)
  rw [h c hc] at hmem
  cases hmem

/-- A character has bytes, and the first of them is that of the dot for the dot alone. -/
theorem utf8Char_cons (c : Char) :
    ∃ b bytes, Text.utf8Char c = b :: bytes ∧ (b = 0x2e → c = '.') := by
  have hback := Text.readUtf8_utf8Char c []
  rw [List.append_nil] at hback
  cases hbytes : Text.utf8Char c with
  | nil =>
      rw [hbytes, Text.readUtf8.eq_def] at hback
      cases hback
  | cons b bytes =>
      refine ⟨b, bytes, rfl, ?_⟩
      rintro rfl
      have hdot : Text.readUtf8 (0x2e :: bytes) = '.' :: Text.readUtf8 bytes := by
        rw [Text.readUtf8.eq_def]
        rfl
      rw [hbytes, hdot] at hback
      exact (List.cons.inj hback).1.symm

/-- A text is not encoded to nothing. -/
theorem percentEncode_ne_nil (h : cs ≠ []) : percentEncode set cs ≠ [] := by
  obtain ⟨c, cs, rfl⟩ := List.exists_cons_of_ne_nil h
  obtain ⟨b, bytes, hbytes, -⟩ := utf8Char_cons c
  rw [percentEncode, List.flatMap_cons, percentChar, hbytes]
  split
  · exact List.cons_ne_nil _ _
  · exact List.cons_ne_nil _ _

/-! ### Dots -/

/-- The text stands for so many dots, each written as it is or encoded. -/
inductive IsDots : List Char → Nat → Prop
  | nil : IsDots [] 0
  | dot {cs n} : IsDots cs n → IsDots ('.' :: cs) (n + 1)
  | encoded {e cs n} : e.toLower = 'e' → IsDots cs n → IsDots ('%' :: '2' :: e :: cs) (n + 1)

/-- Letters are put in lower case as letters, and all else stays. -/
theorem toLower_eq_iff {c d : Char} (hd : d.isAlpha = false) : c.toLower = d ↔ c = d := by
  by_cases hc : c.isUpper = true
  · have hletters : ∀ n < 0x80, (Char.ofNat n).isUpper = true →
        (Char.ofNat n).isAlpha = true ∧ (Char.ofNat n).toLower.isAlpha = true := by decide
    have hrange : 'A'.val ≤ c.val ∧ c.val ≤ 'Z'.val := of_decide_eq_true hc
    have hlt : c.toNat < 0x80 := Nat.lt_of_le_of_lt hrange.2 (by decide)
    have hboth := hletters c.toNat hlt
    rw [Char.ofNat_toNat] at hboth
    obtain ⟨hself, hlower⟩ := hboth hc
    constructor
    · rintro rfl
      rw [hlower] at hd
      cases hd
    · rintro rfl
      rw [hself] at hd
      cases hd
  · have hsame : c.toLower = c := dif_neg fun h => hc (decide_eq_true h)
    rw [hsame]

/-- What stands for one dot. -/
theorem isDot_iff (s : List Char) : isDot s = true ↔ IsDots s 1 := by
  have hpoint : ∀ {c : Char}, c.toLower = '.' ↔ c = '.' := toLower_eq_iff (by decide)
  have hpercent : ∀ {c : Char}, c.toLower = '%' ↔ c = '%' := toLower_eq_iff (by decide)
  have htwo : ∀ {c : Char}, c.toLower = '2' ↔ c = '2' := toLower_eq_iff (by decide)
  simp only [isDot, Bool.or_eq_true, decide_eq_true_eq, List.map_eq_cons_iff, List.map_eq_nil_iff,
    hpoint, hpercent, htwo]
  constructor
  · rintro (⟨c, _, rfl, rfl, rfl⟩ | ⟨c, _, rfl, rfl, d, _, rfl, rfl, e, _, rfl, he, rfl⟩)
    · exact .dot .nil
    · exact .encoded he .nil
  · rintro (_ | h | ⟨he, h⟩)
    · cases h
      exact .inl ⟨_, _, rfl, rfl, rfl⟩
    · cases h
      exact .inr ⟨_, _, rfl, rfl, _, _, rfl, rfl, _, _, rfl, he, rfl⟩

/-- What stands for two dots is put together from what stands for one. -/
theorem isDotDot_iff (s : List Char) : isDotDot s = true ↔ IsDots s 2 := by
  have hone : ∀ {s : List Char}, IsDots s 1 ↔ s.map Char.toLower = ['.'] ∨
      s.map Char.toLower = ['%', '2', 'e'] := fun {s} => by
    rw [← isDot_iff, isDot, Bool.or_eq_true, decide_eq_true_eq, decide_eq_true_eq]
  -- Each of the four forms is one of the two forms of a dot and one of them again.
  have hparts : ∀ {l l' : List Char}, s.map Char.toLower = l ++ l' →
      (∀ {s : List Char}, s.map Char.toLower = l → IsDots s 1) →
      (∀ {s : List Char}, s.map Char.toLower = l' → IsDots s 1) → IsDots s 2 := by
    intro l l' h hl hl'
    obtain ⟨first, second, rfl, hfirst, hsecond⟩ := List.map_eq_append_iff.1 h
    have hdot := hl' hsecond
    rcases hl hfirst with _ | hnil | ⟨he, hnil⟩
    · cases hnil
      exact .dot hdot
    · cases hnil
      exact .encoded he hdot
  have hpoint : ∀ {s : List Char}, s.map Char.toLower = ['.'] → IsDots s 1 :=
    fun h => hone.2 (.inl h)
  have hencoded : ∀ {s : List Char}, s.map Char.toLower = ['%', '2', 'e'] → IsDots s 1 :=
    fun h => hone.2 (.inr h)
  simp only [isDotDot, Bool.or_eq_true, decide_eq_true_eq]
  constructor
  · rintro (((h | h) | h) | h)
    · exact hparts h hpoint hpoint
    · exact hparts h hpoint hencoded
    · exact hparts h hencoded hpoint
    · exact hparts h hencoded hencoded
  · rintro (_ | h | ⟨he, h⟩)
    · rcases hone.1 h with h | h
      · exact .inl (.inl (.inl (congrArg ('.' :: ·) h)))
      · exact .inl (.inl (.inr (congrArg ('.' :: ·) h)))
    · rcases hone.1 h with h | h
      · exact .inl (.inr (by simp [he, h]))
      · exact .inr (by simp [he, h])

/-! ### Dots are not made by encoding -/

/-- A character of the set is encoded as a percent sign and digits that are not those of a dot. -/
theorem percentChar_cons (hset : Encodes set) {c : Char} (hc : set c = true) :
    ∃ high low more, percentChar c = '%' :: high :: low :: more ∧
      ¬ (high = '2' ∧ low.toLower = 'e') := by
  obtain ⟨b, bytes, hbytes, hdot⟩ := utf8Char_cons c
  have hb : b.toNat ≠ 0x2e := fun h => by
    have hc' : set c = false := hdot (UInt8.toNat_inj.1 h) ▸ hset.dot
    rw [hc] at hc'
    cases hc'
  have htwo : ∀ n < 16, Text.hexDigitUpper n = '2' → n = 2 := by decide
  have hletter : ∀ n < 16, (Text.hexDigitUpper n).toLower = 'e' → n = 14 := by decide
  refine ⟨Text.hexDigitUpper (b.toNat / 16), Text.hexDigitUpper (b.toNat % 16),
    bytes.flatMap percentByte, ?_, ?_⟩
  · rw [percentChar, hbytes, List.flatMap_cons]
    rfl
  · rintro ⟨hhigh, hlow⟩
    have hlt := UInt8.toNat_lt b
    have hsix := htwo _ (by omega) hhigh
    have hten := hletter _ (by omega) hlow
    omega

/-- What an encoded text begins with was there before, or a character is encoded in front. -/
theorem percentEncode_eq_cons {s rest : List Char} {d : Char}
    (h : percentEncode set s = d :: rest) :
    (∃ more, s = d :: more ∧ percentEncode set more = rest) ∨
      ∃ c more, set c = true ∧ percentChar c ++ percentEncode set more = d :: rest := by
  cases s with
  | nil => cases h
  | cons c more =>
      rw [percentEncode, List.flatMap_cons] at h
      split at h
      · exact .inr ⟨c, more, ‹_›, h⟩
      · obtain ⟨rfl, hmore⟩ := List.cons.inj h
        exact .inl ⟨more, rfl, hmore⟩

/-- **Dots are not made by encoding.** -/
theorem isDots_of_percentEncode (hset : Encodes set) {s t : List Char} {n : Nat}
    (h : IsDots t n) (ht : percentEncode set s = t) : IsDots s n := by
  -- By induction on the dots.  What begins with anything but a percent sign was not encoded, and
  -- after the sign of an encoded character there are not the digits of a dot.
  have hhead : ∀ {s d rest}, percentEncode set s = d :: rest → d ≠ '%' →
      ∃ more, s = d :: more ∧ percentEncode set more = rest := by
    intro s d rest hs hd
    rcases percentEncode_eq_cons hs with h | ⟨c, more, hc, hs⟩
    · exact h
    · obtain ⟨high, low, tail, htail, -⟩ := percentChar_cons hset hc
      rw [htail] at hs
      exact absurd (List.cons.inj hs).1.symm hd
  induction h generalizing s with
  | nil =>
      have hs : s = [] := Decidable.byContradiction fun hne => percentEncode_ne_nil hne ht
      rw [hs]
      exact .nil
  | dot _ ih =>
      obtain ⟨more, rfl, hmore⟩ := hhead ht (by decide)
      exact .dot (ih hmore)
  | @encoded e cs n he _ ih =>
      rcases percentEncode_eq_cons ht with ⟨s₁, rfl, h₁⟩ | ⟨c, more, hc, hmore⟩
      · have hne : e ≠ '%' := by
          rintro rfl
          exact absurd he (by decide)
        obtain ⟨s₂, rfl, h₂⟩ := hhead h₁ (by decide)
        obtain ⟨s₃, rfl, h₃⟩ := hhead h₂ hne
        exact .encoded he (ih h₃)
      · obtain ⟨high, low, tail, htail, hdigits⟩ := percentChar_cons hset hc
        rw [htail] at hmore
        obtain ⟨-, hhigh⟩ := List.cons.inj hmore
        obtain ⟨hhigh, hlow⟩ := List.cons.inj hhigh
        obtain ⟨hlow, -⟩ := List.cons.inj hlow
        exact absurd ⟨hhigh, hlow ▸ he⟩ hdigits

end ZoneConsole.Url
