import ZoneConsole.Proofs.Url.Form
import ZoneConsole.Proofs.Url.Punycode
import ZoneConsole.Proofs.Url.Split
import ZoneConsole.Url.Host

/-!
# Names of hosts in their ASCII form

The ASCII form of a name is one that is read as itself.  Folding a letter twice is folding it
once, no folded letter is one that shows nothing, and a label that was encoded is decoded to a
label that encodes to it.

* **`IsFolded`** — a character that folding leaves as it is; `isFolded_foldCase`.
* **`isForm_of_asciiLabel`** — the form of a label has itself for a form.
* **`asciiName_idem`** — so it is for a whole name.
-/

namespace ZoneConsole

/-! ### Folded characters -/

/-- Folding leaves the character as it is, and it shows something. -/
structure IsFolded (c : Char) : Prop where
  same : foldCase c = c
  shown : isIgnorable c = false

theorem toNat_ofNat {n : Nat} (h : n < 0xd800) : (Char.ofNat n).toNat = n := by
  rw [Char.ofNat, dif_pos (.inl h)]
  rfl

/-- A code is one of a letter in a block of pairs that has a lower case. -/
def IsUpperOfPair (n : Nat) : Prop :=
  ∃ p ∈ foldCase.paired, p.1 ≤ n ∧ n ≤ p.2 ∧ n % 2 = p.1 % 2

theorem paired_any_iff (n : Nat) :
    (foldCase.paired.any fun (first, last) => first ≤ n && n ≤ last && n % 2 = first % 2) = true ↔
      IsUpperOfPair n := by
  simp only [List.any_eq_true, Bool.and_eq_true, decide_eq_true_eq, and_assoc, IsUpperOfPair]

/-- A character that is in none of the blocks that folding changes. -/
theorem isFolded_ofNat {m : Nat} (hrange : 0xe0 ≤ m ∧ m < 0x2000)
    (hblocks : ¬ (0x391 ≤ m ∧ m ≤ 0x3a9) ∧ ¬ (0x400 ≤ m ∧ m ≤ 0x42f) ∧
      ¬ (0x531 ≤ m ∧ m ≤ 0x556) ∧ m ≠ 0x178)
    (hshown : m ≠ 0x34f ∧ ¬ (0x180b ≤ m ∧ m ≤ 0x180d)) (hpaired : ¬ IsUpperOfPair m) :
    IsFolded (Char.ofNat m) := by
  have hcode : (Char.ofNat m).toNat = m := toNat_ofNat (by omega)
  constructor
  · rw [← paired_any_iff, Bool.not_eq_true] at hpaired
    unfold foldCase
    simp only [hcode, hpaired, Bool.or_eq_true, Bool.and_eq_true, decide_eq_true_eq, bne_iff_ne,
      ne_eq]
    rw [if_neg (by omega), if_neg (by omega), if_neg (by omega), if_neg (by omega),
      if_neg (by omega), if_neg (by omega), if_neg (by omega), if_neg (by simp)]
  · unfold isIgnorable
    simp only [hcode, Bool.or_eq_false_iff, Bool.and_eq_false_iff, decide_eq_false_iff_not]
    omega

/-- Folded letters of ASCII. -/
theorem fold_ascii : ∀ n < 0x80, foldCase (Char.ofNat n).toLower = (Char.ofNat n).toLower ∧
    isIgnorable (Char.ofNat n).toLower = false := by decide +kernel

/-- The blocks of pairs are apart from each other, unless they go by the same parity, and from all
    else that is folded. -/
theorem paired_apart :
    (∀ p ∈ foldCase.paired, ∀ q ∈ foldCase.paired,
      p.2 + 1 < q.1 ∨ q.2 < p.1 + 1 ∨ p.1 % 2 = q.1 % 2) ∧
    ∀ p ∈ foldCase.paired, 0x100 ≤ p.1 ∧ p.2 < 0x1eff ∧ (p.2 < 0x177 ∨ 0x178 ≤ p.1) ∧
      (p.2 < 0x34e ∨ 0x3c9 < p.1) ∧ (p.2 < 0x3ff ∨ 0x45f < p.1) ∧ (p.2 < 0x530 ∨ 0x586 < p.1) ∧
      (p.2 < 0x180a ∨ 0x180d ≤ p.1) := by decide

/-- Codes of other blocks are in no block of pairs. -/
theorem not_isUpperOfPair {m : Nat} (h : m < 0x100 ∨ (0x350 ≤ m ∧ m ≤ 0x3c9) ∨
    (0x400 ≤ m ∧ m ≤ 0x45f) ∨ (0x531 ≤ m ∧ m ≤ 0x586)) : ¬ IsUpperOfPair m := by
  rintro ⟨p, hp, hle, hge, -⟩
  have hapart := paired_apart.2 p hp
  omega

/-- The lower case of a letter in a block of pairs is folded. -/
theorem isFolded_succ_of_pair {n : Nat} (h : IsUpperOfPair n) : IsFolded (Char.ofNat (n + 1)) := by
  obtain ⟨p, hp, hle, hge, hparity⟩ := h
  have hapart := paired_apart.2 p hp
  refine isFolded_ofNat (by omega) (by omega) (by omega) ?_
  rintro ⟨q, hq, hle', hge', hparity'⟩
  have hother := paired_apart.1 p hp q hq
  omega

/-- **A folded character stays as it is.** -/
theorem isFolded_foldCase {c : Char} (hc : isIgnorable c = false) : IsFolded (foldCase c) := by
  have hascii : ∀ n < 0x80, IsFolded (Char.ofNat n).toLower := fun n hn =>
    ⟨(fold_ascii n hn).1, (fold_ascii n hn).2⟩
  -- What no block changes is folded already.
  have hsame : foldCase c = c → IsFolded (foldCase c) := fun h => by
    rw [h]
    exact ⟨h, hc⟩
  generalize hfold : foldCase c = d at hsame ⊢
  unfold foldCase at hfold
  simp only [Bool.or_eq_true, Bool.and_eq_true, decide_eq_true_eq, bne_iff_ne, ne_eq] at hfold
  split at hfold
  · rename_i hlow
    have hfolded := hascii c.toNat hlow
    rwa [Char.ofNat_toNat, hfold] at hfolded
  split at hfold
  · subst hfold
    exact isFolded_ofNat (by omega) (by omega) (by omega) (not_isUpperOfPair (by omega))
  split at hfold
  · subst hfold
    exact isFolded_ofNat (by omega) (by omega) (by omega) (not_isUpperOfPair (by omega))
  split at hfold
  · subst hfold
    exact isFolded_ofNat (by omega) (by omega) (by omega) (not_isUpperOfPair (by omega))
  split at hfold
  · subst hfold
    exact ⟨by decide, by decide⟩
  split at hfold
  · subst hfold
    exact hascii _ (by omega)
  split at hfold
  · subst hfold
    exact ⟨by decide, by decide⟩
  split at hfold
  · subst hfold
    exact isFolded_succ_of_pair ((paired_any_iff _).1 ‹_›)
  · exact hsame hfold.symm

/-- The name is written with folded characters only. -/
def IsFoldedName (name : List Char) : Prop := ∀ c ∈ name, IsFolded c

theorem isFoldedName_foldName (name : List Char) : IsFoldedName (foldName name) := by
  intro c hc
  obtain ⟨d, hd, rfl⟩ := List.mem_map.1 hc
  refine isFolded_foldCase ?_
  simpa using (List.mem_filter.1 hd).2

/-- Such a name is folded to itself. -/
theorem IsFoldedName.foldName_eq {name : List Char} (h : IsFoldedName name) :
    foldName name = name := by
  have hfilter : name.filter (!isIgnorable ·) = name :=
    List.filter_eq_self.2 fun c hc => by rw [(h c hc).shown]; rfl
  rw [foldName, hfilter]
  exact (List.map_congr_left fun c hc => (h c hc).same).trans (List.map_id _)

namespace Host

/-! ### Labels -/

/-- The ASCII form of a label: it is folded, has no dot, and is its own form. -/
structure IsForm (label : List Char) : Prop where
  folded : IsFoldedName label
  noDot : '.' ∉ label
  same : asciiLabel label = some label

theorem isFoldedName_encode {label : List Char} (hfolded : IsFoldedName label)
    (hdot : '.' ∉ label) :
    IsFoldedName ("xn--".toList ++ Punycode.encode label) ∧
      '.' ∉ "xn--".toList ++ Punycode.encode label := by
  -- an encoded label has characters of the label, its mark and digits
  have hmem : ∀ c ∈ "xn--".toList ++ Punycode.encode label,
      c ∈ label ∨ c ∈ "xn--".toList ∨ ∃ d < 36, c = Punycode.digit d := by
    intro c hc
    obtain ⟨written, hdigits, hencode, -⟩ := Punycode.encode_eq label
    rw [hencode] at hc
    rcases List.mem_append.1 hc with hc | hc
    · exact .inr (.inl hc)
    rcases List.mem_append.1 hc with hc | hc
    · split at hc
      · cases hc
      · rcases List.mem_append.1 hc with hc | hc
        · exact .inl (List.mem_filter.1 hc).1
        · obtain rfl := List.mem_singleton.1 hc
          exact .inr (.inl (by decide))
    · exact .inr (.inr (hdigits c hc))
  have hmark : ∀ c ∈ "xn--".toList, (foldCase c = c ∧ isIgnorable c = false) ∧ c ≠ '.' := by
    have hall : ("xn--".toList.all fun c =>
        decide ((foldCase c = c ∧ isIgnorable c = false) ∧ c ≠ '.')) = true := by decide
    exact fun c hc => of_decide_eq_true (List.all_eq_true.1 hall c hc)
  have hdigit : ∀ d < 36, (foldCase (Punycode.digit d) = Punycode.digit d ∧
      isIgnorable (Punycode.digit d) = false) ∧ Punycode.digit d ≠ '.' := by decide +kernel
  constructor
  · intro c hc
    rcases hmem c hc with hc | hc | ⟨d, hd, rfl⟩
    · exact hfolded c hc
    · exact ⟨(hmark c hc).1.1, (hmark c hc).1.2⟩
    · exact ⟨(hdigit d hd).1.1, (hdigit d hd).1.2⟩
  · intro hc
    rcases hmem _ hc with hc | hc | ⟨d, hd, heq⟩
    · exact hdot hc
    · exact (hmark _ hc).2 rfl
    · exact (hdigit d hd).2 heq.symm

/-- An encoded label is shown as what it was encoded from. -/
theorem shown?_encode {label : List Char} (hfolded : IsFoldedName label)
    (hother : label.all (·.toNat < 0x80) = false) :
    Punycode.shown? (Punycode.encode label) = some label := by
  have hany : label.any (0x80 ≤ ·.toNat) = true := by
    rw [List.any_eq_true]
    rw [List.all_eq_false] at hother
    obtain ⟨c, hc, hlow⟩ := hother
    exact ⟨c, hc, by simpa using hlow⟩
  rw [Punycode.shown?, Punycode.decode_encode, Option.filter_some, if_pos]
  simp [hany, hfolded.foldName_eq]

/-- **The form of a folded label** is its own form. -/
theorem isForm_of_asciiLabel {label form : List Char} (hfolded : IsFoldedName label)
    (hdot : '.' ∉ label) (h : asciiLabel label = some form) : IsForm form := by
  have h' := h
  unfold asciiLabel at h
  simp only at h
  split at h
  · cases h
  rename_i shown hshown
  split at h
  · cases h
  rename_i hnamed
  split at h
  · obtain rfl := Option.some.inj h
    exact ⟨hfolded, hdot, h'⟩
  · rename_i hother
    obtain rfl := Option.some.inj h
    rw [Bool.or_eq_true, not_or, Bool.not_eq_true, Bool.not_eq_true] at hother
    rw [hother.1, if_neg Bool.false_ne_true] at hshown
    obtain rfl := Option.some.inj hshown
    obtain ⟨hfolded', hdot'⟩ := isFoldedName_encode hfolded hdot
    refine ⟨hfolded', hdot', ?_⟩
    have htake : ("xn--".toList ++ Punycode.encode label).take 4 = "xn--".toList :=
      List.take_left' rfl
    have hdrop : ("xn--".toList ++ Punycode.encode label).drop 4 = Punycode.encode label :=
      List.drop_left' rfl
    simp only [asciiLabel, htake, hdrop, beq_self_eq_true, if_true,
      shown?_encode hfolded hother.2, hnamed, Bool.true_or]
    rfl

/-! ### Names -/

/-- A name of such labels is folded, and its own form. -/
theorem asciiName_of_isForm {labels : List (List Char)} (h : ∀ label ∈ labels, IsForm label)
    (hne : labels ≠ []) :
    asciiName (List.intercalate ['.'] labels) = some (List.intercalate ['.'] labels) := by
  have hfolded : IsFoldedName (List.intercalate ['.'] labels) := by
    intro c hc
    rcases Url.mem_intercalate hc with rfl | ⟨label, hlabel, hc⟩
    · exact ⟨by decide, by decide⟩
    · exact (h label hlabel).folded c hc
  have hsplit := Url.splitOn_intercalate '.' (fun label hlabel => (h label hlabel).noDot) hne
  have hforms : labels.mapM asciiLabel = some labels :=
    Url.mapM_eq_some_iff.2 (List.forall₂_same.2 fun label hlabel => (h label hlabel).same)
  rw [asciiName, hfolded.foldName_eq, hsplit, hforms]
  rfl

/-- The labels of a form are forms. -/
theorem exists_isForm {cs name : List Char} (h : asciiName cs = some name) :
    ∃ forms, (∀ form ∈ forms, IsForm form) ∧ forms ≠ [] ∧
      name = List.intercalate ['.'] forms := by
  obtain ⟨forms, hforms, rfl⟩ := Option.map_eq_some_iff.1 h
  rw [Url.mapM_eq_some_iff] at hforms
  refine ⟨forms, fun form hform => ?_, ?_, rfl⟩
  · obtain ⟨i, hi, rfl⟩ := List.mem_iff_getElem.1 hform
    have hlabel := hforms.get (hforms.length_eq ▸ hi) hi
    have hpart := List.getElem_mem (hforms.length_eq ▸ hi)
    refine isForm_of_asciiLabel (fun c hc => ?_) (fun hdot => ?_) hlabel
    · exact isFoldedName_foldName cs c (Url.mem_splitOn hpart hc).1
    · simpa using (Url.mem_splitOn hpart hdot).2
  · rintro rfl
    exact Url.splitOn_ne_nil _ _ (List.forall₂_nil_right_iff.1 hforms)

/-- **The form of a name is its own form.** -/
theorem asciiName_idem {cs name : List Char} (h : asciiName cs = some name) :
    asciiName name = some name := by
  obtain ⟨forms, hforms, hne, rfl⟩ := exists_isForm h
  exact asciiName_of_isForm hforms hne

end Host

end ZoneConsole
