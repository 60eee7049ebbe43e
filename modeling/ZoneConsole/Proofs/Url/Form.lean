import ZoneConsole.Proofs.Text.Digits
import ZoneConsole.Proofs.Url.Percent

/-!
# Forms are read back

The pairs of a form are parted by ampersands, and the two halves of a pair by the first equals
sign.  Neither of them stands in an encoded text, so whatever the pairs say is read back.

* **`mem_formEncode`** — the characters of an encoded text.
* **`formDecode_formEncode`** — a text is read back.
* **`readForm_formPairs`** — so are the pairs of a form.
-/

namespace ZoneConsole.Url

open Text

/-! ### Texts of a form -/

theorem formSet_hexDigitUpper : ∀ n < 16, formSet (hexDigitUpper n) = true := by decide

/-- An encoded character is written in percent signs and digits. -/
theorem mem_percentChar {c d : Char} (h : d ∈ percentChar c) : formSet d = true ∨ d = '%' := by
  obtain ⟨b, -, hd⟩ := List.mem_flatMap.1 h
  have hlt : b.toNat < 256 := UInt8.toNat_lt b
  simp only [percentByte, List.mem_cons, List.not_mem_nil, or_false] at hd
  rcases hd with rfl | rfl | rfl
  · exact .inr rfl
  · exact .inl (formSet_hexDigitUpper _ (by omega))
  · exact .inl (formSet_hexDigitUpper _ (by omega))

/-- **The characters of a text in a form**: those that stand for themselves, the plus sign and
    the percent sign. -/
theorem mem_formEncode {cs : List Char} {d : Char} (h : d ∈ formEncode cs) :
    formSet d = true ∨ d = '+' ∨ d = '%' := by
  obtain ⟨c, -, hd⟩ := List.mem_flatMap.1 h
  split at hd
  · obtain rfl := List.mem_singleton.1 hd
    exact .inl ‹_›
  · split at hd
    · exact .inr (.inl (List.mem_singleton.1 hd))
    · exact (mem_percentChar hd).imp_right .inr

/-- What parts a form does not stand in its texts. -/
theorem ne_of_mem_formEncode {cs : List Char} {c d : Char} (h : d ∈ formEncode cs)
    (hset : formSet c = false) (hplus : c ≠ '+') (hpercent : c ≠ '%') : d ≠ c := by
  rintro rfl
  rcases mem_formEncode h with h | h | h
  · rw [hset] at h
    cases h
  · exact hplus h
  · exact hpercent h

/-- The plus sign stands for the blank. -/
def blankOfPlus (c : Char) : Char := if c = '+' then ' ' else c

theorem map_blankOfPlus_percentChar (c : Char) :
    (percentChar c).map blankOfPlus = percentChar c := by
  refine (List.map_congr_left fun d hd => ?_).trans (List.map_id _)
  refine if_neg ?_
  rintro rfl
  rcases mem_percentChar hd with h | h
  · exact absurd h (by decide)
  · exact absurd h (by decide)

/-- The bytes of a text in a form are those of the text. -/
theorem percentDecode_formEncode (cs : List Char) :
    percentDecode ((formEncode cs).map blankOfPlus) = utf8 cs := by
  induction cs with
  | nil => rfl
  | cons c more ih =>
      rw [formEncode, List.flatMap_cons, List.map_append, utf8, List.flatMap_cons]
      by_cases hself : formSet c = true
      · have hplus : c ≠ '+' := by
          rintro rfl
          exact absurd hself (by decide)
        have hpercent : c ≠ '%' := by
          rintro rfl
          exact absurd hself (by decide)
        rw [if_pos hself, List.map_singleton, blankOfPlus, if_neg hplus, List.singleton_append,
          percentDecode_cons hpercent]
        exact congrArg (_ ++ ·) ih
      rw [if_neg hself]
      by_cases hblank : c = ' '
      · subst hblank
        rw [if_pos rfl, List.map_singleton]
        show percentDecode (' ' :: _) = _
        rw [percentDecode_cons (by decide)]
        exact congrArg (_ ++ ·) ih
      · rw [if_neg hblank, map_blankOfPlus_percentChar, percentChar, percentDecode_bytes]
        exact congrArg (_ ++ ·) ih

/-- **A text is read back from a form.** -/
theorem formDecode_formEncode (s : String) : formDecode (formEncode s.toList) = s := by
  show String.ofList (readUtf8 (percentDecode ((formEncode s.toList).map blankOfPlus))) = s
  rw [percentDecode_formEncode, readUtf8_utf8, String.ofList_toList]

/-! ### Pairs of a form -/

theorem splitOn_eq_splitOnP (sep : Char → Bool) (cs : List Char) :
    splitOn sep cs = cs.splitOnP sep := by
  induction cs with
  | nil => rw [List.splitOnP_nil, splitOn]
  | cons c rest ih =>
      rw [splitOn, List.splitOnP_cons_eq_if_modifyHead, ih]
      split
      · rfl
      · obtain ⟨part, parts, hparts⟩ := List.exists_cons_of_ne_nil (List.splitOnP_ne_nil sep rest)
        rw [hparts, List.modifyHead_cons]

/-- Parts that are written with a character between them are read back. -/
theorem splitOn_intercalate (sep : Char) {parts : List (List Char)}
    (h : ∀ part ∈ parts, sep ∉ part) (hne : parts ≠ []) :
    splitOn (· = sep) (List.intercalate [sep] parts) = parts := by
  rw [splitOn_eq_splitOnP]
  exact List.splitOn_eq_splitOnP.symm.trans (List.splitOn_intercalate sep h hne)

/-- No ampersand stands in a pair. -/
theorem amp_notMem_formPair (key value : String) : '&' ∉ formPair key value := by
  have hnone (cs : List Char) : '&' ∉ formEncode cs := fun h =>
    ne_of_mem_formEncode h (by decide) (by decide) (by decide) rfl
  rw [formPair, List.mem_append, List.mem_cons]
  exact not_or.2 ⟨hnone _, not_or.2 ⟨by decide, hnone _⟩⟩

/-- The halves of a pair are those around its first equals sign. -/
theorem halves_formPair (key value : String) :
    (formPair key value).takeWhile (· ≠ '=') = formEncode key.toList ∧
      ((formPair key value).dropWhile (· ≠ '=')).drop 1 = formEncode value.toList := by
  have hkey : ∀ d ∈ formEncode key.toList, decide (d ≠ '=') = true := fun d hd =>
    decide_eq_true (ne_of_mem_formEncode hd (by decide) (by decide) (by decide))
  have hstops : Stops (· ≠ '=') ('=' :: formEncode value.toList) := stops_cons (by decide) _
  exact ⟨takeWhile_stops hkey hstops, congrArg (List.drop 1) (dropWhile_stops hkey hstops)⟩

/-- **The pairs of a form are read back.** -/
theorem readForm_formPairs (pairs : List (String × String)) :
    readForm (formPairs pairs) = pairs := by
  cases hpairs : pairs with
  | nil => rfl
  | cons pair rest =>
      rw [← hpairs]
      have hsplit : splitOn (· = '&') (formPairs pairs) =
          pairs.map fun pair => formPair pair.1 pair.2 := by
        refine splitOn_intercalate '&' ?_ (by simp [hpairs])
        intro part hpart
        obtain ⟨⟨k, v⟩, -, rfl⟩ := List.mem_map.1 hpart
        exact amp_notMem_formPair k v
      have hshown : (pairs.map fun pair => formPair pair.1 pair.2).filter (!·.isEmpty) =
          pairs.map fun pair => formPair pair.1 pair.2 := by
        refine List.filter_eq_self.2 ?_
        intro part hpart
        obtain ⟨⟨k, v⟩, -, rfl⟩ := List.mem_map.1 hpart
        simp [formPair]
      rw [readForm, hsplit, hshown, List.map_map]
      refine (List.map_congr_left ?_).trans (List.map_id pairs)
      rintro ⟨k, v⟩ -
      obtain ⟨hkey, hvalue⟩ := halves_formPair k v
      show (formDecode _, formDecode _) = (k, v)
      rw [hkey, hvalue, formDecode_formEncode, formDecode_formEncode]

end ZoneConsole.Url
