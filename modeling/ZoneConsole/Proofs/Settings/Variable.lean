import Mathlib.Data.List.TakeWhile
import ZoneConsole.Settings.Choice
import ZoneConsole.Settings.Variable

/-!
# What a variable of the environment is read as

The text of a variable is read as a value, and most texts stand for themselves: those that begin
like no other value and end in no blank.  Other texts change on the way.

* **`Variable.value_of_blank`** — a blank text is read as an empty one.
* **`Variable.value_of_beginsText`** — a text that begins like one is read as itself, whatever
  follows.
-/

namespace ZoneConsole

/-- A blank text is made of blanks only. -/
theorem isBlank_of_isBlankText {v : String} (h : isBlankText v = true) :
    ∀ c ∈ v.toList, Text.isBlank c = true := by
  have htrimmed : Text.trimChars v.toList = [] := by
    simpa [isBlankText, Text.trim] using h
  rw [Text.trimChars, List.reverse_eq_nil_iff, List.dropWhile_eq_nil_iff] at htrimmed
  -- what stands after the first blanks would begin with another character
  have hdropped : v.toList.dropWhile Text.isBlank = [] := by
    cases hrest : v.toList.dropWhile Text.isBlank with
    | nil => rfl
    | cons c rest =>
        have hc := htrimmed c (by simp [hrest])
        have hnot := List.head_dropWhile_not Text.isBlank (l := v.toList) (by simp [hrest])
        simp only [hrest, List.head_cons, hc] at hnot
        cases hnot
  exact List.dropWhile_eq_nil_iff.1 hdropped

namespace Variable

theorem isBlank_of_isGap {c : Char} (h : isGap c = true) : Text.isBlank c = true := by
  simp only [isGap, Bool.or_eq_true, decide_eq_true_iff] at h
  rcases h with (((rfl | rfl) | rfl) | rfl) | hfeed
  · rfl
  · rfl
  · rfl
  · rfl
  · simp [Text.isBlank, hfeed]

theorem isBlank_of_isDelimiter {c : Char} (h : isDelimiter c = true) : Text.isBlank c = false := by
  simp only [isDelimiter, List.contains_eq_mem, List.mem_cons, List.not_mem_nil, or_false,
    decide_eq_true_iff] at h
  rcases h with rfl | rfl | rfl | rfl | rfl <;> rfl

/-- **A blank text is read as an empty one.** -/
theorem value_of_blank {v : String} (h : isBlankText v = true) : value v = .str "" := by
  have hblank := isBlank_of_isBlankText h
  have hskipped : ∀ c ∈ skipGaps v.toList, Text.isBlank c = true :=
    fun c hc => hblank c (List.dropWhile_subset _ hc)
  have hread : readValue (2 * v.length + 1 + 1) v.toList = some (.str "", []) := by
    rw [readValue]
    generalize skipGaps v.toList = cs at hskipped
    -- a blank begins no value but a text without quotes
    split
    case h_1 r => exact absurd (hskipped 't' List.mem_cons_self) (by decide)
    case h_2 r => exact absurd (hskipped 'f' List.mem_cons_self) (by decide)
    case h_3 r => exact absurd (hskipped '\x7b' List.mem_cons_self) (by decide)
    case h_4 r => exact absurd (hskipped '[' List.mem_cons_self) (by decide)
    case h_5 r => exact absurd (hskipped '"' List.mem_cons_self) (by decide)
    case h_6 c r => exact absurd (hskipped '\'' List.mem_cons_self) (by decide)
    case h_7 r => exact absurd (hskipped '\'' List.mem_cons_self) (by decide)
    case h_8 =>
      have hopen : ∀ c ∈ cs, (!isDelimiter c) = true := by
        intro c hc
        cases hdelimiter : isDelimiter c with
        | false => rfl
        | true =>
            exact absurd ((isBlank_of_isDelimiter hdelimiter).symm.trans (hskipped c hc)) nofun
      have htrimmed : Text.trimChars cs = [] := by
        rw [Text.trimChars, List.dropWhile_eq_nil_iff.2 hskipped]
        rfl
      rw [List.takeWhile_eq_self_iff.2 hopen, List.dropWhile_eq_nil_iff.2 hopen, htrimmed]
      rfl
  rw [value, hread]

/-- Does only a text without quotes begin with the character? -/
def beginsText (c : Char) : Bool :=
  !(Text.isBlank c || isDelimiter c || Text.isDigit c ||
    ['t', 'f', '"', '\'', '+', '-', '.'].contains c)

/-- What begins like a text is no number. -/
theorem bare_of_beginsText {c : Char} (hc : beginsText c = true) (cs : List Char) :
    bare (c :: cs) = .str (String.ofList (c :: cs)) := by
  have hsign : Text.takeSign (c :: cs) = (false, c :: cs) := by
    unfold Text.takeSign
    split
    case h_1 heq =>
      cases heq
      exact absurd hc (by decide)
    case h_2 heq =>
      cases heq
      exact absurd hc (by decide)
    case h_3 => rfl
  have hdigit : Text.isDigit c = false := by
    simp only [beginsText, Bool.not_eq_true', Bool.or_eq_false_iff] at hc
    exact hc.1.2
  -- it is no number of either kind, since neither a sign nor a digit begins it
  have hreal : real? (c :: cs) = none := by
    have hread : Binary64.read? (c :: cs) = none := by
      rw [Binary64.read?, hsign]
      simp only [List.takeWhile_cons, List.dropWhile_cons, hdigit, Bool.false_eq_true, if_false]
      refine if_pos ?_
      split
      case h_1 heq =>
        cases heq
        exact absurd hc (by decide)
      case h_2 => rfl
    rw [real?, hread]
    exact ite_self _
  have hwhole : whole? (c :: cs) = none := by
    rw [whole?, hsign]
    simp [Text.digits?, hdigit]
  rw [bare, hreal, hwhole]
  rfl

/-- **A text that begins like one and ends in no blank is read as itself.** -/
theorem value_of_beginsText {v : String} {c : Char} {rest : List Char} (hv : v.toList = c :: rest)
    (hc : beginsText c = true) (hend : Text.trimEnd v.toList = v.toList) : value v = .str v := by
  have hblank : Text.isBlank c = false := by
    simp only [beginsText, Bool.not_eq_true', Bool.or_eq_false_iff] at hc
    exact hc.1.1.1
  have hskipped : skipGaps v.toList = c :: rest := by
    have hgap : isGap c = false := Bool.eq_false_iff.2 fun h =>
      absurd (hblank.symm.trans (isBlank_of_isGap h)) nofun
    rw [hv, skipGaps, List.dropWhile_cons_of_neg (by simp [hgap])]
  have hread : readValue (2 * v.length + 1 + 1) v.toList =
      some (bare (Text.trimChars (v.toList.takeWhile (!isDelimiter ·))),
        skipGaps (v.toList.dropWhile (!isDelimiter ·))) := by
    rw [readValue, hskipped, hv]
    split
    case h_8 => rfl
    all_goals
      rename_i heq
      cases heq
      exact absurd hc (by decide)
  rw [value, hread]
  cases hrest : v.toList.dropWhile (!isDelimiter ·) with
  | nil =>
      have hopen := List.takeWhile_eq_self_iff.2 (List.dropWhile_eq_nil_iff.1 hrest)
      have htrimmed : Text.trimChars v.toList = v.toList := by
        have hkept : v.toList.dropWhile Text.isBlank = v.toList := by
          rw [hv, List.dropWhile_cons_of_neg (by simp [hblank])]
        rw [Text.trimChars, hkept]
        exact hend
      rw [hopen, htrimmed, hv, bare_of_beginsText hc, ← hv, String.ofList_toList]
      rfl
  | cons d more =>
      -- a delimiter and all after it are left, so the text is no value as a whole
      have hnot := List.head_dropWhile_not (!isDelimiter ·) (l := v.toList) (by simp [hrest])
      have hdelimiter : isDelimiter d = true := by simpa [hrest] using hnot
      have hgap : isGap d = false := Bool.eq_false_iff.2 fun h =>
        absurd ((isBlank_of_isDelimiter hdelimiter).symm.trans (isBlank_of_isGap h)) nofun
      rw [skipGaps, List.dropWhile_cons_of_neg (by simp [hgap])]

end Variable

end ZoneConsole
