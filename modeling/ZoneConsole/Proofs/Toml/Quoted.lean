import Mathlib.Tactic.SplitIfs
import ZoneConsole.Proofs.Text.Digits
import ZoneConsole.Toml.Quoted

/-!
# Texts and names in TOML come back

A text has six ways to be written and a name four.  Each of the readers undoes its own form; that
the form which was chosen is one that its reader undoes is what the conditions of the choice say.

* **`escapeChar_cases`** — a character is escaped, or stands for itself and may do so.
* **`takeWhile_le_longestRun`** — no run of quotes in a text is longer than the longest one, so
  the marks of three that close a text do not stand in it.
* **`readText_writeText`**, **`readNamePart_writeName`** — texts and names come back.
-/

namespace ZoneConsole.Toml

open Text

/-! ### Escapes -/

/-- A character whose escape is a backslash and something that is read as the character. -/
structure Escaped (c : Char) (text : List Char) : Prop where
  starts : ∃ mark more, text = '\\' :: mark :: more ∧
    isSpace mark = false ∧ mark ≠ '\n' ∧ mark ≠ '\r'
  reads : ∀ rest, readEscape (text.tail ++ rest) = some (c, rest)

/-- A character that stands for itself in double quotes. -/
structure Plain (lines : Bool) (c : Char) : Prop where
  notQuote : c ≠ '"'
  notBackslash : c ≠ '\\'
  notControl : isControl c = false
  notLine : lines = false → c ≠ '\n'

theorem hexNumber_hexDigitUpper {n : Nat} (hn : n < 256) :
    hexNumber ['0', '0', hexDigitUpper (n / 16), hexDigitUpper (n % 16)] = some n := by
  have hhigh := hexValue?_hexDigitUpper (n := n / 16) (by omega)
  have hlow := hexValue?_hexDigitUpper (n := n % 16) (by omega)
  have hzero : hexValue? '0' = some 0 := rfl
  simp only [hexNumber, List.foldl_cons, List.foldl_nil, hzero, hhigh, hlow]
  congr 1
  omega

theorem readEscape_unit {c : Char} (hc : c.toNat < 256) (rest : List Char) :
    readEscape ('u' :: '0' :: '0' :: hexDigitUpper (c.toNat / 16) :: hexDigitUpper (c.toNat % 16)
      :: rest) = some (c, rest) := by
  have hchar : charOfCode c.toNat = some c := by
    rw [charOfCode, if_pos (.inl (by omega)), Char.ofNat_toNat]
  have hnumber := hexNumber_hexDigitUpper hc
  rw [readEscape, if_neg (by simp)]
  show ((hexNumber [_, _, _, _]).bind charOfCode).map _ = _
  rw [hnumber, Option.bind_some, hchar]
  rfl

/-- A character is escaped or stands for itself. -/
theorem escapeChar_cases (lines : Bool) (c : Char) :
    Escaped c (escapeChar lines c) ∨ escapeChar lines c = [c] ∧ Plain lines c := by
  rw [escapeChar]
  split_ifs with hquote hbackslash hbell htab hline hlines hform hreturn hcontrol
  · subst hquote
    exact .inl ⟨⟨_, _, rfl, by decide⟩, fun _ => rfl⟩
  · subst hbackslash
    exact .inl ⟨⟨_, _, rfl, by decide⟩, fun _ => rfl⟩
  · obtain rfl : c = '\x08' := Char.toNat_inj.1 hbell
    exact .inl ⟨⟨_, _, rfl, by decide⟩, fun _ => rfl⟩
  · subst htab
    exact .inl ⟨⟨_, _, rfl, by decide⟩, fun _ => rfl⟩
  · subst hline
    exact .inr ⟨rfl, by decide, by decide, by decide, fun h => by simp [hlines] at h⟩
  · subst hline
    exact .inl ⟨⟨_, _, rfl, by decide⟩, fun _ => rfl⟩
  · obtain rfl : c = '\x0c' := Char.toNat_inj.1 hform
    exact .inl ⟨⟨_, _, rfl, by decide⟩, fun _ => rfl⟩
  · subst hreturn
    exact .inl ⟨⟨_, _, rfl, by decide⟩, fun _ => rfl⟩
  · refine .inl ⟨⟨_, _, rfl, by decide⟩, readEscape_unit ?_⟩
    simp only [isControl, Bool.or_eq_true, Bool.and_eq_true, decide_eq_true_eq] at hcontrol
    omega
  · exact .inr ⟨rfl, hquote, hbackslash, Bool.eq_false_iff.2 hcontrol, fun _ => hline⟩

/-! ### Texts on one line -/

/-- A character in double quotes on one line. -/
theorem readLine_escapeChar (fuel : Nat) (c : Char) (more : List Char) :
    readLine (fuel + 1) (escapeChar false c ++ more)
      = (readLine fuel more).map fun (cs, r) => (c :: cs, r) := by
  rcases escapeChar_cases false c with ⟨⟨mark, text, heq, -⟩, hreads⟩ | ⟨heq, hplain⟩
  · have hescape := hreads more
    rw [heq, List.tail_cons] at hescape
    rw [heq, List.cons_append, readLine, hescape]
  · rw [heq, List.singleton_append, readLine, if_neg]
    · simp [hplain.notLine rfl, hplain.notControl]
    · exact hplain.notQuote
    · exact hplain.notBackslash

/-- A text in double quotes on one line, after its opening quote. -/
theorem readLine_escapeLine (cs rest : List Char) {fuel : Nat} (hfuel : cs.length < fuel) :
    readLine fuel (escapeLine cs ++ '"' :: rest) = some (cs, rest) := by
  induction cs generalizing fuel with
  | nil =>
      obtain ⟨fuel, rfl⟩ := Nat.exists_eq_succ_of_ne_zero (Nat.ne_of_gt hfuel)
      rfl
  | cons c cs ih =>
      obtain ⟨fuel, rfl⟩ := Nat.exists_eq_succ_of_ne_zero (Nat.ne_of_gt (Nat.zero_lt_of_lt hfuel))
      rw [escapeLine, List.flatMap_cons, List.append_assoc, readLine_escapeChar]
      rw [← escapeLine, ih (by rw [List.length_cons] at hfuel; omega)]
      rfl

/-- A text in single quotes on one line, after its opening quote. -/
theorem readLiteral_self {cs : List Char}
    (h : ∀ c ∈ cs, isControl c = false ∧ c ≠ '\n' ∧ c ≠ '\'') (rest : List Char) :
    readLiteral (cs ++ '\'' :: rest) = some (cs, rest) := by
  induction cs with
  | nil => rfl
  | cons c cs ih =>
      obtain ⟨hcontrol, hline, hquote⟩ := h c List.mem_cons_self
      rw [List.cons_append, readLiteral, if_neg (by simp [hcontrol, hline]),
        ih fun d hd => h d (List.mem_cons_of_mem _ hd)]
      · rfl
      · exact hquote

/-! ### Runs of quotes -/

/-- The longest run is at least as long as the one that goes on now and the best one so far. -/
theorem le_longestRun (quote : Char) (cs : List Char) (best run : Nat) (h : run ≤ best) :
    let longest := (cs.foldl (fun (best, run) d =>
      let run := if d = quote then run + 1 else 0
      (max best run, run)) (best, run)).1
    best ≤ longest ∧ run + (cs.takeWhile (· = quote)).length ≤ longest := by
  induction cs generalizing best run with
  | nil => exact ⟨Nat.le_refl _, h⟩
  | cons c cs ih =>
      by_cases hc : c = quote
      · have hrest := ih (max best (run + 1)) (run + 1) (Nat.le_max_right _ _)
        have htake : ((c :: cs).takeWhile (· = quote)).length
            = (cs.takeWhile (· = quote)).length + 1 := by
          rw [List.takeWhile_cons_of_pos (by simpa using hc), List.length_cons]
        simp only [List.foldl_cons, if_pos hc, htake] at hrest ⊢
        omega
      · have hrest := ih (max best 0) 0 (Nat.zero_le _)
        have htake : ((c :: cs).takeWhile (· = quote)).length = 0 := by
          rw [List.takeWhile_cons_of_neg (by simpa using hc), List.length_nil]
        simp only [List.foldl_cons, if_neg hc, htake] at hrest ⊢
        omega

/-- No run of quotes is longer than the longest one, wherever it begins. -/
theorem takeWhile_le_longestRun (quote : Char) (front cs : List Char) :
    (cs.takeWhile (· = quote)).length ≤ longestRun quote (front ++ cs) := by
  have hgeneral : ∀ (front : List Char) (best run : Nat), run ≤ best →
      (cs.takeWhile (· = quote)).length ≤ ((front ++ cs).foldl (fun (best, run) d =>
        let run := if d = quote then run + 1 else 0
        (max best run, run)) (best, run)).1 := by
    intro front
    induction front with
    | nil =>
        intro best run h
        exact Nat.le_trans (Nat.le_add_left _ _) (le_longestRun quote cs best run h).2
    | cons c front ih =>
        intro best run h
        rw [List.cons_append, List.foldl_cons]
        exact ih _ _ (Nat.le_max_right _ _)
  exact hgeneral front 0 0 (Nat.le_refl 0)

theorem notMem_of_longestRun {quote : Char} {cs : List Char} (h : longestRun quote cs = 0) :
    quote ∉ cs := by
  intro hmem
  obtain ⟨front, back, rfl⟩ := List.append_of_mem hmem
  have hrun := takeWhile_le_longestRun quote front (quote :: back)
  rw [h, List.takeWhile_cons_of_pos (by simp)] at hrun
  exact absurd hrun (by simp)

/-- A text is nothing but quotes, or it goes on with something else after its first ones. -/
theorem exists_replicate (quote : Char) (cs : List Char) :
    cs = List.replicate (cs.takeWhile (· = quote)).length quote ∨
      ∃ c text, c ≠ quote ∧
        cs = List.replicate (cs.takeWhile (· = quote)).length quote ++ c :: text := by
  have hrun : cs.takeWhile (· = quote)
      = List.replicate (cs.takeWhile (· = quote)).length quote :=
    List.eq_replicate_iff.2
      ⟨rfl, fun c hc => by simpa using List.all_eq_true.1 List.all_takeWhile c hc⟩
  have hsplit := List.takeWhile_append_dropWhile (p := (· = quote)) (l := cs)
  cases hdrop : cs.dropWhile (· = quote) with
  | nil =>
      rw [hdrop, List.append_nil] at hsplit
      exact .inl (hsplit.symm.trans (by rw [← hrun]))
  | cons c text =>
      have hc : c ≠ quote := by
        have hhead := List.head?_dropWhile_not (p := (· = quote)) (l := cs)
        rw [hdrop] at hhead
        simpa using hhead
      rw [hdrop] at hsplit
      exact .inr ⟨c, text, hc, by rw [← hrun]; exact hsplit.symm⟩

/-- The marks that close a text over several lines, with quotes of the text before them. -/
theorem closing_replicate {quote : Char} {n : Nat} (hn : n ≤ 2) {rest : List Char}
    (hrest : Stops (· = quote) rest) :
    closing quote (List.replicate n quote ++ quote :: quote :: quote :: rest)
      = some (List.replicate n quote, rest) := by
  have hrun : List.replicate n quote ++ quote :: quote :: quote :: rest
      = List.replicate (n + 3) quote ++ rest := by
    rw [← List.replicate_append_replicate, List.append_assoc]
    rfl
  have htake : (List.replicate (n + 3) quote ++ rest).takeWhile (· = quote)
      = List.replicate (n + 3) quote :=
    takeWhile_stops (fun c hc => decide_eq_true (List.eq_of_mem_replicate hc)) hrest
  rw [hrun, closing, htake]
  simp only [List.length_replicate]
  rw [if_neg (by omega), if_pos (by omega), Nat.add_sub_cancel, List.drop_left' (by simp)]

/-- Fewer than three quotes close nothing. -/
theorem closing_more {quote c : Char} {n : Nat} (hn : n ≤ 2) (hc : c ≠ quote)
    (text : List Char) : closing quote (List.replicate n quote ++ c :: text) = none := by
  have htake : (List.replicate n quote ++ c :: text).takeWhile (· = quote)
      = List.replicate n quote :=
    takeWhile_stops (fun d hd => decide_eq_true (List.eq_of_mem_replicate hd))
      (stops_cons (decide_eq_false hc) text)
  rw [closing, htake]
  simp only [List.length_replicate]
  exact if_pos (by omega)

/-! ### Texts over several lines -/

/-- No line begins with a character that is neither a line break nor a control. -/
theorem newLine?_cons {c : Char} (hline : c ≠ '\n') (hcontrol : isControl c = false)
    (more : List Char) : newLine? (c :: more) = none := by
  have hreturn : c ≠ '\r' := by
    rintro rfl
    exact absurd hcontrol (by decide)
  rw [newLine?]
  · rintro r heq
    exact hline (List.cons.inj heq).1
  · rintro r heq
    exact hreturn (List.cons.inj heq).1

/-- Marks that close the text end the reading. -/
theorem readLines_closing {cs : List Char} {found : List Char × List Char} (fuel : Nat)
    (h : closing '"' cs = some found) : readLines (fuel + 1) cs = some found := by
  rw [readLines.eq_def]
  simp only [h]

/-- A character that stands for itself, where no marks close the text. -/
theorem readLines_self {fuel : Nat} {c : Char} {more : List Char}
    (hclosing : closing '"' (c :: more) = none) (hbackslash : c ≠ '\\')
    (hcontrol : isControl c = false) :
    readLines (fuel + 1) (c :: more) = (readLines fuel more).map fun (cs, r) => (c :: cs, r) := by
  rw [readLines, hclosing]
  · by_cases hline : c = '\n'
    · subst hline
      rfl
    · simp [newLine?_cons hline hcontrol, hcontrol]
  · exact hbackslash

/-- A character that is escaped. -/
theorem readLines_escaped {fuel : Nat} {c : Char} {text : List Char} (h : Escaped c text)
    (more : List Char) :
    readLines (fuel + 1) (text ++ more)
      = (readLines fuel more).map fun (cs, r) => (c :: cs, r) := by
  obtain ⟨⟨mark, rest, rfl, hspace, hline, hreturn⟩, hreads⟩ := h
  have hescape : readEscape (mark :: (rest ++ more)) = some (c, more) := hreads more
  have hclosing : closing '"' ('\\' :: mark :: (rest ++ more)) = none :=
    closing_more (n := 0) (by decide) (by decide) _
  have hdrop : (mark :: (rest ++ more)).dropWhile isSpace = mark :: (rest ++ more) :=
    dropWhile_of_stops (stops_cons hspace _)
  have hnew : newLine? (mark :: (rest ++ more)) = none := by
    rw [newLine?]
    · rintro r heq
      exact hline (List.cons.inj heq).1
    · rintro r heq
      exact hreturn (List.cons.inj heq).1
  have hslash : newLine? ('\\' :: mark :: (rest ++ more)) = none := rfl
  rw [List.cons_append, List.cons_append, readLines, hclosing]
  simp only [hslash, hdrop, hnew, hescape]

/-- What is written after `quotes` quotes begins with so few that no three are in a row; if it is
    nothing but quotes, so is the text. -/
theorem escapeLines_sparse (cs : List Char) (quotes : Nat) (h : quotes ≤ 2) :
    (∃ n, n ≤ 2 - quotes ∧ cs = List.replicate n '"' ∧ escapeLines quotes cs = cs) ∨
      ∃ n c text, n ≤ 2 - quotes ∧ c ≠ '"' ∧
        escapeLines quotes cs = List.replicate n '"' ++ c :: text := by
  induction cs generalizing quotes with
  | nil => exact .inl ⟨0, Nat.zero_le _, rfl, rfl⟩
  | cons c cs ih =>
      by_cases hquote : c = '"'
      · subst hquote
        by_cases hfew : quotes < 2
        · have hstep : escapeLines quotes ('"' :: cs) = '"' :: escapeLines (quotes + 1) cs := by
            rw [escapeLines, if_pos rfl, if_pos hfew]
          rcases ih (quotes + 1) (by omega) with
            ⟨n, hn, hcs, heq⟩ | ⟨n, c, text, hn, hc, heq⟩
          · exact .inl ⟨n + 1, by omega, by rw [hcs]; rfl, by rw [hstep, heq]⟩
          · exact .inr ⟨n + 1, c, text, by omega, hc, by rw [hstep, heq]; rfl⟩
        · refine .inr ⟨0, '\\', '"' :: escapeLines 0 cs, Nat.zero_le _, by decide, ?_⟩
          rw [escapeLines, if_pos rfl, if_neg hfew]
          rfl
      · have hstep : escapeLines quotes (c :: cs) = escapeChar true c ++ escapeLines 0 cs := by
          rw [escapeLines, if_neg hquote]
        rcases escapeChar_cases true c with ⟨⟨mark, text, heq, -⟩, -⟩ | ⟨heq, hplain⟩
        · refine .inr ⟨0, '\\', mark :: (text ++ escapeLines 0 cs), Nat.zero_le _, by decide, ?_⟩
          rw [hstep, heq]
          rfl
        · refine .inr ⟨0, c, escapeLines 0 cs, Nat.zero_le _, hplain.notQuote, ?_⟩
          rw [hstep, heq]
          rfl

/-- A text in double quotes over several lines, after its opening marks. -/
theorem readLines_escapeLines (cs : List Char) {quotes fuel : Nat} (hquotes : quotes ≤ 2)
    (hfuel : cs.length < fuel) {rest : List Char} (hrest : Stops (· = '"') rest) :
    readLines fuel (escapeLines quotes cs ++ '"' :: '"' :: '"' :: rest) = some (cs, rest) := by
  induction cs generalizing quotes fuel with
  | nil =>
      obtain ⟨fuel, rfl⟩ := Nat.exists_eq_succ_of_ne_zero (Nat.ne_of_gt hfuel)
      exact readLines_closing fuel (closing_replicate (n := 0) (by decide) hrest)
  | cons c cs ih =>
      obtain ⟨fuel, rfl⟩ := Nat.exists_eq_succ_of_ne_zero (Nat.ne_of_gt (Nat.zero_lt_of_lt hfuel))
      rw [List.length_cons] at hfuel
      have hfuel : cs.length < fuel := by omega
      -- Quotes up to the end are left to the marks that close the text; in front of anything
      -- else there are too few to close it.
      rcases escapeLines_sparse (c :: cs) quotes hquotes with
        ⟨n, hn, hcs, heq⟩ | ⟨n, d, text, hn, hd, heq⟩
      · rw [heq, hcs]
        exact readLines_closing fuel (closing_replicate (by omega) hrest)
      · have hclosing := closing_more (n := n) (by omega) hd (text ++ '"' :: '"' :: '"' :: rest)
        rw [← List.cons_append, ← List.append_assoc, ← heq] at hclosing
        by_cases hquote : c = '"'
        · subst hquote
          by_cases hfew : quotes < 2
          · rw [escapeLines, if_pos rfl, if_pos hfew, List.cons_append] at hclosing ⊢
            rw [readLines_self hclosing (by decide) (by decide), ih (by omega) hfuel]
            rfl
          · have hescaped : Escaped '"' ['\\', '"'] := ⟨⟨_, _, rfl, by decide⟩, fun _ => rfl⟩
            rw [escapeLines, if_pos rfl, if_neg hfew]
            refine (readLines_escaped hescaped (escapeLines 0 cs ++ _)).trans ?_
            rw [ih (by decide) hfuel]
            rfl
        · rw [escapeLines, if_neg hquote] at hclosing ⊢
          rw [List.append_assoc] at hclosing ⊢
          rcases escapeChar_cases true c with hescaped | ⟨hself, hplain⟩
          · rw [readLines_escaped hescaped, ih (by decide) hfuel]
            rfl
          · rw [hself, List.singleton_append] at hclosing ⊢
            rw [readLines_self hclosing hplain.notBackslash hplain.notControl,
              ih (by decide) hfuel]
            rfl

/-- A character that stands for itself in single quotes, where no marks close the text. -/
theorem readLiteralLines_self {fuel : Nat} {c : Char} {more : List Char}
    (hclosing : closing '\'' (c :: more) = none) (hcontrol : isControl c = false) :
    readLiteralLines (fuel + 1) (c :: more)
      = (readLiteralLines fuel more).map fun (cs, r) => (c :: cs, r) := by
  rw [readLiteralLines, hclosing]
  by_cases hline : c = '\n'
  · subst hline
    rfl
  · simp [newLine?_cons hline hcontrol, hcontrol]

/-- A text in single quotes over several lines, after its opening marks. -/
theorem readLiteralLines_append (front cs : List Char)
    (hruns : longestRun '\'' (front ++ cs) ≤ 2) (hcontrols : ∀ c ∈ cs, isControl c = false)
    {fuel : Nat} (hfuel : cs.length < fuel) {rest : List Char} (hrest : Stops (· = '\'') rest) :
    readLiteralLines fuel (cs ++ '\'' :: '\'' :: '\'' :: rest) = some (cs, rest) := by
  have hrun := Nat.le_trans (takeWhile_le_longestRun '\'' front cs) hruns
  obtain ⟨fuel, rfl⟩ := Nat.exists_eq_succ_of_ne_zero (Nat.ne_of_gt (Nat.zero_lt_of_lt hfuel))
  rcases exists_replicate '\'' cs with heq | ⟨d, text, hd, heq⟩
  · have hclosing := closing_replicate hrun hrest
    rw [← heq] at hclosing
    rw [readLiteralLines.eq_def]
    simp only [hclosing]
  · have hclosing := closing_more hrun hd (text ++ '\'' :: '\'' :: '\'' :: rest)
    rw [← List.cons_append, ← List.append_assoc, ← heq] at hclosing
    -- The text goes on behind the quotes, so it has a first character.
    match cs with
    | [] => simp at heq
    | c :: cs =>
        rw [List.length_cons] at hfuel
        have hrest' := readLiteralLines_append (front ++ [c]) cs
          (by rwa [List.append_assoc]) (fun c hc => hcontrols c (List.mem_cons_of_mem _ hc))
          (show cs.length < fuel by omega) hrest
        rw [List.cons_append] at hclosing ⊢
        rw [readLiteralLines_self hclosing (hcontrols c List.mem_cons_self), hrest']
        rfl

/-! ### The forms of a text -/

/-- A text between two marks, as a reader meets it. -/
theorem surround_mark (mark : Char) (text rest : List Char) :
    surround [mark] false text ++ rest = mark :: (text ++ mark :: rest) := by
  simp [surround]

/-- A text between three marks and three marks. -/
theorem surround_marks (mark : Char) (lines : Bool) (text rest : List Char) :
    surround [mark, mark, mark] lines text ++ rest
      = mark :: mark :: mark :: ((if lines then ['\n'] else []) ++
        (text ++ mark :: mark :: mark :: rest)) := by
  simp [surround]

/-- Neither kind of quote follows. -/
def EndsText (rest : List Char) : Prop := Stops (· = '"') rest ∧ Stops (· = '\'') rest

theorem asText_toList (s : String) (rest : List Char) :
    asText (some (s.toList, rest)) = some (s, rest) := by
  rw [asText, String.ofList_toList]

/-- The escape of a character begins with no quote. -/
theorem exists_escapeChar (lines : Bool) {c : Char} :
    ∃ d more, escapeChar lines c = d :: more ∧ d ≠ '"' := by
  rcases escapeChar_cases lines c with ⟨⟨mark, text, heq, -⟩, -⟩ | ⟨heq, hplain⟩
  · exact ⟨_, _, heq, by decide⟩
  · exact ⟨_, _, heq, hplain.notQuote⟩

theorem length_escapeChar (lines : Bool) (c : Char) : 1 ≤ (escapeChar lines c).length := by
  obtain ⟨d, more, heq, -⟩ := exists_escapeChar lines (c := c)
  rw [heq]
  exact Nat.succ_le_succ (Nat.zero_le _)

theorem length_le_escapeLine (cs : List Char) : cs.length ≤ (escapeLine cs).length := by
  induction cs with
  | nil => exact Nat.le_refl 0
  | cons c cs ih =>
      have hc := length_escapeChar false c
      rw [escapeLine, List.flatMap_cons, List.length_append, ← escapeLine, List.length_cons]
      omega

theorem length_le_escapeLines (cs : List Char) (quotes : Nat) :
    cs.length ≤ (escapeLines quotes cs).length := by
  induction cs generalizing quotes with
  | nil => exact Nat.zero_le _
  | cons c cs ih =>
      have hc := length_escapeChar true c
      have hzero := ih 0
      have hnext := ih (quotes + 1)
      rw [escapeLines]
      split_ifs <;> simp only [List.length_cons, List.length_append] <;> omega

/-- A quote that two more do not follow opens a text on one line. -/
theorem readText_double {cs : List Char} (h : ∀ r, cs ≠ '"' :: '"' :: r) :
    readText ('"' :: cs) = asText (readLine (cs.length + 1) cs) := by
  rw [readText]
  exact h

theorem readText_single {cs : List Char} (h : ∀ r, cs ≠ '\'' :: '\'' :: r) :
    readText ('\'' :: cs) = asText (readLiteral cs) := by
  rw [readText]
  exact h

theorem readText_escapeLine (s : String) {rest : List Char} (hrest : Stops (· = '"') rest) :
    readText ('"' :: (escapeLine s.toList ++ '"' :: rest)) = some (s, rest) := by
  have hfuel : s.toList.length < (escapeLine s.toList ++ '"' :: rest).length + 1 := by
    have hlength := length_le_escapeLine s.toList
    rw [List.length_append]
    omega
  rw [readText_double, readLine_escapeLine _ rest hfuel, asText_toList]
  intro r heq
  cases hs : s.toList with
  | nil =>
      rw [hs] at heq
      have hhead := hrest '"' (by rw [(List.cons.inj heq).2]; rfl)
      exact absurd hhead (by decide)
  | cons c cs =>
      obtain ⟨d, more, hd, hquote⟩ := exists_escapeChar false (c := c)
      rw [hs, escapeLine, List.flatMap_cons, hd] at heq
      exact hquote (List.cons.inj heq).1

theorem readText_literal {s : String} {rest : List Char} (hrest : Stops (· = '\'') rest)
    (h : ∀ c ∈ s.toList, isControl c = false ∧ c ≠ '\n' ∧ c ≠ '\'') :
    readText ('\'' :: (s.toList ++ '\'' :: rest)) = some (s, rest) := by
  rw [readText_single, readLiteral_self h, asText_toList]
  intro r heq
  cases hs : s.toList with
  | nil =>
      rw [hs] at heq
      have hhead := hrest '\'' (by rw [(List.cons.inj heq).2]; rfl)
      exact absurd hhead (by decide)
  | cons c cs =>
      rw [hs] at heq
      exact (h c (hs ▸ List.mem_cons_self)).2.2 (List.cons.inj heq).1

/-- A line break is put after the marks if the text has one, and else the text does not begin
    with one, so what is read after the marks is the text. -/
theorem afterMarks_body {lines : Bool} {body : List Char}
    (h : lines = false → ∀ c ∈ body.head?, c ≠ '\n' ∧ isControl c = false) :
    afterMarks ((if lines then ['\n'] else []) ++ body) = body := by
  cases lines with
  | true => rfl
  | false =>
      rw [afterMarks]
      cases body with
      | nil => rfl
      | cons c more =>
          obtain ⟨hline, hcontrol⟩ := h rfl c rfl
          show (newLine? (c :: more)).getD (c :: more) = c :: more
          rw [newLine?_cons hline hcontrol]
          rfl

theorem head?_escapeLines {cs : List Char} (hline : '\n' ∉ cs) :
    ∀ c ∈ (escapeLines 0 cs).head?, c ≠ '\n' ∧ isControl c = false := by
  intro d hd
  cases cs with
  | nil => cases hd
  | cons c cs =>
      rw [escapeLines] at hd
      split at hd
      · obtain rfl : '"' = d := Option.some.inj hd
        decide
      · rcases escapeChar_cases true c with ⟨⟨mark, text, heq, -⟩, -⟩ | ⟨heq, hplain⟩
        · rw [heq] at hd
          obtain rfl : '\\' = d := Option.some.inj hd
          decide
        · rw [heq] at hd
          obtain rfl : c = d := Option.some.inj hd
          exact ⟨fun h => hline (h ▸ List.mem_cons_self), hplain.notControl⟩

/-- The form in double quotes over several lines. -/
theorem readText_lines (s : String) {lines : Bool} (hlines : lines = false → '\n' ∉ s.toList)
    {rest : List Char} (hrest : Stops (· = '"') rest) :
    readText (surround ['"', '"', '"'] lines (escapeLines 0 s.toList) ++ rest)
      = some (s, rest) := by
  have hbody : afterMarks ((if lines then ['\n'] else []) ++
      (escapeLines 0 s.toList ++ '"' :: '"' :: '"' :: rest))
        = escapeLines 0 s.toList ++ '"' :: '"' :: '"' :: rest := by
    refine afterMarks_body fun hfalse c hc => ?_
    cases hwritten : escapeLines 0 s.toList with
    | nil =>
        rw [hwritten] at hc
        obtain rfl : '"' = c := Option.some.inj hc
        decide
    | cons d more =>
        rw [hwritten] at hc
        exact head?_escapeLines (hlines hfalse) c (by rw [hwritten]; exact hc)
  rw [surround_marks, readText, hbody, readLines_escapeLines _ (by decide) _ hrest,
    asText_toList]
  have hlength := length_le_escapeLines s.toList 0
  simp only [List.length_append]
  omega

/-- The form in single quotes over several lines. -/
theorem readText_literalLines {s : String} {lines : Bool}
    (hlines : lines = false → '\n' ∉ s.toList) (hruns : longestRun '\'' s.toList ≤ 2)
    (hcontrols : ∀ c ∈ s.toList, isControl c = false) {rest : List Char}
    (hrest : Stops (· = '\'') rest) :
    readText (surround ['\'', '\'', '\''] lines s.toList ++ rest) = some (s, rest) := by
  have hbody : afterMarks ((if lines then ['\n'] else []) ++
      (s.toList ++ '\'' :: '\'' :: '\'' :: rest)) = s.toList ++ '\'' :: '\'' :: '\'' :: rest := by
    refine afterMarks_body fun hfalse c hc => ?_
    cases hs : s.toList with
    | nil =>
        rw [hs] at hc
        obtain rfl : '\'' = c := Option.some.inj hc
        decide
    | cons d more =>
        rw [hs] at hc
        obtain rfl : d = c := Option.some.inj hc
        have hmem : d ∈ s.toList := hs ▸ List.mem_cons_self
        exact ⟨fun h => hlines hfalse (h ▸ hmem), hcontrols d hmem⟩
  rw [surround_marks, readText, hbody,
    readLiteralLines_append [] s.toList hruns hcontrols _ hrest, asText_toList]
  simp only [List.length_append]
  omega

/-- **A text is read back from whichever of its forms it is written in.** -/
theorem readText_writeText (s : String) {rest : List Char} (hrest : EndsText rest) :
    readText (writeText s ++ rest) = some (s, rest) := by
  have hcontrols : (!s.toList.any isControl) = true → ∀ c ∈ s.toList, isControl c = false := by
    intro h c hc
    simp only [Bool.not_eq_true', List.any_eq_false] at h
    exact Bool.eq_false_iff.2 (h c hc)
  have hlines : s.toList.contains '\n' = false → '\n' ∉ s.toList := by
    intro h
    simpa using h
  rw [writeText]
  -- One case for each form, with the condition under which it is chosen.
  split_ifs with hline hliteral hdouble hsingle hseveral
  · rw [surround_mark]
    exact readText_escapeLine s hrest.1
  · simp only [Bool.and_eq_true, decide_eq_true_eq] at hliteral
    obtain ⟨⟨hcontrol, hquotes⟩, hnew⟩ := hliteral
    rw [surround_mark]
    refine readText_literal hrest.2 fun c hc => ⟨hcontrols hcontrol c hc, ?_, ?_⟩
    · rintro rfl
      exact hlines (by simpa using hnew) hc
    · rintro rfl
      exact notMem_of_longestRun hquotes hc
  · exact readText_lines s hlines hrest.1
  · simp only [Bool.and_eq_true, decide_eq_true_eq] at hsingle
    exact readText_literalLines hlines hsingle.2 (hcontrols hsingle.1) hrest.2
  · have hbroken : true = false → '\n' ∉ s.toList := by simp
    exact readText_lines s hbroken hrest.1
  · rw [surround_mark]
    exact readText_escapeLine s hrest.1

/-! ### Names -/

/-- **A name is read back**, with quotes or without. -/
theorem readNamePart_writeName (s : String) {rest : List Char} (hrest : Stops isBare rest) :
    readNamePart (writeName s ++ rest) = some (s, rest) := by
  have hquoted : readNamePart (surround ['"'] false (escapeLine s.toList) ++ rest)
      = some (s, rest) := by
    have hlength := length_le_escapeLine s.toList
    rw [surround_mark, readNamePart,
      readLine_escapeLine _ rest (by rw [List.length_append]; omega), asText_toList]
  rw [writeName]
  split_ifs with hbare hdouble hsingle
  · simp only [Bool.and_eq_true, Bool.not_eq_true', List.all_eq_true] at hbare
    obtain ⟨hempty, hall⟩ := hbare
    -- A bare name is not empty, and its first character is no quote.
    cases hs : s.toList with
    | nil => simp [hs] at hempty
    | cons c cs =>
        rw [hs] at hall
        have hc := hall c List.mem_cons_self
        have hdouble : c ≠ '"' := by
          rintro rfl
          exact absurd hc (by decide)
        have hsingle : c ≠ '\'' := by
          rintro rfl
          exact absurd hc (by decide)
        have htake := takeWhile_stops hall hrest
        have hdrop := dropWhile_stops hall hrest
        rw [List.cons_append] at htake hdrop ⊢
        rw [readNamePart]
        · simp only [htake, hdrop]
          rw [← hs, String.ofList_toList]
          simp [hs]
        · rintro r heq
          exact hdouble (List.cons.inj heq).1
        · rintro r heq
          exact hsingle (List.cons.inj heq).1
  · exact hquoted
  · simp only [Bool.and_eq_true, Bool.not_eq_true', List.any_eq_false, List.contains_eq_mem,
      decide_eq_false_iff_not] at hsingle
    obtain ⟨⟨hcontrol, hline⟩, hquote⟩ := hsingle
    rw [surround_mark, readNamePart, readLiteral_self, asText_toList]
    intro c hc
    refine ⟨Bool.eq_false_iff.2 (hcontrol c hc), ?_, ?_⟩
    · rintro rfl
      exact hline hc
    · rintro rfl
      exact hquote hc
  · exact hquoted

end ZoneConsole.Toml
