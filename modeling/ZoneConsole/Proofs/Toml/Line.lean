import ZoneConsole.Proofs.Reading.Shows
import ZoneConsole.Proofs.Toml.Quoted
import ZoneConsole.Toml.Document
import ZoneConsole.Toml.Writer

/-!
# Lines of TOML documents come back

The writer puts a name and a value on a line, or a path between brackets, and the reader makes a
statement of it, wherever the line ends.  A natural number comes back with a sign, so it needs a
place in 64 bits that have one.

* **`Data.Tabular`**, **`Data.Fits`** — what may stand in a table, and what has its place there.
* **`readValue_valueText`**, **`readPath_pathText`** — values and paths come back.
* **`line_assign`**, **`line_header`** — the two kinds of a line state what was written.
-/

namespace ZoneConsole

namespace Data

mutual

/-- Tables of truth values, natural numbers and texts under names that differ, at any depth. A
    value may be null. -/
def Tabular : Data → Prop
  | .map members => Distinct members ∧ TabularMembers members
  | .null | .bool _ | .num (.unsigned _) | .str _ => True
  | .num _ | .seq _ => False

/-- Every member is tabular. -/
def TabularMembers : List (String × Data) → Prop
  | [] => True
  | (_, value) :: rest => Tabular value ∧ TabularMembers rest

end

mutual

/-- Every natural number has its place in 64 bits with a sign. -/
def Fits : Data → Prop
  | .num (.unsigned n) => n < 0x8000000000000000
  | .map members => FitsMembers members
  | _ => True

/-- Every member fits. -/
def FitsMembers : List (String × Data) → Prop
  | [] => True
  | (_, value) :: rest => Fits value ∧ FitsMembers rest

end

theorem tabularMembers_iff {members : List (String × Data)} :
    TabularMembers members ↔ ∀ m ∈ members, m.2.Tabular := by
  induction members with
  | nil => simp [TabularMembers]
  | cons member rest ih => simp [TabularMembers, ih]

theorem fitsMembers_iff {members : List (String × Data)} :
    FitsMembers members ↔ ∀ m ∈ members, m.2.Fits := by
  induction members with
  | nil => simp [FitsMembers]
  | cons member rest ih => simp [FitsMembers, ih]

end Data

namespace Toml

open Text

/-! ### Whole numbers -/

theorem hexValue?_of_isDigit {c : Char} (hc : isDigit c) : hexValue? c = some (digitValue c) := by
  simp only [isDigit, Bool.and_eq_true, decide_eq_true_eq] at hc
  rw [hexValue?, if_pos hc, digitValue]

theorem digitsValue_eq {ds : List Char} (hds : ∀ c ∈ ds, isDigit c) :
    digitsValue 10 ds = decimalValue ds := by
  have hgeneral : ∀ n, ds.foldl (fun n d => n * 10 + (hexValue? d).getD 0) n
      = ds.foldl (fun n c => n * 10 + digitValue c) n := by
    induction ds with
    | nil => exact fun _ => rfl
    | cons c ds ih =>
        intro n
        rw [List.foldl_cons, List.foldl_cons, hexValue?_of_isDigit (hds c List.mem_cons_self),
          ih fun d hd => hds d (List.mem_cons_of_mem _ hd)]
        rfl
  exact hgeneral 0

theorem readDigits_more {ds : List Char} (hds : ∀ c ∈ ds, isDigit c) (rest : List Char) :
    readDigits.more isDigit (ds ++ '\n' :: rest) = (ds, '\n' :: rest) := by
  induction ds with
  | nil =>
      rw [List.nil_append, readDigits.more.eq_def]
      rfl
  | cons c ds ih =>
      have hc := hds c List.mem_cons_self
      have hunderscore : c ≠ '_' := ne_of_isDigit hc rfl
      have hrest := ih fun d hd => hds d (List.mem_cons_of_mem _ hd)
      rw [List.cons_append, readDigits.more]
      · rw [if_pos hc, hrest]
      · rintro d r heq
        exact absurd heq hunderscore

theorem readWhole_decimal (n : Nat) (rest : List Char) :
    readWhole (decimal n ++ '\n' :: rest) = some (decimal n, '\n' :: rest) := by
  have hdigits : ∀ c ∈ decimal n, isDigit c := fun c hc => isDigit_of_mem_decimal hc
  by_cases hn : n = 0
  · subst hn
    rw [decimal_zero]
    rfl
  · have hzero := head?_decimal_ne hn
    obtain ⟨c, ds, hds⟩ := List.exists_cons_of_ne_nil (decimal_ne_nil n)
    rw [hds] at hzero hdigits ⊢
    have hmore := readDigits_more (fun d hd => hdigits d (List.mem_cons_of_mem _ hd)) rest
    rw [readWhole]
    · rw [List.cons_append, readDigits, if_pos (hdigits c List.mem_cons_self), hmore]
    · rintro r heq
      exact hzero (congrArg some (List.cons.inj heq).1)

/-- Digits at the end of a line are no date: a date has a dash or a colon behind its first
    digits, and in a line of digits nothing but the line break can stand there. -/
theorem looksLikeDate_digits {ds : List Char} (hds : ∀ c ∈ ds, isDigit c) (rest : List Char) :
    looksLikeDate (ds ++ '\n' :: rest) = false := by
  have hnew : isDigit '\n' = false := rfl
  have hdash : ∀ d ∈ ds, d ≠ '-' := fun d hd => ne_of_isDigit (hds d hd) rfl
  have hcolon : ∀ d ∈ ds, d ≠ ':' := fun d hd => ne_of_isDigit (hds d hd) rfl
  unfold looksLikeDate
  split
  · -- Of four digits and a dash: fewer digits leave the line break among them, and more of them
    -- leave a digit in the place of the dash.
    rename_i a b c d more heq
    rcases ds with _ | ⟨a', _ | ⟨b', _ | ⟨c', _ | ⟨d', _ | ⟨e', ds⟩⟩⟩⟩⟩ <;>
      simp only [List.nil_append, List.cons_append, List.cons.injEq] at heq
    · simp [← heq.1, hnew]
    · simp [← heq.2.1, hnew]
    · simp [← heq.2.2.1, hnew]
    · simp [← heq.2.2.2.1, hnew]
    · exact absurd heq.2.2.2.2.1 (by decide)
    · exact absurd heq.2.2.2.2.1 (hdash e' (by simp))
  · rename_i a b more _ heq
    rcases ds with _ | ⟨a', _ | ⟨b', _ | ⟨c', ds⟩⟩⟩ <;>
      simp only [List.nil_append, List.cons_append, List.cons.injEq] at heq
    · simp [← heq.1, hnew]
    · simp [← heq.2.1, hnew]
    · exact absurd heq.2.2.1 (by decide)
    · exact absurd heq.2.2.1 (hcolon c' (by simp))
  · rfl

theorem decimalNumber_decimal {n : Nat} (hn : n < 0x8000000000000000) (rest : List Char) :
    decimalNumber false (decimal n ++ '\n' :: rest)
      = some (.num (.signed n), '\n' :: rest) := by
  have hvalue : digitsValue 10 (decimal n) = n := by
    rw [digitsValue_eq fun c hc => isDigit_of_mem_decimal hc, decimalValue_decimal]
  have hrange : -0x8000000000000000 ≤ (n : Int) ∧ (n : Int) < 0x8000000000000000 := by omega
  rw [decimalNumber, readWhole_decimal]
  show wholeNumber (digitsValue 10 (decimal n)) ('\n' :: rest) = _
  rw [hvalue, wholeNumber, if_pos hrange]

/-- A natural number that has its place in 64 bits with a sign is read back, with a sign. -/
theorem readNumber_decimal {n : Nat} (hn : n < 0x8000000000000000) (rest : List Char) :
    readNumber (decimal n ++ '\n' :: rest) = some (.num (.signed n), '\n' :: rest) := by
  have hwhole := decimalNumber_decimal hn rest
  have hword : wordNumber false (decimal n ++ '\n' :: rest) = none := by
    obtain ⟨c, ds, hds⟩ := List.exists_cons_of_ne_nil (decimal_ne_nil n)
    have hc : isDigit c := isDigit_of_mem_decimal (hds ▸ List.mem_cons_self)
    rw [hds, List.cons_append, wordNumber]
    · rintro r heq
      exact ne_of_isDigit hc rfl (List.cons.inj heq).1
    · rintro r heq
      exact ne_of_isDigit hc rfl (List.cons.inj heq).1
  have hboth : (wordNumber false (decimal n ++ '\n' :: rest)).or
      (decimalNumber false (decimal n ++ '\n' :: rest))
        = some (.num (.signed n), '\n' :: rest) := by
    rw [hword, hwhole]
    rfl
  -- A zero in front would announce another base, and only zero itself has one.
  by_cases hzero : n = 0
  · subst hzero
    rw [decimal_zero] at hboth ⊢
    exact hboth
  · have hhead := head?_decimal_ne hzero
    obtain ⟨c, ds, hds⟩ := List.exists_cons_of_ne_nil (decimal_ne_nil n)
    have hc : isDigit c := isDigit_of_mem_decimal (hds ▸ List.mem_cons_self)
    rw [hds] at hhead hboth ⊢
    have hne : c ≠ '0' := fun h => hhead (congrArg some h)
    rw [List.cons_append] at hboth ⊢
    rw [readNumber]
    · exact hboth
    · exact fun r heq => hne (List.cons.inj heq).1
    · exact fun r heq => hne (List.cons.inj heq).1
    · exact fun r heq => hne (List.cons.inj heq).1
    · exact fun r heq => ne_of_isDigit hc rfl (List.cons.inj heq).1
    · exact fun r heq => ne_of_isDigit hc rfl (List.cons.inj heq).1

/-! ### Values -/

/-- Is the value one that a line of a table holds? -/
def isLine (d : Data) : Bool := !isTable d && !isNull d

/-- The text of a value that a line holds. -/
def valueText : Data → List Char
  | .bool b => if b then "true".toList else "false".toList
  | .num (.unsigned n) => decimal n
  | .str s => writeText s
  | _ => []

/-- A value as it is read back: whole numbers have a sign. -/
def signed : Data → Data
  | .num (.unsigned n) => .num (.signed n)
  | d => d

/-- A text in quotes begins with one. -/
theorem exists_writeText (s : String) :
    ∃ c more, writeText s = c :: more ∧ (c = '"' ∨ c = '\'') := by
  rw [writeText]
  split_ifs
  · exact ⟨_, _, rfl, .inl rfl⟩
  · exact ⟨_, _, rfl, .inr rfl⟩
  · exact ⟨_, _, rfl, .inl rfl⟩
  · exact ⟨_, _, rfl, .inr rfl⟩
  · exact ⟨_, _, rfl, .inl rfl⟩
  · exact ⟨_, _, rfl, .inl rfl⟩

theorem endsText_newLine (rest : List Char) : EndsText ('\n' :: rest) :=
  ⟨stops_cons rfl rest, stops_cons rfl rest⟩

/-- What the writer writes within a line is read back at the end of the line. -/
theorem readValue_str (s : String) (fuel : Nat) (rest : List Char) :
    readValue (fuel + 1) (writeText s ++ '\n' :: rest) = some (.str s, '\n' :: rest) := by
  have hread := readText_writeText s (endsText_newLine rest)
  obtain ⟨c, more, htext, hquote⟩ := exists_writeText s
  rw [htext, List.cons_append] at hread ⊢
  rcases hquote with rfl | rfl
  · rw [readValue, hread] <;> simp
  · rw [readValue, hread] <;> simp

theorem readValue_num {n : Nat} (hn : n < 0x8000000000000000) (fuel : Nat) (rest : List Char) :
    readValue (fuel + 1) (decimal n ++ '\n' :: rest)
      = some (.num (.signed n), '\n' :: rest) := by
  have hdigits : ∀ c ∈ decimal n, isDigit c := fun c hc => isDigit_of_mem_decimal hc
  have hnumber := readNumber_decimal hn rest
  have hdate := looksLikeDate_digits hdigits rest
  obtain ⟨c, ds, hds⟩ := List.exists_cons_of_ne_nil (decimal_ne_nil n)
  rw [hds] at hnumber hdate hdigits ⊢
  have hc := hdigits c List.mem_cons_self
  have hquotes : ¬ (c = '"' ∨ c = '\'') := by
    rintro (h | h)
    · exact ne_of_isDigit hc rfl h
    · exact ne_of_isDigit hc rfl h
  rw [List.cons_append] at hnumber hdate ⊢
  rw [readValue]
  · rw [if_neg hquotes, hdate, hnumber]
    rfl
  · exact fun _ h _ => ne_of_isDigit hc rfl h
  · exact fun _ h _ => ne_of_isDigit hc rfl h
  · exact ne_of_isDigit hc rfl
  · exact ne_of_isDigit hc rfl

/-- **A value is read back at the end of its line.** -/
theorem readValue_valueText {d : Data} (htab : d.Tabular) (hfits : d.Fits) (hline : isLine d)
    (fuel : Nat) (rest : List Char) :
    readValue (fuel + 1) (valueText d ++ '\n' :: rest) = some (signed d, '\n' :: rest) := by
  cases d with
  | null => cases hline
  | map _ => cases hline
  | seq _ => exact htab.elim
  | bool b =>
      cases b with
      | false => rfl
      | true => rfl
  | str s => exact readValue_str s fuel rest
  | num n =>
      cases n with
      | unsigned n => exact readValue_num hfits fuel rest
      | signed => exact htab.elim
      | real => exact htab.elim

/-- The text of a value begins with no blank. -/
theorem skipSpaces_valueText {d : Data} (htab : d.Tabular) (hline : isLine d)
    (rest : List Char) :
    skipSpaces (' ' :: (valueText d ++ rest)) = valueText d ++ rest := by
  have hstops : Stops isSpace (valueText d ++ rest) := by
    cases d with
    | null => cases hline
    | map _ => cases hline
    | seq _ => exact htab.elim
    | bool b =>
        cases b with
        | false => exact stops_cons rfl _
        | true => exact stops_cons rfl _
    | str s =>
        obtain ⟨c, more, htext, hquote⟩ := exists_writeText s
        rw [valueText, htext]
        rcases hquote with rfl | rfl
        · exact stops_cons rfl _
        · exact stops_cons rfl _
    | num n =>
        cases n with
        | unsigned n =>
            obtain ⟨c, ds, hds⟩ := List.exists_cons_of_ne_nil (decimal_ne_nil n)
            have hc : isDigit c := isDigit_of_mem_decimal (hds ▸ List.mem_cons_self)
            rw [valueText, hds]
            refine stops_cons ?_ _
            simp [isSpace, ne_of_isDigit hc (show isDigit ' ' = false from rfl),
              ne_of_isDigit hc (show isDigit '\t' = false from rfl)]
        | signed => exact htab.elim
        | real => exact htab.elim
  show (valueText d ++ rest).dropWhile isSpace = _
  exact dropWhile_of_stops hstops

/-! ### Where a line begins -/

/-- A line begins with a name, in quotes or without, or with the bracket of a header. -/
def Opens (c : Char) : Prop := isBare c ∨ c = '"' ∨ c = '\'' ∨ c = '['

theorem Opens.ne {c d : Char} (h : Opens c) (hbare : isBare d = false) (hdouble : d ≠ '"')
    (hsingle : d ≠ '\'') (hbracket : d ≠ '[') : c ≠ d := by
  rintro rfl
  rcases h with h | h | h | h
  · rw [hbare] at h
    cases h
  · exact hdouble h
  · exact hsingle h
  · exact hbracket h

theorem Opens.notSpace {c : Char} (h : Opens c) : isSpace c = false := by
  simp only [isSpace, Bool.or_eq_false_iff, decide_eq_false_iff_not]
  exact ⟨h.ne rfl (by decide) (by decide) (by decide), h.ne rfl (by decide) (by decide) (by decide)⟩

theorem exists_writeName (name : String) :
    ∃ c more, writeName name = c :: more ∧ Opens c ∧ c ≠ '[' := by
  rw [writeName]
  split_ifs with hbare hdouble hsingle
  · simp only [Bool.and_eq_true, Bool.not_eq_true', List.all_eq_true] at hbare
    obtain ⟨hempty, hall⟩ := hbare
    cases hname : name.toList with
    | nil => simp [hname] at hempty
    | cons c cs =>
        have hc := hall c (hname ▸ List.mem_cons_self)
        refine ⟨c, cs, rfl, .inl hc, ?_⟩
        rintro rfl
        exact absurd hc (by decide)
  · exact ⟨_, _, rfl, .inr (.inl rfl), by decide⟩
  · exact ⟨_, _, rfl, .inr (.inr (.inl rfl)), by decide⟩
  · exact ⟨_, _, rfl, .inr (.inl rfl), by decide⟩

/-! ### Paths -/

/-- The names of a path with dots between them. -/
def pathText (path : List String) : List Char :=
  ((path.map writeName).intersperse ['.']).flatten

theorem pathText_cons (name next : String) (path : List String) :
    pathText (name :: next :: path) = writeName name ++ '.' :: pathText (next :: path) := by
  simp [pathText]

theorem pathText_singleton (name : String) : pathText [name] = writeName name := by
  simp [pathText]

theorem exists_pathText {path : List String} (hne : path ≠ []) :
    ∃ c more, pathText path = c :: more ∧ Opens c ∧ c ≠ '[' := by
  match path with
  | [name] =>
      rw [pathText_singleton]
      exact exists_writeName name
  | name :: next :: path =>
      obtain ⟨c, more, hname, hc⟩ := exists_writeName name
      rw [pathText_cons, hname]
      exact ⟨c, _, rfl, hc⟩

theorem length_le_pathText (path : List String) : path.length ≤ (pathText path).length := by
  match path with
  | [] => exact Nat.zero_le _
  | [name] =>
      obtain ⟨c, more, hname, -⟩ := exists_writeName name
      rw [pathText_singleton, hname]
      exact Nat.succ_le_succ (Nat.zero_le _)
  | name :: next :: path =>
      have hrest := length_le_pathText (next :: path)
      rw [pathText_cons, List.length_append]
      simp only [List.length_cons] at hrest ⊢
      omega

theorem skipSpaces_writeName (name : String) (rest : List Char) :
    skipSpaces (writeName name ++ rest) = writeName name ++ rest := by
  obtain ⟨c, more, hname, hc, -⟩ := exists_writeName name
  rw [hname]
  exact dropWhile_of_stops (stops_cons hc.notSpace _)

/-- A path is read back, and the blanks after it are skipped. -/
theorem readPath_pathText {path : List String} (hne : path ≠ []) (fuel : Nat)
    (hfuel : path.length ≤ fuel) {rest : List Char} (hbare : Stops isBare rest)
    (hdot : (skipSpaces rest).head? ≠ some '.') :
    readPath fuel (pathText path ++ rest) = some (path, skipSpaces rest) := by
  match path, fuel with
  | [name], fuel + 1 =>
      rw [pathText_singleton, readPath, skipSpaces_writeName, readNamePart_writeName name hbare]
      simp only
      split
      · rename_i more heq
        exact absurd (congrArg List.head? heq) hdot
      · rfl
  | name :: next :: path, fuel + 1 =>
      have hrest := readPath_pathText (List.cons_ne_nil next path) fuel
        (by simp only [List.length_cons] at hfuel ⊢; omega) hbare hdot
      rw [pathText_cons, List.append_assoc, List.cons_append, readPath, skipSpaces_writeName,
        readNamePart_writeName name (stops_cons rfl _)]
      show (readPath fuel (pathText (next :: path) ++ rest)).map _ = _
      rw [hrest]
      rfl

/-! ### Lines -/

/-- A line states something: it is read as the statement wherever it ends. -/
structure Line (text : List Char) (statement : Statement) : Prop where
  opens : ∃ c more, text = c :: more ∧ Opens c
  reads : ∀ rest, readStatement (text ++ '\n' :: rest) = some (statement, '\n' :: rest)

/-- The header of a table. -/
theorem line_header {path : List String} (hne : path ≠ []) :
    Line (writeHeader path) (.table path) where
  opens := ⟨'[', _, rfl, .inr (.inr (.inr rfl))⟩
  reads rest := by
    have htext : writeHeader path ++ '\n' :: rest
        = '[' :: (pathText path ++ ']' :: '\n' :: rest) := by
      simp [writeHeader, pathText]
    have hlength := length_le_pathText path
    have hread (fuel : Nat) (hfuel : path.length ≤ fuel) :
        readPath fuel (pathText path ++ ']' :: '\n' :: rest) = some (path, ']' :: '\n' :: rest) :=
      readPath_pathText hne fuel hfuel (stops_cons rfl _)
        (by rw [skipSpaces, dropWhile_of_stops (stops_cons rfl _)]; exact nofun)
    obtain ⟨c, more, hpath, -, hbracket⟩ := exists_pathText hne
    rw [htext, readStatement]
    · rw [hread _ (by simp only [List.length_cons, List.length_append]; omega)]
      rfl
    · rintro r heq
      rw [hpath] at heq
      exact hbracket (List.cons.inj heq).1

/-- A value under a name. -/
theorem line_assign (name : String) {d : Data} (htab : d.Tabular) (hfits : d.Fits)
    (hline : isLine d) :
    Line (writeName name ++ " = ".toList ++ valueText d) (.assign [name] (signed d)) where
  opens := by
    obtain ⟨c, more, hname, hc, -⟩ := exists_writeName name
    rw [hname]
    exact ⟨c, _, rfl, hc⟩
  reads rest := by
    have htext : writeName name ++ " = ".toList ++ valueText d ++ '\n' :: rest
        = pathText [name] ++ ' ' :: '=' :: ' ' :: (valueText d ++ '\n' :: rest) := by
      simp [pathText_singleton]
    have hlength := length_le_pathText [name]
    have hread (fuel : Nat) (hfuel : 1 ≤ fuel) :
        readPath fuel (pathText [name] ++ ' ' :: '=' :: ' ' :: (valueText d ++ '\n' :: rest))
          = some ([name], '=' :: ' ' :: (valueText d ++ '\n' :: rest)) :=
      readPath_pathText (List.cons_ne_nil name []) fuel hfuel (stops_cons rfl _) nofun
    have hvalue (fuel : Nat) : readValue (2 * (fuel + 1)) (valueText d ++ '\n' :: rest)
        = some (signed d, '\n' :: rest) :=
      readValue_valueText htab hfits hline (2 * fuel + 1) rest
    obtain ⟨c, more, hpath, -, hbracket⟩ := exists_pathText (List.cons_ne_nil name [])
    rw [htext, readStatement]
    · rw [hread _ (by omega)]
      simp only [skipSpaces_valueText htab hline]
      rw [hvalue]
      rfl
    · intro r heq
      rw [hpath] at heq
      exact hbracket (List.cons.inj heq).1
    · intro r heq
      rw [hpath] at heq
      exact hbracket (List.cons.inj heq).1

end Toml

end ZoneConsole
