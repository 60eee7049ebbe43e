import ZoneConsole.Json
import ZoneConsole.Proofs.Codec.Recovers
import ZoneConsole.Proofs.Json.Layout
import ZoneConsole.Proofs.Json.Quoted
import ZoneConsole.Proofs.Text.Digits

/-!
# Trees come back from their JSON text

The text of a plain tree is read as the tree in any layout, with what follows the text left over.
The proof goes along the tree.  Two things are carried: the reader has at least twice as much fuel
as the text is long, and nothing that would go on with a number follows, which a space, a comma, a
bracket, a brace or the end never does.

* **`readNumber_decimal`** — a natural number of 64 bits.
* **`readValue_write`** — any plain tree, in any layout.
* **`read_compact`**, **`read_pretty`** — its two texts.
* **`decode_encode`** — a value of any codec that recovers it.
-/

namespace ZoneConsole.Json

open Text

/-! ### Numbers -/

/-- Would the character go on with a number? -/
def goesOn (c : Char) : Bool := isDigit c || c = '.' || c = 'e' || c = 'E'

theorem stops_digit {rest : List Char} (h : Stops goesOn rest) : Stops isDigit rest := by
  intro c hc
  have hgoes := h c hc
  simp only [goesOn, Bool.or_eq_false_iff] at hgoes
  exact hgoes.1.1.1

theorem wholeDigits_decimal (n : Nat) {rest : List Char} (h : Stops goesOn rest) :
    wholeDigits (decimal n ++ rest) = .ok (decimal n, rest) := by
  have hdigits : ∀ c ∈ decimal n, isDigit c := fun c hc => isDigit_of_mem_decimal hc
  by_cases hn : n = 0
  · subst hn
    rw [decimal_zero]
    cases rest with
    | nil => rfl
    | cons c rest =>
        have hc : isDigit c = false := stops_digit h c rfl
        show (if isDigit c then .error (some Fault.invalidNumber) else .ok (['0'], c :: rest))
          = Except.ok (['0'], c :: rest)
        rw [hc]
        rfl
  · have hzero := head?_decimal_ne hn
    obtain ⟨c, ds, hds⟩ := List.exists_cons_of_ne_nil (decimal_ne_nil n)
    have hc : isDigit c := hdigits c (hds ▸ List.mem_cons_self)
    have htake := takeWhile_stops hdigits (stops_digit h)
    have hdrop := dropWhile_stops hdigits (stops_digit h)
    rw [hds] at hzero htake hdrop ⊢
    rw [wholeDigits]
    · rw [List.cons_append] at htake hdrop ⊢
      rw [someDigits, if_pos hc, htake, hdrop]
    · rintro r heq
      exact hzero (congrArg some (List.cons.inj heq).1)

theorem fractionDigits_stops {rest : List Char} (h : Stops goesOn rest) :
    fractionDigits rest = .ok (none, rest) := by
  rw [fractionDigits]
  rintro more rfl
  exact absurd (h '.' rfl) (by decide)

theorem exponentDigits_stops {rest : List Char} (h : Stops goesOn rest) :
    exponentDigits rest = .ok (none, rest) := by
  cases rest with
  | nil => rfl
  | cons c rest =>
      have hc := h c rfl
      simp only [goesOn, Bool.or_eq_false_iff, decide_eq_false_iff_not] at hc
      exact if_neg fun he => he.elim hc.1.2 hc.2

theorem le_foldl_digits (ds : List Char) (n : Nat) :
    n ≤ ds.foldl (fun n c => n * 10 + digitValue c) n := by
  induction ds generalizing n with
  | nil => exact Nat.le_refl n
  | cons c ds ih =>
      have hstep := ih (n * 10 + digitValue c)
      rw [List.foldl_cons]
      omega

/-- Digits of a number that fits are all taken. -/
theorem takeDigits_fits (ds : List Char) (n : Nat)
    (h : ds.foldl (fun n c => n * 10 + digitValue c) n < UInt64.size) :
    takeDigits n ds = (ds.foldl (fun n c => n * 10 + digitValue c) n, []) := by
  induction ds generalizing n with
  | nil => rfl
  | cons c ds ih =>
      rw [List.foldl_cons] at h ⊢
      have hfits := Nat.lt_of_le_of_lt (le_foldl_digits ds _) h
      rw [takeDigits]
      simp only [if_pos hfits]
      exact ih _ h

/-- A natural number of 64 bits is read back. -/
theorem readNumber_decimal {n : Nat} (hn : n < UInt64.size) {rest : List Char}
    (h : Stops goesOn rest) :
    readNumber (decimal n ++ rest) = (.num (.unsigned n), some rest) := by
  -- The scan finds digits alone, and their value fits, so it is taken as it stands.
  have hscan : scanNumber (decimal n ++ rest) = .ok (⟨false, decimal n, none, none⟩, rest) := by
    obtain ⟨c, ds, hds⟩ := List.exists_cons_of_ne_nil (decimal_ne_nil n)
    have hc : isDigit c := isDigit_of_mem_decimal (hds ▸ List.mem_cons_self)
    have hminus : c ≠ '-' := ne_of_isDigit hc rfl
    have hwhole := wholeDigits_decimal n h
    rw [hds, List.cons_append] at hwhole ⊢
    simp [scanNumber, hminus, hwhole, fractionDigits_stops h, exponentDigits_stops h]
  have hvalue : (NumberText.mk false (decimal n) none none).value = .ok (.unsigned n) := by
    have htake : takeDigits 0 (decimal n) = (n, []) := by
      have hfold : (decimal n).foldl (fun n c => n * 10 + digitValue c) 0 = n :=
        decimalValue_decimal n
      rw [takeDigits_fits _ _ (by rwa [hfold]), hfold]
    simp only [NumberText.value, htake]
    rfl
  rw [readNumber, hscan]
  simp only [hvalue]

/-! ### Where a value begins -/

theorem skipSpaces_cons {c : Char} (hc : isSpace c = false) (cs : List Char) :
    skipSpaces (c :: cs) = c :: cs :=
  dropWhile_of_stops (stops_cons hc cs)

/-- A text that starts like a value or a name: with no space, and with nothing that closes a
    list or an object. -/
def Begins (cs : List Char) : Prop :=
  ∃ c more, cs = c :: more ∧ isSpace c = false ∧ c ≠ ']' ∧ c ≠ '\x7d'

theorem Begins.append {cs : List Char} (h : Begins cs) (rest : List Char) :
    Begins (cs ++ rest) := by
  obtain ⟨c, more, rfl, hc⟩ := h
  exact ⟨c, more ++ rest, rfl, hc⟩

theorem Begins.length_pos {cs : List Char} (h : Begins cs) : 0 < cs.length := by
  obtain ⟨c, more, rfl, -⟩ := h
  exact Nat.succ_pos _

theorem begins_decimal (n : Nat) : Begins (decimal n) := by
  obtain ⟨c, ds, hds⟩ := List.exists_cons_of_ne_nil (decimal_ne_nil n)
  have hc : isDigit c := isDigit_of_mem_decimal (hds ▸ List.mem_cons_self)
  have hspace : isSpace c = false := by
    simp only [isSpace, Bool.or_eq_false_iff, decide_eq_false_iff_not]
    exact ⟨⟨⟨ne_of_isDigit hc rfl, ne_of_isDigit hc rfl⟩, ne_of_isDigit hc rfl⟩,
      ne_of_isDigit hc rfl⟩
  exact ⟨c, ds, hds, hspace, ne_of_isDigit hc rfl, ne_of_isDigit hc rfl⟩

theorem begins_write (l : Layout) (level : Nat) {d : Data} (h : d.Plain) :
    Begins (l.write level d) := by
  cases d with
  | null => exact ⟨'n', _, rfl, by decide⟩
  | bool b =>
      cases b with
      | false => exact ⟨'f', _, rfl, by decide⟩
      | true => exact ⟨'t', _, rfl, by decide⟩
  | num n =>
      cases n with
      | unsigned n => exact begins_decimal n
      | signed => exact h.elim
      | real => exact h.elim
  | str s => exact ⟨'"', _, rfl, by decide⟩
  | seq items => cases items <;> exact ⟨'[', _, rfl, by decide⟩
  | map members => cases members <;> exact ⟨'\x7b', _, rfl, by decide⟩

/-! ### Spaces -/

section Spaces

variable {gap : List Char} (hgap : ∀ c ∈ gap, isSpace c = true)
include hgap

theorem skipSpaces_append (cs : List Char) : skipSpaces (gap ++ cs) = skipSpaces cs :=
  List.dropWhile_append_of_pos hgap

/-- Spaces before a value do not matter. -/
theorem readValue_append (fuel : Nat) (cs : List Char) :
    readValue fuel (gap ++ cs) = readValue fuel cs := by
  cases fuel with
  | zero => rfl
  | succ fuel => rw [readValue, readValue, skipSpaces_append hgap]

/-- What ends a number still does after spaces. -/
theorem stops_append {c : Char} (hc : goesOn c = false) (rest : List Char) :
    Stops goesOn (gap ++ c :: rest) := by
  cases gap with
  | nil => exact stops_cons hc rest
  | cons space gap =>
      have hspace := hgap space List.mem_cons_self
      simp only [isSpace, Bool.or_eq_true, decide_eq_true_eq] at hspace
      refine stops_cons ?_ _
      rcases hspace with ((rfl | rfl) | rfl) | rfl <;> rfl

end Spaces

/-! ### Trees -/

/-- A number is what a text that starts with a digit is read as. -/
theorem readValue_decimal (fuel n : Nat) (rest : List Char) :
    readValue (fuel + 1) (decimal n ++ rest) = readNumber (decimal n ++ rest) := by
  obtain ⟨c, ds, hds⟩ := List.exists_cons_of_ne_nil (decimal_ne_nil n)
  obtain ⟨c', ds', hds', hspace, -⟩ := begins_decimal n
  obtain ⟨rfl, rfl⟩ := List.cons.inj (hds.symm.trans hds')
  have hc : isDigit c := isDigit_of_mem_decimal (hds ▸ List.mem_cons_self)
  -- The reader tells values apart by their first character, and a digit is none of these.
  have hn : c ≠ 'n' := ne_of_isDigit hc rfl
  have ht : c ≠ 't' := ne_of_isDigit hc rfl
  have hf : c ≠ 'f' := ne_of_isDigit hc rfl
  have hquote : c ≠ '"' := ne_of_isDigit hc rfl
  have hbracket : c ≠ '[' := ne_of_isDigit hc rfl
  have hbrace : c ≠ '\x7b' := ne_of_isDigit hc rfl
  rw [hds, List.cons_append, readValue, skipSpaces_cons hspace]
  simp [hc]

section Steps

variable {fuel : Nat} {gap cs more : List Char} (hgap : ∀ c ∈ gap, isSpace c = true)
include hgap

/-- A list of at least one item is read item by item. -/
theorem readValue_seq (h : Begins cs) :
    readValue (fuel + 1) ('[' :: (gap ++ cs)) =
      (.seq (readItems fuel cs).1 (readItems fuel cs).2.1, (readItems fuel cs).2.2) := by
  obtain ⟨c, more, rfl, hspace, hclose, -⟩ := h
  rw [readValue, skipSpaces_cons (by decide)]
  simp [skipSpaces_append hgap, skipSpaces_cons hspace]

/-- An object of at least one member is read member by member. -/
theorem readValue_map (h : Begins cs) :
    readValue (fuel + 1) ('\x7b' :: (gap ++ cs)) =
      (.map (readMembers fuel cs).1 (readMembers fuel cs).2.1, (readMembers fuel cs).2.2) := by
  obtain ⟨c, more, rfl, hspace, -, hclose⟩ := h
  rw [readValue, skipSpaces_cons (by decide)]
  simp [skipSpaces_append hgap, skipSpaces_cons hspace]

theorem readItems_last {item : Reading}
    (h : readValue fuel cs = (item, some (gap ++ ']' :: more))) :
    readItems (fuel + 1) cs = ([item], .closed, some more) := by
  rw [readItems, h]
  simp [skipSpaces_append hgap, skipSpaces_cons (show isSpace ']' = false from rfl)]

theorem readItems_cons {item : Reading}
    (h : readValue fuel cs = (item, some (',' :: (gap ++ more)))) (hmore : Begins more) :
    readItems (fuel + 1) cs = (item :: (readItems fuel more).1, (readItems fuel more).2) := by
  obtain ⟨c, more, rfl, hspace, hclose, -⟩ := hmore
  rw [readItems, h]
  simp [skipSpaces_cons (show isSpace ',' = false from rfl), skipSpaces_append hgap,
    skipSpaces_cons hspace]

theorem readMembers_last {name : String} {value : Reading}
    (h : readValue fuel cs = (value, some (gap ++ '\x7d' :: more))) :
    readMembers (fuel + 1) (writeQuoted name ++ ':' :: cs)
      = ([(.str name, value)], .closed, some more) := by
  rw [writeQuoted_append, readMembers, readQuoted_writeQuoted]
  simp [skipSpaces_cons (show isSpace ':' = false from rfl), h, skipSpaces_append hgap,
    skipSpaces_cons (show isSpace '\x7d' = false from rfl)]

theorem readMembers_cons {name : String} {value : Reading}
    (h : readValue fuel cs = (value, some (',' :: (gap ++ more)))) (hmore : Begins more) :
    readMembers (fuel + 1) (writeQuoted name ++ ':' :: cs)
      = ((.str name, value) :: (readMembers fuel more).1, (readMembers fuel more).2) := by
  obtain ⟨c, more, rfl, hspace, -, hclose⟩ := hmore
  rw [writeQuoted_append, readMembers, readQuoted_writeQuoted]
  simp [skipSpaces_cons (show isSpace ':' = false from rfl), h,
    skipSpaces_cons (show isSpace ',' = false from rfl), skipSpaces_append hgap,
    skipSpaces_cons hspace]

end Steps

section Layouts

variable (l : Layout)

theorem begins_writeItems (level : Nat) {items : List Data} (h : Data.PlainItems items)
    (hne : items ≠ []) : Begins (l.writeItems level items) := by
  match items with
  | [item] => exact (begins_write l _ h.1).append _
  | item :: next :: rest => exact (begins_write l _ h.1).append _

theorem begins_writeMembers (level : Nat) {members : List (String × Data)} (hne : members ≠ []) :
    Begins (l.writeMembers level members) := by
  match members with
  | [(name, value)] => exact ⟨'"', _, rfl, by decide⟩
  | (name, value) :: next :: rest => exact ⟨'"', _, rfl, by decide⟩

mutual

/-- **A value in any layout**, with enough fuel, before a text that does not go on with a
    number. -/
theorem readValue_write : ∀ (d : Data), d.Plain → ∀ (level fuel : Nat) (rest : List Char),
    2 * (l.write level d).length ≤ fuel → Stops goesOn rest →
    readValue fuel (l.write level d ++ rest) = (.ofData d, some rest)
  | d, hplain, level, 0, _, hfuel, _ => by
      have hpos := (begins_write l level hplain).length_pos
      omega
  | .null, _, _, fuel + 1, rest, _, _ => rfl
  | .bool b, _, _, fuel + 1, rest, _, _ => by
      cases b with
      | false => rfl
      | true => rfl
  | .num (.unsigned n), hplain, _, fuel + 1, rest, _, hrest => by
      exact (readValue_decimal fuel n rest).trans (readNumber_decimal hplain hrest)
  | .str s, _, _, fuel + 1, rest, _, _ => by
      rw [Layout.write, writeQuoted_append, readValue, skipSpaces_cons (by decide)]
      exact readQuoted_writeQuoted s rest
  | .seq [], _, _, fuel + 1, rest, _, _ => rfl
  | .seq (item :: items), hplain, level, fuel + 1, rest, hfuel, _ => by
      have hitems := readItems_write (item :: items) (by simp) hplain level fuel rest (by
        rw [Layout.write, List.length_cons, List.length_append] at hfuel
        omega)
      rw [Layout.write, List.cons_append, List.append_assoc, readValue_seq (l.gap_spaces _)
        ((begins_writeItems l level hplain (by simp)).append rest), hitems]
      rfl
  | .map [], _, _, fuel + 1, rest, _, _ => rfl
  | .map (member :: members), hplain, level, fuel + 1, rest, hfuel, _ => by
      have hmembers := readMembers_write (member :: members) (by simp) hplain.2 level fuel rest (by
        rw [Layout.write, List.length_cons, List.length_append] at hfuel
        omega)
      rw [Layout.write, List.cons_append, List.append_assoc, readValue_map (l.gap_spaces _)
        ((begins_writeMembers l level (by simp)).append rest), hmembers]
      rfl

theorem readItems_write : ∀ (items : List Data), items ≠ [] → Data.PlainItems items →
    ∀ (level fuel : Nat) (rest : List Char), 2 * (l.writeItems level items).length ≤ fuel →
    readItems fuel (l.writeItems level items ++ rest) =
      (Reading.ofItems items, .closed, some rest)
  | items, hne, hplain, level, 0, _, hfuel => by
      have hpos := (begins_writeItems l level hplain hne).length_pos
      omega
  | [item], _, hplain, level, fuel + 1, rest, hfuel => by
      rw [Layout.writeItems, List.length_append, List.length_append, List.length_singleton] at hfuel
      rw [Layout.writeItems, List.append_assoc, List.append_assoc]
      exact readItems_last (l.gap_spaces level) (readValue_write item hplain.1 _ fuel _ (by omega)
        (stops_append (l.gap_spaces level) rfl rest))
  | item :: next :: items, _, hplain, level, fuel + 1, rest, hfuel => by
      rw [Layout.writeItems, List.length_append, List.length_cons, List.length_append] at hfuel
      · have hitem := readValue_write item hplain.1 (level + 1) fuel
          (',' :: (l.gap (level + 1) ++ (l.writeItems level (next :: items) ++ rest))) (by omega)
          (stops_cons rfl _)
        have hitems := readItems_write (next :: items) (by simp) hplain.2 level fuel rest (by omega)
        rw [Layout.writeItems, List.append_assoc, List.cons_append, List.append_assoc,
          readItems_cons (l.gap_spaces _) hitem
            ((begins_writeItems l level hplain.2 (by simp)).append rest), hitems]
        · rfl
        · simp
      · simp

theorem readMembers_write : ∀ (members : List (String × Data)), members ≠ [] →
    Data.PlainMembers members → ∀ (level fuel : Nat) (rest : List Char),
    2 * (l.writeMembers level members).length ≤ fuel →
    readMembers fuel (l.writeMembers level members ++ rest)
      = (Reading.ofMembers members, .closed, some rest)
  | members, hne, _, level, 0, _, hfuel => by
      have hpos := (begins_writeMembers l level hne).length_pos
      omega
  | [(name, value)], _, hplain, level, fuel + 1, rest, hfuel => by
      simp only [Layout.writeMembers, List.length_append, List.length_cons] at hfuel
      simp only [Layout.writeMembers, List.append_assoc, List.cons_append]
      refine readMembers_last (l.gap_spaces level) ?_
      rw [readValue_append l.afterColon_spaces]
      exact readValue_write value hplain.1 _ fuel _ (by omega)
        (stops_append (l.gap_spaces level) rfl rest)
  | (name, value) :: next :: members, _, hplain, level, fuel + 1, rest, hfuel => by
      rw [Layout.writeMembers] at hfuel ⊢
      · simp only [List.length_append, List.length_cons] at hfuel
        simp only [List.append_assoc, List.cons_append]
        have hvalue := readValue_write value hplain.1 (level + 1) fuel
          (',' :: (l.gap (level + 1) ++ (l.writeMembers level (next :: members) ++ rest)))
          (by omega) (stops_cons rfl _)
        have hmembers := readMembers_write (next :: members) (by simp) hplain.2 level fuel rest
          (by omega)
        rw [← readValue_append l.afterColon_spaces] at hvalue
        rw [readMembers_cons (l.gap_spaces _) hvalue
          ((begins_writeMembers l level (by simp)).append rest), hmembers]
        rfl
      · simp
      · simp

end

/-- **A plain tree is read back from its text in any layout.** -/
theorem read_write {d : Data} (h : d.Plain) (level : Nat) :
    read (l.write level d) = (.ofData d, some []) := by
  have hread := readValue_write l d h level (2 * (l.write level d).length + 2) [] (by omega)
    (stops_nil _)
  rwa [List.append_nil] at hread

end Layouts

/-- **A plain tree is read back from its compact text.** -/
theorem read_compact {d : Data} (h : d.Plain) : read (compact d) = (.ofData d, some []) := by
  rw [compact_eq 0]
  exact read_write Layout.tight h 0

/-- **A plain tree is read back from the text with an item or member a line.** -/
theorem read_pretty {d : Data} (h : d.Plain) : read (pretty d) = (.ofData d, some []) := by
  rw [pretty_eq]
  exact read_write Layout.lines h 0

/-- What a codec recovers is read back from every text that is read as its tree. -/
theorem decode_of_read {α : Type} {c : Codec α} {a : α} (h : c.Recovers a) {text : String}
    (htext : read text.toList = (.ofData (c.encode a), some [])) : decode c text = .ok a := by
  have hread : c.decode (.ofData (c.encode a)) = .ok a :=
    h.reads _ (Reading.shows_ofData h.plain)
  rw [decode, htext]
  simp only [hread]
  rfl

/-- **What a codec recovers is read back from its text.** -/
theorem decode_encode {α : Type} {c : Codec α} {a : α} (h : c.Recovers a) :
    decode c (encode c a) = .ok a := by
  refine decode_of_read h ?_
  rw [encode, String.toList_ofList]
  exact read_compact h.plain

end ZoneConsole.Json
