import ZoneConsole.Proofs.Text.Digits
import ZoneConsole.Timestamp.Reader
import ZoneConsole.Timestamp.Writer

/-!
# Timestamps come back

Each part of a timestamp, read where it was written, is back with the rest of the text left over:
a number of a width, a year with a sign or without, a fraction of three, six or nine digits.
**`Timestamp.read_write`** puts the parts together.  A leap second is a second like any other, and
no year of the calendar is too long for the reader.
-/

namespace ZoneConsole.Timestamp

open Text

/-- A part of a text that is a digit is no blank. -/
theorem isBlank_of_isDigit {c : Char} (hc : isDigit c) : isBlank c = false := by
  obtain ⟨hlow, hhigh⟩ := isDigit_iff.1 hc
  simp only [isBlank]
  generalize c.toNat = n at hlow hhigh
  simp only [Bool.or_eq_false_iff, Bool.and_eq_false_iff, decide_eq_false_iff_not,
    beq_eq_false_iff_ne]
  omega

/-- A text that starts with digits starts with no blank. -/
theorem stops_isBlank_digits {ds : List Char} (hds : ∀ c ∈ ds, isDigit c) (hne : ds ≠ [])
    (rest : List Char) : Stops isBlank (ds ++ rest) := by
  obtain ⟨c, ds, rfl⟩ := List.exists_cons_of_ne_nil hne
  exact stops_cons (isBlank_of_isDigit (hds c List.mem_cons_self)) _

/-! ### Numbers -/

theorem number_digits {ds : List Char} (hne : ds ≠ [])
    (hvalue : decimalValue ds < 0x8000000000000000) (rest cs : List Char) :
    number ds rest cs = .ok (decimalValue ds, rest) := by
  obtain ⟨c, ds, rfl⟩ := List.exists_cons_of_ne_nil hne
  exact if_pos hvalue

/-- Digits up to a width, which end there or before another digit. -/
theorem shortNumber_digits (width : Nat) {ds : List Char} (rest : List Char)
    (hds : ∀ c ∈ ds, isDigit c) (hne : ds ≠ []) (hlength : ds.length ≤ width)
    (hvalue : decimalValue ds < 0x8000000000000000)
    (hstops : Stops isDigit (rest.take (width - ds.length))) :
    shortNumber width (ds ++ rest) = .ok (decimalValue ds, rest) := by
  have hdigits : ((ds ++ rest).take width).takeWhile isDigit = ds := by
    rw [List.take_append, List.take_of_length_le hlength]
    exact takeWhile_stops hds hstops
  rw [shortNumber, hdigits, List.drop_left]
  exact number_digits hne hvalue _ _

/-- A number that fills its width needs nothing to end it. -/
theorem shortNumber_padded (width : Nat) {n : Nat} (hwidth : 0 < width) (hn : n < Nat.pow 10 width)
    (hsmall : n < 0x8000000000000000) (rest : List Char) :
    shortNumber width (decimalPadded width n ++ rest) = .ok (n, rest) := by
  have hlength := length_decimalPadded hwidth hn
  have hread := shortNumber_digits width rest (fun c hc => isDigit_of_mem_decimalPadded hc)
    (decimalPadded_ne_nil width n) (Nat.le_of_eq hlength)
    (by rwa [decimalValue_decimalPadded]) (by rw [hlength, Nat.sub_self]; exact stops_nil _)
  rwa [decimalValue_decimalPadded] at hread

theorem field_padded {low high n : Nat} (hlow : low ≤ n) (hhigh : n ≤ high) (hn : n < 100)
    (rest : List Char) : field low high (decimalPadded 2 n ++ rest) = .ok (n, rest) := by
  have hblank : Stops isBlank (decimalPadded 2 n ++ rest) :=
    stops_isBlank_digits (fun c hc => isDigit_of_mem_decimalPadded hc) (decimalPadded_ne_nil 2 n) _
  rw [field, dropWhile_of_stops hblank, shortNumber_padded 2 (by decide) hn (by omega)]
  exact if_pos ⟨hlow, hhigh⟩

theorem mark_self {c : Char} (hc : isBlank c = false) (rest : List Char) :
    mark c (c :: rest) = .ok rest := by
  rw [mark, dropWhile_of_stops (stops_cons hc rest)]
  exact if_pos rfl

/-! ### Years -/

theorem longNumber_padded (width : Nat) {n : Nat} (hsmall : n < 0x8000000000000000)
    {rest : List Char} (hstops : Stops isDigit rest) :
    longNumber (decimalPadded width n ++ rest) = .ok (n, rest) := by
  have hdigits : ∀ c ∈ decimalPadded width n, isDigit c :=
    fun c hc => isDigit_of_mem_decimalPadded hc
  rw [longNumber, takeWhile_stops hdigits hstops, dropWhile_stops hdigits hstops,
    number_digits (decimalPadded_ne_nil width n) (by rwa [decimalValue_decimalPadded]),
    decimalValue_decimalPadded]

/-- A year of the calendar, before anything that is no digit. -/
theorem yearField_writeYear {year : Int} (hfirst : firstYear ≤ year) (hlast : year ≤ lastYear)
    {rest : List Char} (hstops : Stops isDigit rest) :
    yearField (writeYear year ++ rest) = .ok (year, rest) := by
  have hlow : -262143 ≤ year := hfirst
  have hhigh : year ≤ 262142 := hlast
  have hrange : -0x80000000 ≤ year ∧ year < 0x80000000 := by omega
  by_cases hshort : 0 ≤ year ∧ year ≤ 9999
  · -- Four digits without a sign: the first character is none of the two signs.
    have hdigits : ∀ c ∈ decimalPadded 4 year.toNat, isDigit c :=
      fun c hc => isDigit_of_mem_decimalPadded hc
    obtain ⟨c, ds, hds⟩ := List.exists_cons_of_ne_nil (decimalPadded_ne_nil 4 year.toNat)
    have hfour : year.toNat < 10000 := by omega
    have hread := shortNumber_padded 4 (by decide) hfour (by omega) rest
    have hc : isDigit c := hdigits c (hds ▸ List.mem_cons_self)
    have hminus : c ≠ '-' := ne_of_isDigit hc rfl
    have hplus : c ≠ '+' := ne_of_isDigit hc rfl
    have hyear : (1 : Int) * (year.toNat : Int) = year := by omega
    rw [writeYear, if_pos hshort, yearField, dropWhile_of_stops
      (stops_isBlank_digits hdigits (decimalPadded_ne_nil 4 _) rest)]
    rw [hds] at hread ⊢
    simp only [List.cons_append] at hread ⊢
    split
    · rename_i heq
      exact absurd (List.cons.inj heq).1 hminus
    · rename_i heq
      exact absurd (List.cons.inj heq).1 hplus
    · simp only [hread, hyear, if_pos hrange]
  · have hread := longNumber_padded 4 (n := year.natAbs) (by omega) hstops
    rw [writeYear, if_neg hshort]
    by_cases hneg : year < 0
    · have hyear : (-1 : Int) * (year.natAbs : Int) = year := by omega
      rw [if_pos hneg, yearField, List.cons_append, dropWhile_of_stops (stops_cons rfl _)]
      simp only [hread, hyear, if_pos hrange]
    · have hyear : (1 : Int) * (year.natAbs : Int) = year := by omega
      rw [if_neg hneg, yearField, List.cons_append, dropWhile_of_stops (stops_cons rfl _)]
      simp only [hread, hyear, if_pos hrange]

/-! ### Fractions of a second -/

/-- A fraction in so many digits, the last of which need not be other than zero. -/
theorem fraction_padded {width n : Nat} (hwidth : 0 < width) (hnine : width ≤ 9)
    (hn : n < Nat.pow 10 width) {rest : List Char} (hstops : Stops isDigit rest) :
    fraction ('.' :: (decimalPadded width n ++ rest)) = .ok (n * Nat.pow 10 (9 - width), rest) := by
  have hlength := length_decimalPadded hwidth hn
  have hsmall : n < 0x8000000000000000 := by
    have hpow : Nat.pow 10 width ≤ 1000000000 := Nat.pow_le_pow_right (by decide) hnine
    omega
  have htake : Stops isDigit (rest.take (9 - width)) := by
    intro c hc
    cases hsub : 9 - width with
    | zero => simp [hsub] at hc
    | succ k =>
        rw [hsub, List.head?_take, if_neg (Nat.succ_ne_zero k)] at hc
        exact hstops c hc
  have hread := shortNumber_digits 9 rest (fun c hc => isDigit_of_mem_decimalPadded hc)
    (decimalPadded_ne_nil width n) (Nat.le_trans (Nat.le_of_eq hlength) hnine)
    (by rwa [decimalValue_decimalPadded]) (by rwa [hlength])
  rw [decimalValue_decimalPadded] at hread
  rw [fraction]
  simp only [hread, List.length_append, hlength, Nat.add_sub_cancel, dropWhile_of_stops hstops]

theorem fraction_writeFraction {nano : Nat} (hnano : nano < 1000000000) {rest : List Char}
    (hstops : Stops isDigit rest) (hpoint : rest.head? ≠ some '.') :
    fraction (writeFraction nano ++ rest) = .ok (nano, rest) := by
  rw [writeFraction]
  by_cases hzero : nano = 0
  · rw [if_pos hzero, List.nil_append, fraction, hzero]
    rintro more rfl
    exact hpoint rfl
  · rw [if_neg hzero]
    by_cases hmilli : nano % 1000000 = 0
    · have hthree : nano / 1000000 < 1000 := by omega
      have hscaled : nano / 1000000 * Nat.pow 10 (9 - 3) = nano :=
        show nano / 1000000 * 1000000 = nano by omega
      rw [if_pos hmilli, List.cons_append,
        fraction_padded (by decide) (by decide) hthree hstops, hscaled]
    · rw [if_neg hmilli]
      by_cases hmicro : nano % 1000 = 0
      · have hsix : nano / 1000 < 1000000 := by omega
        have hscaled : nano / 1000 * Nat.pow 10 (9 - 6) = nano :=
          show nano / 1000 * 1000 = nano by omega
        rw [if_pos hmicro, List.cons_append,
          fraction_padded (by decide) (by decide) hsix hstops, hscaled]
      · have hscaled : nano * Nat.pow 10 (9 - 9) = nano := Nat.mul_one nano
        rw [if_neg hmicro, List.cons_append,
          fraction_padded (by decide) (by decide) hnano hstops, hscaled]

/-! ### The whole text -/

/-- Fields without an offset are those of the moment. -/
theorem ofLocal_zero (t : Timestamp) :
    ofLocal t.day t.hour t.minute t.second t.nano 0 = .ok t := by
  obtain ⟨hday, hhour, hminute, -, -⟩ := t.valid
  have hminutes : ((t.hour * 60 + t.minute : Nat) - 0 : Int).toNat = t.hour * 60 + t.minute := by
    omega
  have hfields : ofFields? t.day ((t.hour * 60 + t.minute) / 60) ((t.hour * 60 + t.minute) % 60)
      t.second t.nano = some t := by
    rw [show (t.hour * 60 + t.minute) / 60 = t.hour by omega,
      show (t.hour * 60 + t.minute) % 60 = t.minute by omega]
    exact dif_pos t.valid
  rw [ofLocal, hday]
  simp only [Bool.not_true, Bool.false_eq_true, if_false, Int.natAbs_zero]
  rw [if_neg (by decide), if_neg (by omega), if_neg (by omega)]
  simp only [hminutes, hfields]

theorem daysInMonth_le (year : Int) (month : Nat) : daysInMonth year month ≤ 31 := by
  simp only [daysInMonth]
  repeat' split
  all_goals decide

theorem read_writeLocal (t : Timestamp) : read (t.writeLocal ++ ['Z']) = .ok t := by
  obtain ⟨hday, hhour, hminute, hsecond, hnano⟩ := t.valid
  simp only [Day.isValid, decide_eq_true_eq] at hday
  obtain ⟨hfirst, hlast, hmonth, hmonth', hday, hday'⟩ := hday
  have hday'' : t.day.day ≤ 31 := Nat.le_trans hday' (daysInMonth_le _ _)
  have hyear (rest : List Char) : yearField (writeYear t.day.year ++ '-' :: rest)
      = .ok (t.day.year, '-' :: rest) :=
    yearField_writeYear hfirst hlast (stops_cons rfl rest)
  have hdivider (rest : List Char) : divider ('T' :: rest) = .ok rest := rfl
  have hhour' (rest : List Char) : field 0 23 (decimalPadded 2 t.hour ++ rest)
      = .ok (t.hour, rest) := field_padded (Nat.zero_le _) (by omega) (by omega) rest
  have hminute' (rest : List Char) : field 0 59 (decimalPadded 2 t.minute ++ rest)
      = .ok (t.minute, rest) := field_padded (Nat.zero_le _) (by omega) (by omega) rest
  have hfraction : fraction (writeFraction t.nano ++ ['Z']) = .ok (t.nano, ['Z']) :=
    fraction_writeFraction hnano (stops_cons rfl []) (by decide)
  rw [writeLocal, Day.write]
  simp only [List.append_assoc, List.cons_append]
  rw [read]
  simp only [hyear, hdivider, hhour', hminute', hfraction,
    mark_self (show isBlank '-' = false from rfl), mark_self (show isBlank ':' = false from rfl),
    field_padded hmonth hmonth' (by omega), field_padded hday hday'' (by omega),
    field_padded (Nat.zero_le _) hsecond (by omega), bind, Except.bind]
  exact ofLocal_zero t

/-- **A timestamp is read back from its text**, with leap seconds, fractions and any year. -/
theorem read_write (t : Timestamp) : read t.write.toList = .ok t := by
  rw [write, String.toList_ofList]
  exact read_writeLocal t

end ZoneConsole.Timestamp
