import Mathlib.Tactic.Ring
import ZoneConsole.Proofs.Text.Digits
import ZoneConsole.Url.Punycode

/-!
# Encoded labels are decoded

The encoder takes the characters of a label by their codes, and those of one code from the left
to the right.  Between two of them it counts the places that it passes: a place is a code
together with a position among the characters that are written already, and the places are
counted code by code.  The decoder goes to the place that a number leads to, and puts the
character there.  So both are at the same place after each character, and the decoder has just
the part of the label that the encoder has written.

* **`readNumber_number`** — a number is read back.
* **`Reader`**, **`Agrees`** — what the decoder keeps, and how it goes with what the encoder keeps.
* **`agrees_pass`** — one character of a pass keeps this; **`Between.rounds`** — all the rounds do.
* **`decode_encode`** — a label is decoded from its encoded form.
-/

namespace ZoneConsole.Punycode

/-! ### Numbers -/

theorem threshold_le (bias k : Nat) : threshold bias k ≤ 26 := by
  unfold threshold
  split
  · omega
  · split <;> omega

/-- A digit is read back, and it is not the mark between characters and numbers. -/
theorem digitValue?_digit {d : Nat} (hd : d < 36) :
    digitValue? (digit d) = some d ∧ digit d ≠ '-' := by
  have hall : ∀ d < 36, digitValue? (digit d) = some d ∧ digit d ≠ '-' := by decide
  exact hall d hd

/-- The text is one of digits. -/
def IsDigits (cs : List Char) : Prop := ∀ c ∈ cs, ∃ d < 36, c = digit d

theorem isDigits_number (bias k q : Nat) : IsDigits (number bias k q) := by
  induction k, q using number.induct bias with
  | case1 k q t hlt =>
      rw [number, if_pos hlt]
      intro c hc
      have hle := threshold_le bias k
      exact ⟨q, by omega, List.mem_singleton.1 hc⟩
  | case2 k q t hge ih =>
      rw [number, if_neg hge]
      intro c hc
      rcases List.mem_cons.1 hc with rfl | hc
      · have hle := threshold_le bias k
        have hmod := Nat.mod_lt (q - threshold bias k) (show 0 < 36 - threshold bias k by omega)
        exact ⟨_, by omega, rfl⟩
      · exact ih c hc

/-- A digit and what is left of a number have the weight of the number. -/
theorem carry {q t : Nat} (hle : t ≤ q) (i weight : Nat) :
    i + (t + (q - t) % (36 - t)) * weight + (q - t) / (36 - t) * (weight * (36 - t)) =
      i + q * weight := by
  have hdiv := Nat.mod_add_div (q - t) (36 - t)
  have hsum : t + (q - t) % (36 - t) + (36 - t) * ((q - t) / (36 - t)) = q := by omega
  calc i + (t + (q - t) % (36 - t)) * weight + (q - t) / (36 - t) * (weight * (36 - t))
      = i + (t + (q - t) % (36 - t) + (36 - t) * ((q - t) / (36 - t))) * weight := by ring
    _ = i + q * weight := by rw [hsum]

/-- **A number is read back**, whatever follows it. -/
theorem readNumber_number (bias k q i weight : Nat) (rest : List Char) :
    readNumber bias i weight k (number bias k q ++ rest) = some (i + q * weight, rest) := by
  induction k, q using number.induct bias generalizing i weight with
  | case1 k q t hlt =>
      have hle := threshold_le bias k
      have hdigit := (digitValue?_digit (show q < 36 by omega)).1
      rw [number, if_pos hlt, List.singleton_append, readNumber, hdigit]
      exact if_pos hlt
  | case2 k q t hge ih =>
      have hle := threshold_le bias k
      have hmod := Nat.mod_lt (q - threshold bias k) (show 0 < 36 - threshold bias k by omega)
      have hdigit := (digitValue?_digit (show threshold bias k +
        (q - threshold bias k) % (36 - threshold bias k) < 36 by omega)).1
      rw [number, if_neg hge, List.cons_append, readNumber, hdigit]
      simp only
      rw [if_neg (by omega), ih]
      exact congrArg (fun n => some (n, rest)) (carry (Nat.le_of_not_lt hge) i weight)

/-- A number has a digit at least. -/
theorem number_ne_nil (bias k q : Nat) : number bias k q ≠ [] := by
  rw [number]
  split <;> exact List.cons_ne_nil _ _

/-! ### The decoder beside the encoder -/

/-- What the decoder keeps: the place after the character that it has put in last, and the label
    so far. -/
structure Reader where
  code : Nat
  position : Nat
  label : List Char

/-- The decoder goes on from what it keeps with a text of numbers. -/
def Reader.insertAll (r : Reader) (bias : Nat) (cs : List Char) : Option (List Char) :=
  Punycode.insertAll r.code r.position bias r.label cs

/-- A number leads to a place, and the character of the place is put in there. -/
theorem insertAll_number {r : Reader} {bias q code position : Nat} (c : Char)
    (hplace : r.position + q = (code - r.code) * (r.label.length + 1) + position)
    (hle : r.code ≤ code) (hlt : position ≤ r.label.length) (hc : c.toNat = code)
    (rest : List Char) :
    r.insertAll bias (number bias 36 q ++ rest) =
      Reader.insertAll ⟨code, position + 1,
        r.label.take position ++ c :: r.label.drop position⟩
        (adapt q (r.label.length + 1) (r.position == 0)) rest := by
  have hread := readNumber_number bias 36 q r.position 1 rest
  rw [Nat.mul_one, hplace] at hread
  -- the number tells both the code and the place, as its quotient and its remainder
  have hcode : r.code + ((code - r.code) * (r.label.length + 1) + position) /
      (r.label.length + 1) = code := by
    rw [Nat.add_comm (_ * _), Nat.add_mul_div_right _ _ (Nat.succ_pos _),
      Nat.div_eq_of_lt (Nat.lt_succ_of_le hlt)]
    omega
  have hposition : ((code - r.code) * (r.label.length + 1) + position) % (r.label.length + 1) =
      position := by
    rw [Nat.add_comm (_ * _), Nat.add_mul_mod_self_right, Nat.mod_eq_of_lt (Nat.lt_succ_of_le hlt)]
  have hnumber : (code - r.code) * (r.label.length + 1) + position - r.position = q := by omega
  have hchar : Char.ofNat code = c := hc ▸ Char.ofNat_toNat c
  have hvalid : code.isValidChar := hc ▸ c.valid
  rw [Reader.insertAll, Punycode.insertAll, if_neg (by simp [number_ne_nil])]
  split
  · rename_i hnone
    rw [hread] at hnone
    cases hnone
  · rename_i j more hsome
    rw [hread] at hsome
    obtain ⟨rfl, rfl⟩ := Prod.mk.inj (Option.some.inj hsome)
    simp only [hcode, hposition, hnumber, hchar]
    exact if_pos hvalid

/-- What the encoder has written between two of its states takes the decoder from one label to
    another. -/
def Leads (s : State) (r : Reader) (s' : State) (r' : Reader) : Prop :=
  ∃ written, s'.out = s.out ++ written ∧ IsDigits written ∧
    ∀ rest, r.insertAll s.bias (written ++ rest) = r'.insertAll s'.bias rest

theorem Leads.refl {s s' : State} (r : Reader) (hout : s'.out = s.out) (hbias : s'.bias = s.bias) :
    Leads s r s' r := by
  refine ⟨[], by rw [hout, List.append_nil], List.forall_mem_nil _, fun rest => ?_⟩
  rw [hbias]
  rfl

theorem Leads.trans {s s' s'' : State} {r r' r'' : Reader} (h : Leads s r s' r')
    (h' : Leads s' r' s'' r'') : Leads s r s'' r'' := by
  obtain ⟨written, hout, hdigits, hread⟩ := h
  obtain ⟨more, hout', hdigits', hread'⟩ := h'
  refine ⟨written ++ more, ?_, List.forall_mem_append.2 ⟨hdigits, hdigits'⟩, fun rest => ?_⟩
  · rw [hout', hout, List.append_assoc]
  · rw [List.append_assoc, hread, hread']

/-- In the pass for a code, with a part of the label behind: the decoder has the characters that
    are written, and the encoder has counted the places from the last of them to here. -/
structure Agrees (basics code : Nat) (behind ahead : List Char) (s : State) (r : Reader) :
    Prop where
  label : r.label = behind.filter (·.toNat ≤ code) ++ ahead.filter (·.toNat < code)
  handled : s.handled = r.label.length
  place : s.delta + r.code * (r.label.length + 1) + r.position =
    code * (r.label.length + 1) + (behind.filter (·.toNat ≤ code)).length
  code : r.code ≤ code
  first : r.position = 0 ↔ s.handled = basics
  basics : basics ≤ s.handled

variable {basics code : Nat} {behind ahead label : List Char} {s : State} {r : Reader}

/-- **One character of a pass.** -/
theorem agrees_pass (c : Char) (h : Agrees basics code behind (c :: ahead) s r) :
    ∃ r', Agrees basics code (behind ++ [c]) ahead (pass code basics s c) r' ∧
      Leads s r (pass code basics s c) r' := by
  have hfilter : ∀ p : Char → Bool, (behind ++ [c]).filter p =
      behind.filter p ++ if p c then [c] else [] := by
    intro p
    rw [List.filter_append, List.filter_cons, List.filter_nil]
  by_cases hlt : c.toNat < code
  · -- A character that is there already counts as a place.
    have hpass : pass code basics s c = { s with delta := s.delta + 1 } := if_pos hlt
    rw [hpass]
    refine ⟨r, ⟨?_, h.handled, ?_, h.code, h.first, h.basics⟩, .refl r rfl rfl⟩
    · rw [h.label, hfilter, List.filter_cons]
      simp [hlt, Nat.le_of_lt hlt]
    · have hplace := h.place
      simp only [hfilter, List.length_append, Nat.le_of_lt hlt, decide_true, if_true,
        List.length_singleton]
      omega
  by_cases heq : c.toNat = code
  · -- The character is written, and put in by the decoder.
    have hpass : pass code basics s c =
        { delta := 0
          bias := adapt s.delta (s.handled + 1) (s.handled == basics)
          handled := s.handled + 1
          out := s.out ++ number s.bias 36 s.delta } := by
      rw [pass, if_neg hlt, if_pos heq]
    rw [hpass]
    have hahead : (c :: ahead).filter (·.toNat < code) = ahead.filter (·.toNat < code) :=
      List.filter_cons_of_neg (by simp [heq])
    have hbehind : (behind ++ [c]).filter (·.toNat ≤ code) =
        behind.filter (·.toNat ≤ code) ++ [c] := by
      rw [hfilter, if_pos (by simp [heq])]
    have hlabel := h.label
    rw [hahead] at hlabel
    have hlength : (behind.filter (·.toNat ≤ code)).length ≤ r.label.length := by
      rw [hlabel, List.length_append]
      exact Nat.le_add_right _ _
    have hplace : r.position + s.delta =
        (code - r.code) * (r.label.length + 1) + (behind.filter (·.toNat ≤ code)).length := by
      have hsub := Nat.sub_mul code r.code (r.label.length + 1)
      have hmul := Nat.mul_le_mul_right (r.label.length + 1) h.code
      have hbefore := h.place
      omega
    have htake : r.label.take (behind.filter (·.toNat ≤ code)).length =
        behind.filter (·.toNat ≤ code) := by rw [hlabel, List.take_left']; rfl
    have hdrop : r.label.drop (behind.filter (·.toNat ≤ code)).length =
        ahead.filter (·.toNat < code) := by rw [hlabel, List.drop_left']; rfl
    have hfirst : (r.position == 0) = (s.handled == basics) := by
      rw [Bool.eq_iff_iff, beq_iff_eq, beq_iff_eq]
      exact h.first
    refine ⟨⟨code, (behind.filter (·.toNat ≤ code)).length + 1,
      behind.filter (·.toNat ≤ code) ++ c :: ahead.filter (·.toNat < code)⟩,
      ⟨?_, ?_, ?_, Nat.le_refl _, ?_, Nat.le_succ_of_le h.basics⟩,
      number s.bias 36 s.delta, rfl, isDigits_number _ _ _, fun rest => ?_⟩
    · simp [hbehind]
    · simp [h.handled, hlabel]
      omega
    · simp [hbehind]
    · refine iff_of_false (Nat.succ_ne_zero _) fun hsame => ?_
      have hle := h.basics
      simp only at hsame
      omega
    · rw [insertAll_number c hplace h.code hlength heq, htake, hdrop, hfirst, h.handled]
  · -- A later pass will write the character.
    have hpass : pass code basics s c = s := by rw [pass, if_neg hlt, if_neg heq]
    rw [hpass]
    refine ⟨r, ⟨?_, h.handled, ?_, h.code, h.first, h.basics⟩, .refl r rfl rfl⟩
    · rw [h.label, hfilter, List.filter_cons_of_neg (by simp [hlt]),
        if_neg (by simp; omega), List.append_nil]
    · rw [hfilter, if_neg (by simp; omega), List.append_nil]
      exact h.place

/-- **A whole pass.** -/
theorem agrees_foldl (h : Agrees basics code behind ahead s r) :
    ∃ r', Agrees basics code (behind ++ ahead) [] (ahead.foldl (pass code basics) s) r' ∧
      Leads s r (ahead.foldl (pass code basics) s) r' := by
  induction ahead generalizing behind s r with
  | nil => exact ⟨r, by rwa [List.append_nil], .refl r rfl rfl⟩
  | cons c rest ih =>
      obtain ⟨r', hagrees, hleads⟩ := agrees_pass c h
      obtain ⟨r'', hagrees', hleads'⟩ := ih hagrees
      refine ⟨r'', ?_, hleads.trans hleads'⟩
      rwa [List.append_assoc] at hagrees'

/-- Between two passes the characters below a code are written, and the encoder is at the first
    place of that code. -/
structure Between (basics code : Nat) (label : List Char) (s : State) (r : Reader) : Prop where
  label : r.label = label.filter (·.toNat < code)
  handled : s.handled = r.label.length
  place : s.delta + r.code * (r.label.length + 1) + r.position = code * (r.label.length + 1)
  code : r.code ≤ code
  first : r.position = 0 ↔ s.handled = basics
  basics : basics ≤ s.handled

/-- A pass for a code begins at its first place, if the label has no character between. -/
theorem Between.begin {next : Nat} (h : Between basics code label s r) (hle : code ≤ next)
    (hnone : ∀ c ∈ label, ¬ (code ≤ c.toNat ∧ c.toNat < next)) :
    Agrees basics next [] label
      { s with delta := s.delta + (next - code) * (s.handled + 1) } r := by
  refine ⟨?_, h.handled, ?_, h.code.trans hle, h.first, h.basics⟩
  · rw [h.label, List.filter_nil, List.nil_append]
    refine List.filter_congr fun c hc => ?_
    have hc' := hnone c hc
    rw [decide_eq_decide]
    omega
  · have hplace := h.place
    have hsub := Nat.sub_mul next code (s.handled + 1)
    have hmul := Nat.mul_le_mul_right (s.handled + 1) hle
    simp only [h.handled, List.filter_nil, List.length_nil] at *
    omega

/-- After a pass the encoder goes on to the first place of the next code. -/
theorem Agrees.done (h : Agrees basics code label [] s r) :
    Between basics (code + 1) label { s with delta := s.delta + 1 } r := by
  have hlabel : r.label = label.filter (·.toNat ≤ code) := by simpa using h.label
  refine ⟨?_, h.handled, ?_, Nat.le_succ_of_le h.code, h.first, h.basics⟩
  · rw [hlabel]
    exact List.filter_congr fun c _ => by rw [decide_eq_decide]; omega
  · have hplace := h.place
    rw [← hlabel] at hplace
    rw [Nat.succ_mul]
    simp only
    omega

/-- **All rounds.**  What they write is read back as the label. -/
theorem Between.rounds (h : Between basics code label s r) {codes : List Nat}
    (hsorted : codes.Pairwise (· ≤ ·)) (hcodes : ∀ c ∈ label, code ≤ c.toNat → c.toNat ∈ codes) :
    ∃ written, rounds label basics codes code s = s.out ++ written ∧ IsDigits written ∧
      r.insertAll s.bias written = some label := by
  induction codes generalizing code s r with
  | nil =>
      have hall : r.label = label := by
        rw [h.label, List.filter_eq_self]
        intro c hc
        have hlt := hcodes c hc
        simpa using hlt
      refine ⟨[], (List.append_nil _).symm, List.forall_mem_nil _, ?_⟩
      rw [Reader.insertAll, insertAll, List.isEmpty_nil, if_pos rfl, hall]
  | cons next rest ih =>
      obtain ⟨hleast, hsorted⟩ := List.pairwise_cons.1 hsorted
      by_cases hlt : next < code
      · -- a code that was passed already is skipped
        rw [Punycode.rounds, if_pos hlt]
        refine ih h hsorted fun c hc hle => ?_
        rcases List.mem_cons.1 (hcodes c hc hle) with heq | hmem
        · omega
        · exact hmem
      · rw [Punycode.rounds, if_neg hlt]
        -- the codes are sorted and all are among them, so none lies in between
        have hnone : ∀ c ∈ label, ¬ (code ≤ c.toNat ∧ c.toNat < next) := by
          rintro c hc ⟨hle, hbelow⟩
          rcases List.mem_cons.1 (hcodes c hc hle) with heq | hmem
          · omega
          · have := hleast _ hmem
            omega
        obtain ⟨r', hagrees, written, hout, hdigits, hread⟩ :=
          agrees_foldl (h.begin (Nat.le_of_not_lt hlt) hnone)
        obtain ⟨more, hmore, hdigits', hlabel⟩ := ih hagrees.done hsorted fun c hc hle => by
          rcases List.mem_cons.1 (hcodes c hc (by omega)) with heq | hmem
          · omega
          · exact hmem
        refine ⟨written ++ more, ?_, List.forall_mem_append.2 ⟨hdigits, hdigits'⟩, ?_⟩
        · rw [← List.append_assoc]
          exact hmore.trans (congrArg (· ++ more) hout)
        · exact (hread more).trans hlabel

/-! ### Labels -/

/-- The characters of a label that are written as they are. -/
def basicsOf (label : List Char) : List Char := label.filter (·.toNat < 0x80)

/-- An encoded label begins with the characters that are written as they are, if it has such
    ones, and a mark after them. -/
theorem encode_eq (label : List Char) : ∃ written, IsDigits written ∧
    encode label = (if (basicsOf label).isEmpty then [] else basicsOf label ++ ['-']) ++ written ∧
    insertAll 0x80 0 72 (basicsOf label) written = some label := by
  have hbegin : Between (basicsOf label).length 0x80 label
      ⟨0, 72, (basicsOf label).length,
        if (basicsOf label).isEmpty then [] else basicsOf label ++ ['-']⟩
      ⟨0x80, 0, basicsOf label⟩ := by
    refine ⟨rfl, rfl, ?_, Nat.le_refl _, iff_of_true rfl rfl, Nat.le_refl _⟩
    simp only [Nat.zero_add, Nat.add_zero]
  have hsorted : (((label.map Char.toNat).filter (0x80 ≤ ·)).mergeSort).Pairwise (· ≤ ·) := by
    refine (List.pairwise_mergeSort (fun a b c => ?_) (fun a b => ?_) _).imp fun h => ?_
    · simpa using Nat.le_trans
    · simpa using Nat.le_total a b
    · simpa using h
  have hcodes : ∀ c ∈ label, 0x80 ≤ c.toNat →
      c.toNat ∈ ((label.map Char.toNat).filter (0x80 ≤ ·)).mergeSort := by
    intro c hc hle
    rw [List.mem_mergeSort, List.mem_filter]
    exact ⟨List.mem_map_of_mem hc, by simpa using hle⟩
  obtain ⟨written, hout, hdigits, hread⟩ := hbegin.rounds hsorted hcodes
  exact ⟨written, hdigits, hout, hread⟩

/-- **A label is decoded from its encoded form.** -/
theorem decode_encode (label : List Char) : decode (encode label) = some label := by
  obtain ⟨written, hdigits, hencode, hread⟩ := encode_eq label
  have hne : ∀ c ∈ written.reverse, decide (c ≠ '-') = true := by
    intro c hc
    obtain ⟨d, hd, rfl⟩ := hdigits c (List.mem_reverse.1 hc)
    simpa using (digitValue?_digit hd).2
  rw [hencode, decode]
  by_cases hbasics : (basicsOf label).isEmpty
  · -- Without such characters there is no mark.
    have hnil : basicsOf label = [] := List.isEmpty_iff.1 hbasics
    have hnumbers := Text.takeWhile_stops hne (Text.stops_nil _)
    rw [List.append_nil] at hnumbers
    rw [if_pos hbasics, List.nil_append]
    simp only [hnumbers, List.reverse_reverse, Nat.sub_self, Nat.zero_sub, List.take_zero]
    rw [← hnil]
    exact hread
  · have hnumbers : ((basicsOf label ++ ['-'] ++ written).reverse.takeWhile (· ≠ '-')) =
        written.reverse := by
      rw [List.reverse_append, List.reverse_append]
      exact Text.takeWhile_stops hne (Text.stops_cons (by decide) _)
    have hcount : (basicsOf label ++ ['-'] ++ written).length - written.length - 1 =
        (basicsOf label).length := by
      simp
      omega
    rw [if_neg hbasics]
    simp only [hnumbers, List.reverse_reverse, hcount]
    rw [List.append_assoc, List.take_left]
    exact hread

end ZoneConsole.Punycode
