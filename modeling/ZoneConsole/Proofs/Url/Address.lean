import Mathlib.Data.List.Induction
import ZoneConsole.Proofs.Text.Digits
import ZoneConsole.Proofs.Except
import ZoneConsole.Proofs.Url.Name

/-!
# Addresses are read back

An address of four parts is a number of 32 bits, and one of eight pieces a list of eight numbers
of 16 bits each.  Every address that is read is of this kind, and every one of this kind is read
back from its text: the four parts are written in full, and of the pieces the longest run of zeros
may be left out, which is put in again as there have to be eight.

* **`readIpv4_lt`**, **`readIpv4_writeIpv4`** — addresses of four parts.
* **`readPieces_writePieces`** — pieces are read back one after the other.
* **`IsPieces`**, **`isPieces_of_readIpv6`**, **`readIpv6_writeIpv6`** — addresses of eight pieces.
-/

namespace ZoneConsole.Host

/-! ### Four parts -/

/-- A part is read as its number. -/
theorem ipv4Number_decimal : ∀ d < 256, ipv4Number (Text.decimal d) = some (some d) := by
  decide +kernel

/-- A part is a label that is its own form. -/
theorem isForm_decimal {d : Nat} (hd : d < 256) : IsForm (Text.decimal d) := by
  have hall : ∀ d < 256,
      ((Text.decimal d).all fun c => decide (foldCase c = c ∧ isIgnorable c = false)) = true ∧
        '.' ∉ Text.decimal d ∧ asciiLabel (Text.decimal d) = some (Text.decimal d) := by
    decide +kernel
  obtain ⟨hfolded, hdot, hsame⟩ := hall d hd
  refine ⟨fun c hc => ?_, hdot, hsame⟩
  obtain ⟨hcase, hshown⟩ := of_decide_eq_true (List.all_eq_true.1 hfolded c hc)
  exact ⟨hcase, hshown⟩

/-- The four parts of an address. -/
def partsOf (n : Nat) : List Nat := [n / 0x1000000, n / 0x10000 % 256, n / 0x100 % 256, n % 256]

theorem partsOf_lt {n : Nat} (hn : n < 0x100000000) : ∀ d ∈ partsOf n, d < 256 := by
  intro d hd
  simp only [partsOf, List.mem_cons, List.not_mem_nil, or_false] at hd
  omega

theorem writeIpv4_eq (n : Nat) :
    writeIpv4 n = List.intercalate ['.'] ((partsOf n).map Text.decimal) := rfl

theorem splitOn_writeIpv4 {n : Nat} (hn : n < 0x100000000) :
    Url.splitOn (· = '.') (writeIpv4 n) = (partsOf n).map Text.decimal := by
  rw [writeIpv4_eq]
  refine Url.splitOn_intercalate '.' (fun part hpart => ?_) (by simp [partsOf])
  obtain ⟨d, hd, rfl⟩ := List.mem_map.1 hpart
  exact (isForm_decimal (partsOf_lt hn d hd)).noDot

/-- The text of an address is a name in its ASCII form. -/
theorem asciiName_writeIpv4 {n : Nat} (hn : n < 0x100000000) :
    asciiName (writeIpv4 n) = some (writeIpv4 n) := by
  rw [writeIpv4_eq]
  refine asciiName_of_isForm (fun label hlabel => ?_) (by simp [partsOf])
  obtain ⟨d, hd, rfl⟩ := List.mem_map.1 hlabel
  exact isForm_decimal (partsOf_lt hn d hd)

/-- It ends in a number. -/
theorem endsInNumber_writeIpv4 {n : Nat} (hn : n < 0x100000000) :
    endsInNumber (writeIpv4 n) = true := by
  obtain ⟨c, cs, hcs⟩ := List.exists_cons_of_ne_nil (Text.decimal_ne_nil (n % 256))
  have hdigits : (c :: cs).all Text.isDigit = true :=
    List.all_eq_true.2 fun d hd => Text.isDigit_of_mem_decimal (hcs ▸ hd)
  have hreverse : ((partsOf n).map Text.decimal).reverse = (c :: cs) ::
      [n / 0x100 % 256, n / 0x10000 % 256, n / 0x1000000].map Text.decimal := by
    rw [← hcs]
    rfl
  rw [endsInNumber, splitOn_writeIpv4 hn]
  simp only [hreverse, hdigits]
  rfl

/-- **An address of four parts is read back.** -/
theorem readIpv4_writeIpv4 {n : Nat} (hn : n < 0x100000000) : readIpv4 (writeIpv4 n) = .ok n := by
  have hlast : ((partsOf n).map Text.decimal).getLast? ≠ some [] := fun h =>
    Text.decimal_ne_nil (n % 256) (Option.some.inj h)
  have hnumbers : ((partsOf n).map Text.decimal).mapM (fun p => (ipv4Number p).join) =
      some (partsOf n) := by
    rw [Url.mapM_eq_some_iff, List.forall₂_map_left_iff, List.forall₂_same]
    intro d hd
    rw [ipv4Number_decimal d (partsOf_lt hn d hd)]
    rfl
  rw [readIpv4, splitOn_writeIpv4 hn]
  simp only [if_neg hlast, hnumbers]
  rw [if_neg (by simp [partsOf])]
  have hfront : (partsOf n).dropLast = [n / 0x1000000, n / 0x10000 % 256, n / 0x100 % 256] := rfl
  have hd : (partsOf n).getLast?.getD 0 = n % 256 := rfl
  rw [hfront, hd, if_neg]
  · refine congrArg Except.ok ?_
    show n % 256 + (((0 + n / 0x1000000 * Nat.pow 256 3) + n / 0x10000 % 256 * Nat.pow 256 2) +
      n / 0x100 % 256 * Nat.pow 256 1) = n
    simp only [Nat.pow_eq, Nat.reducePow]
    omega
  · simp
    omega

/-- An address that is read has 32 bits. -/
theorem readIpv4_lt {name : List Char} {n : Nat} (h : readIpv4 name = .ok n) : n < 0x100000000 := by
  unfold readIpv4 at h
  extract_lets parts kept at h
  clear_value parts kept
  split at h
  · cases h
  rename_i hfew
  split at h
  · cases h
  rename_i numbers hnumbers
  have hlength : numbers.length ≤ 4 := by
    rw [← (Url.mapM_eq_some_iff.1 hnumbers).length_eq]
    exact Nat.le_of_not_lt hfew
  simp only at h
  split at h
  · cases h
  rename_i hfits
  obtain rfl := Except.ok.inj h
  rw [Bool.or_eq_true, not_or, decide_eq_true_eq, List.any_eq_true] at hfits
  obtain ⟨hlast, hfront⟩ := hfits
  have hthree : numbers.dropLast.length ≤ 3 := by
    rw [List.length_dropLast]
    omega
  generalize numbers.dropLast = front at hlast hfront hthree ⊢
  generalize numbers.getLast?.getD 0 = last at hlast ⊢
  -- The last number takes what the ones before it leave of the 32 bits.
  rcases front with _ | ⟨a, _ | ⟨b, _ | ⟨c, _ | ⟨d, more⟩⟩⟩⟩
  · simp at hlast ⊢
    omega
  · simp at hlast hfront ⊢
    omega
  · simp at hlast hfront ⊢
    omega
  · simp at hlast hfront ⊢
    omega
  · simp only [List.length_cons] at hthree
    omega

/-! ### Pieces -/

/-- A piece in hexadecimal digits. -/
def hex (p : Nat) : List Char := Nat.toDigits 16 p

theorem hex_ne_nil (p : Nat) : hex p ≠ [] := Nat.toDigits_ne_nil

theorem length_hex_le {p : Nat} (hp : p < 0x10000) : (hex p).length ≤ 4 :=
  (Nat.length_toDigits_le_iff (by decide) (by decide)).2 hp

/-- The value of a digit of a piece. -/
theorem hexValue?_digitChar : ∀ d < 16, Text.hexValue? (Nat.digitChar d) = some d := by decide

/-- The digits of a piece are digits, and have the value of the piece. -/
theorem hex_value (p : Nat) : (∀ c ∈ hex p, (Text.hexValue? c).isSome) ∧
    (hex p).foldl (fun n d => n * 16 + (Text.hexValue? d).getD 0) 0 = p := by
  induction p using Nat.strongRecOn with
  | _ p ih =>
      rw [hex, Nat.toDigits_eq_if (by decide)]
      by_cases hlt : p < 16
      · rw [if_pos hlt]
        simp [hexValue?_digitChar p hlt]
      · obtain ⟨hdigits, hvalue⟩ := ih (p / 16) (by omega)
        have hdigit := hexValue?_digitChar (p % 16) (by omega)
        rw [hex] at hdigits hvalue
        rw [if_neg hlt]
        constructor
        · intro c hc
          rcases List.mem_append.1 hc with hc | hc
          · exact hdigits c hc
          · rw [List.mem_singleton.1 hc, hdigit]
            rfl
        · rw [List.foldl_append, hvalue]
          simp only [List.foldl_cons, List.foldl_nil, hdigit, Option.getD_some]
          omega

/-- Is the character a hexadecimal digit? -/
def isHex (c : Char) : Bool := (Text.hexValue? c).isSome

/-- Of a text that begins with a piece just the piece is taken. -/
theorem takeWhile_hex {p : Nat} (hp : p < 0x10000) {tail : List Char}
    (htail : Text.Stops isHex tail) : ((hex p ++ tail).take 4).takeWhile isHex = hex p := by
  have hstops : Text.Stops isHex (tail.take (4 - (hex p).length)) := by
    intro c hc
    refine htail c ?_
    rw [List.head?_take] at hc
    split at hc
    · cases hc
    · exact hc
  rw [List.take_append, List.take_of_length_le (length_hex_le hp)]
  exact Text.takeWhile_stops (hex_value p).1 hstops

/-- A text that begins with a piece, as the reader takes it apart. -/
theorem exists_hex {p : Nat} (hp : p < 0x10000) {tail : List Char} (htail : Text.Stops isHex tail) :
    ∃ c cs, hex p = c :: cs ∧ c ≠ ':' ∧
      ((c :: (cs ++ tail)).take 4).takeWhile (fun d => (Text.hexValue? d).isSome) = c :: cs ∧
      (c :: (cs ++ tail)).drop (c :: cs).length = tail ∧
      (c :: cs).foldl (fun n d => n * 16 + (Text.hexValue? d).getD 0) 0 = p := by
  obtain ⟨hdigits, hvalue⟩ := hex_value p
  have htake := takeWhile_hex hp htail
  obtain ⟨c, cs, hcs⟩ := List.exists_cons_of_ne_nil (hex_ne_nil p)
  rw [hcs] at hdigits hvalue htake
  have hdrop : ((c :: cs) ++ tail).drop (c :: cs).length = tail := List.drop_left
  refine ⟨c, cs, hcs, ?_, htake, hdrop, hvalue⟩
  rintro rfl
  exact absurd (hdigits ':' List.mem_cons_self) (by decide)

variable {p fuel : Nat} {done : List Nat} {gap : Option Nat}

/-- There is room for a piece, with one kept for those that are left out. -/
def HasRoom (done : List Nat) (gap : Option Nat) (n : Nat) : Prop :=
  done.length + (if gap.isSome then 1 else 0) + n ≤ 8

/-- The last piece is read. -/
theorem readPieces_last (hp : p < 0x10000) (hroom : HasRoom done gap 1) :
    readPieces (fuel + 1) done gap (hex p) = some (done ++ [p], gap) := by
  obtain ⟨c, cs, hcs, hcolon, htake, hdrop, hvalue⟩ := exists_hex hp (Text.stops_nil isHex)
  rw [List.append_nil] at htake hdrop
  rw [hcs, readPieces, if_neg (Nat.not_le.2 hroom), if_neg hcolon]
  simp only [htake, hdrop, hvalue]

/-- A piece is read that others follow. -/
theorem readPieces_next (hp : p < 0x10000) (hroom : HasRoom done gap 1) {more : List Char}
    (hmore : more ≠ []) :
    readPieces (fuel + 1) done gap (hex p ++ ':' :: more) =
      readPieces fuel (done ++ [p]) gap more := by
  obtain ⟨c, cs, hcs, hcolon, htake, hdrop, hvalue⟩ :=
    exists_hex hp (Text.stops_cons (p := isHex) (c := ':') (by decide) more)
  rw [hcs, List.cons_append, readPieces, if_neg (Nat.not_le.2 hroom), if_neg hcolon]
  simp only [htake, hdrop, hvalue]
  rw [if_neg (by simpa using hmore)]

/-- The mark of what is left out is read. -/
theorem readPieces_gap (hroom : HasRoom done none 1) (more : List Char) :
    readPieces (fuel + 1) done none (':' :: more) =
      readPieces fuel done (some done.length) more := by
  rw [readPieces, if_neg (Nat.not_le.2 hroom), if_pos rfl]
  rfl

theorem writePieces_cons (p q : Nat) (rest : List Nat) :
    writePieces (p :: q :: rest) = hex p ++ ':' :: writePieces (q :: rest) := by
  simp [writePieces, hex]

theorem writePieces_singleton (p : Nat) : writePieces [p] = hex p := by
  simp [writePieces, hex]

theorem writePieces_ne_nil (p : Nat) (rest : List Nat) : writePieces (p :: rest) ≠ [] := by
  cases rest with
  | nil => exact writePieces_singleton p ▸ hex_ne_nil p
  | cons q rest => simp [writePieces_cons]

/-- **Pieces are read back**, one after the other. -/
theorem readPieces_writePieces {pieces : List Nat} (hpieces : ∀ p ∈ pieces, p < 0x10000)
    (hroom : HasRoom done gap pieces.length) (hfuel : (writePieces pieces).length < fuel) :
    readPieces fuel done gap (writePieces pieces) = some (done ++ pieces, gap) := by
  obtain ⟨fuel, rfl⟩ := Nat.exists_eq_succ_of_ne_zero (Nat.ne_of_gt (Nat.zero_lt_of_lt hfuel))
  induction pieces generalizing done fuel with
  | nil => simp [writePieces, readPieces]
  | cons p rest ih =>
      obtain ⟨hp, hrest⟩ := List.forall_mem_cons.1 hpieces
      unfold HasRoom at hroom
      rw [List.length_cons] at hroom
      have hone : HasRoom done gap 1 := by
        unfold HasRoom
        omega
      cases rest with
      | nil => rw [writePieces_singleton, readPieces_last hp hone]
      | cons q rest =>
          rw [writePieces_cons, List.length_append, List.length_cons] at hfuel
          obtain ⟨fuel, rfl⟩ := Nat.exists_eq_succ_of_ne_zero (show fuel ≠ 0 by omega)
          have hroom' : HasRoom (done ++ [p]) gap (q :: rest).length := by
            rw [HasRoom, List.length_append, List.length_singleton]
            omega
          rw [writePieces_cons, readPieces_next hp hone (writePieces_ne_nil q rest),
            ih hrest hroom' fuel (by omega), List.append_assoc]
          rfl

/-- Pieces before the mark are read, and the mark with them. -/
theorem readPieces_before {pieces : List Nat} (hpieces : ∀ p ∈ pieces, p < 0x10000)
    (hne : pieces ≠ []) (hroom : HasRoom done none (pieces.length + 1)) {more : List Char}
    (hfuel : (writePieces pieces).length + more.length + 2 < fuel) :
    ∃ fuel', more.length < fuel' ∧
      readPieces fuel done none (writePieces pieces ++ ':' :: ':' :: more) =
        readPieces fuel' (done ++ pieces) (some (done ++ pieces).length) more := by
  induction pieces generalizing done fuel with
  | nil => exact absurd rfl hne
  | cons p rest ih =>
      obtain ⟨hp, hrest⟩ := List.forall_mem_cons.1 hpieces
      unfold HasRoom at hroom
      simp only [List.length_cons] at hroom
      obtain ⟨fuel, rfl⟩ := Nat.exists_eq_succ_of_ne_zero (show fuel ≠ 0 by omega)
      have hone : HasRoom done none 1 := by
        unfold HasRoom
        omega
      -- the last piece meets the mark, and any other one a colon and a piece
      cases rest with
      | nil =>
          obtain ⟨fuel, rfl⟩ := Nat.exists_eq_succ_of_ne_zero (show fuel ≠ 0 by omega)
          have hroom' : HasRoom (done ++ [p]) none 1 := by
            rw [HasRoom, List.length_append, List.length_singleton]
            simp only [List.length_nil] at hroom
            omega
          refine ⟨fuel, by omega, ?_⟩
          rw [writePieces_singleton, readPieces_next hp hone (List.cons_ne_nil _ _),
            readPieces_gap hroom']
      | cons q rest =>
          rw [writePieces_cons, List.length_append, List.length_cons] at hfuel
          have hroom' : HasRoom (done ++ [p]) none ((q :: rest).length + 1) := by
            rw [HasRoom, List.length_append, List.length_singleton]
            omega
          have hless : (writePieces (q :: rest)).length + more.length + 2 < fuel := by omega
          obtain ⟨fuel', hfuel', hread⟩ := ih hrest (List.cons_ne_nil _ _) hroom' hless
          refine ⟨fuel', hfuel', ?_⟩
          rw [writePieces_cons, List.append_assoc, List.cons_append,
            readPieces_next hp hone (by simp), hread, List.append_assoc]
          rfl

/-! ### Eight pieces -/

/-- The pieces of an address. -/
structure IsPieces (pieces : List Nat) : Prop where
  length : pieces.length = 8
  small : ∀ p ∈ pieces, p < 0x10000

/-- Zeros stand where a list starts with them. -/
theorem zeros_spec (pieces : List Nat) :
    List.replicate (zeros pieces) 0 ++ pieces.drop (zeros pieces) = pieces := by
  induction pieces with
  | nil => rfl
  | cons p rest ih =>
      rw [zeros, List.takeWhile_cons]
      split
      · rename_i hzero
        rw [List.length_cons, List.replicate_succ, List.drop_succ_cons, List.cons_append,
          beq_iff_eq.1 hzero]
        exact congrArg (0 :: ·) ih
      · rfl

/-- What stands before, in and after the longest run of zeros. -/
theorem longestZeros_spec (pieces : List Nat) :
    pieces.take (longestZeros pieces).1 ++ List.replicate (longestZeros pieces).2 0 ++
      pieces.drop ((longestZeros pieces).1 + (longestZeros pieces).2) = pieces := by
  induction pieces with
  | nil => rfl
  | cons p rest ih =>
      by_cases hle : (longestZeros rest).2 ≤ zeros (p :: rest)
      · have hlongest : longestZeros (p :: rest) = (0, zeros (p :: rest)) := if_pos hle
        rw [hlongest, List.take_zero, List.nil_append, Nat.zero_add]
        exact zeros_spec (p :: rest)
      · have hlongest : longestZeros (p :: rest) =
            ((longestZeros rest).1 + 1, (longestZeros rest).2) := if_neg hle
        rw [hlongest, List.take_succ_cons, Nat.add_right_comm, List.drop_succ_cons]
        exact congrArg (p :: ·) ih

/-- The address that pieces make up: eight of them, or as many zeros put in as are missing. -/
def complete (pieces : List Nat) : Option Nat → Except UrlError (List Nat)
  | none => if pieces.length = 8 then .ok pieces else .error .invalidIpv6
  | some gap => .ok (pieces.take gap ++ List.replicate (8 - pieces.length) 0 ++ pieces.drop gap)

/-- A text that does not begin with a colon is read as pieces. -/
theorem readIpv6_of_head {cs : List Char} (hc : cs.head? ≠ some ':') (hlength : 2 ≤ cs.length)
    {pieces : List Nat} {gap : Option Nat}
    (h : readPieces (cs.length + 1) [] none cs = some (pieces, gap)) :
    readIpv6 cs = complete pieces gap := by
  unfold readIpv6
  split
  · exact absurd rfl hc
  · exact absurd rfl hc
  · rw [if_neg (Nat.not_lt.2 hlength), h]
    cases gap <;> rfl

/-- So is one that begins with the mark, after it. -/
theorem readIpv6_of_mark {cs : List Char} {pieces : List Nat} {gap : Option Nat}
    (h : readPieces (cs.length + 3) [] (some 0) cs = some (pieces, gap)) :
    readIpv6 (':' :: ':' :: cs) = complete pieces gap := by
  unfold readIpv6
  simp only [List.length_cons, h]
  cases gap <;> rfl

/-- The text of pieces does not begin with a colon. -/
theorem head?_writePieces (p : Nat) (rest : List Nat) (more : List Char) :
    (writePieces (p :: rest) ++ more).head? ≠ some ':' := by
  have hhex : ∀ more : List Char, (hex p ++ more).head? ≠ some ':' := by
    intro more h
    obtain ⟨c, cs, hcs⟩ := List.exists_cons_of_ne_nil (hex_ne_nil p)
    rw [hcs] at h
    have hdigit := (hex_value p).1 c (hcs ▸ List.mem_cons_self)
    rw [Option.some.inj h] at hdigit
    exact absurd hdigit (by decide)
  cases rest with
  | nil =>
      rw [writePieces_singleton]
      exact hhex more
  | cons q rest =>
      rw [writePieces_cons, List.append_assoc]
      exact hhex _

theorem writeIpv6_eq (pieces : List Nat) : writeIpv6 pieces =
    if (longestZeros pieces).2 < 2 then writePieces pieces
    else writePieces (pieces.take (longestZeros pieces).1) ++ ':' :: ':' ::
      writePieces (pieces.drop ((longestZeros pieces).1 + (longestZeros pieces).2)) := by
  simp only [writeIpv6]
  split
  · rfl
  · rw [List.append_assoc]
    rfl

/-- Eight pieces in full are read back. -/
theorem readIpv6_writePieces {pieces : List Nat} (h : IsPieces pieces) :
    readIpv6 (writePieces pieces) = .ok pieces := by
  have hread : readPieces ((writePieces pieces).length + 1) [] none (writePieces pieces) =
      some (pieces, none) := by
    have hroom : HasRoom [] none pieces.length := by simp [HasRoom, h.length]
    exact readPieces_writePieces h.small hroom (Nat.lt_succ_self _)
  obtain ⟨p, q, rest, rfl⟩ : ∃ p q rest, pieces = p :: q :: rest := by
    have hlength := h.length
    rcases pieces with _ | ⟨p, _ | ⟨q, rest⟩⟩
    · cases hlength
    · cases hlength
    · exact ⟨p, q, rest, rfl⟩
  have hhead := head?_writePieces p (q :: rest) []
  rw [List.append_nil] at hhead
  have hlong : 2 ≤ (writePieces (p :: q :: rest)).length := by
    have hpos := List.length_pos_of_ne_nil (hex_ne_nil p)
    rw [writePieces_cons, List.length_append, List.length_cons]
    omega
  rw [readIpv6_of_head hhead hlong hread, complete, if_pos h.length]

/-- Pieces with a mark among them are read back, with zeros in its place. -/
theorem readIpv6_mark {before after : List Nat} (hbefore : ∀ p ∈ before, p < 0x10000)
    (hafter : ∀ p ∈ after, p < 0x10000) (hfew : before.length + after.length ≤ 6) :
    readIpv6 (writePieces before ++ ':' :: ':' :: writePieces after) =
      complete (before ++ after) (some before.length) := by
  cases before with
  | nil =>
      refine readIpv6_of_mark (readPieces_writePieces hafter ?_ (by omega))
      simp only [List.length_nil] at hfew
      simp [HasRoom]
      omega
  | cons p rest =>
      have hroom : HasRoom [] none ((p :: rest).length + 1) := by
        simp only [HasRoom, List.length_cons, List.length_nil, Option.isSome_none] at hfew ⊢
        simp
        omega
      have hlength : (writePieces (p :: rest)).length + (writePieces after).length + 2 <
          (writePieces (p :: rest) ++ ':' :: ':' :: writePieces after).length + 1 := by
        simp
        omega
      obtain ⟨fuel, hfuel, hread⟩ := readPieces_before hbefore (List.cons_ne_nil p rest) hroom
        hlength
      have hroom' : HasRoom ([] ++ p :: rest) (some ([] ++ p :: rest).length) after.length := by
        simp [HasRoom] at hfew ⊢
        omega
      rw [readPieces_writePieces hafter hroom' hfuel] at hread
      have hlong : 2 ≤ (writePieces (p :: rest) ++ ':' :: ':' :: writePieces after).length := by
        simp
        omega
      exact readIpv6_of_head (head?_writePieces p rest _) hlong hread

/-- **An address of eight pieces is read back.** -/
theorem readIpv6_writeIpv6 {pieces : List Nat} (h : IsPieces pieces) :
    readIpv6 (writeIpv6 pieces) = .ok pieces := by
  have hspec := longestZeros_spec pieces
  rw [writeIpv6_eq]
  generalize (longestZeros pieces).1 = start at hspec ⊢
  generalize (longestZeros pieces).2 = length at hspec ⊢
  by_cases hfew : length < 2
  · rw [if_pos hfew]
    exact readIpv6_writePieces h
  · rw [if_neg hfew]
    have hlength := congrArg List.length hspec
    simp only [List.length_append, List.length_replicate, h.length] at hlength
    rw [readIpv6_mark (fun p hp => h.small p (List.mem_of_mem_take hp))
      (fun p hp => h.small p (List.mem_of_mem_drop hp)) (by omega), complete]
    refine congrArg Except.ok ?_
    rw [List.take_left, List.drop_left, List.length_append,
      show 8 - ((pieces.take start).length + (pieces.drop (start + length)).length) = length by
        omega]
    exact hspec

/-- What the reader of pieces has: numbers of 16 bits, no more than there is room for, and the
    place of the mark among them. -/
structure IsPart (pieces : List Nat) (gap : Option Nat) : Prop where
  small : ∀ p ∈ pieces, p < 0x10000
  room : HasRoom pieces gap 0
  place : ∀ g, gap = some g → g ≤ pieces.length

theorem IsPart.append {pieces more : List Nat} {gap : Option Nat} (h : IsPart pieces gap)
    (hmore : ∀ p ∈ more, p < 0x10000) (hroom : HasRoom pieces gap more.length) :
    IsPart (pieces ++ more) gap := by
  refine ⟨List.forall_mem_append.2 ⟨h.small, hmore⟩, ?_, fun g hg => ?_⟩
  · unfold HasRoom at hroom ⊢
    rw [List.length_append]
    omega
  · rw [List.length_append]
    exact Nat.le_add_right_of_le (h.place g hg)

/-- The value of a digit. -/
theorem hexValue?_lt {c : Char} : (Text.hexValue? c).getD 0 < 16 := by
  unfold Text.hexValue?
  split
  · rename_i h
    have hle : c.toNat ≤ '9'.toNat := h.2
    simp only [Option.getD_some, Char.reduceToNat] at hle ⊢
    omega
  split
  · rename_i h
    have hle : c.toNat ≤ 'f'.toNat := h.2
    simp only [Option.getD_some, Char.reduceToNat] at hle ⊢
    omega
  split
  · rename_i h
    have hle : c.toNat ≤ 'F'.toNat := h.2
    simp only [Option.getD_some, Char.reduceToNat] at hle ⊢
    omega
  · decide

/-- Digits make a number of four bits each. -/
theorem foldl_hex_lt (digits : List Char) :
    digits.foldl (fun n d => n * 16 + (Text.hexValue? d).getD 0) 0 < 16 ^ digits.length := by
  induction digits using List.reverseRecOn with
  | nil => exact Nat.one_pos
  | append_singleton digits c ih =>
      have hdigit := hexValue?_lt (c := c)
      rw [List.foldl_append, List.length_append, List.length_singleton, Nat.pow_succ]
      simp only [List.foldl_cons, List.foldl_nil]
      omega

/-- The four parts at the end make two pieces. -/
theorem readQuad_lt {cs : List Char} {a b : Nat} (h : readQuad cs = some (a, b)) :
    a < 0x10000 ∧ b < 0x10000 := by
  have hpart : ∀ {ds : List Char} {n : Nat}, readQuad.part ds = some n → n ≤ 255 := by
    intro ds n hn
    unfold readQuad.part at hn
    split at hn
    · cases hn
    split at hn
    · cases hn
    · rename_i hfits
      obtain rfl := Option.some.inj hn
      simp only [Bool.or_eq_true, decide_eq_true_eq] at hfits
      omega
  unfold readQuad at h
  split at h
  · rename_i w x y z hparts
    have hall := Url.mapM_eq_some_iff.1 hparts
    have hle : ∀ n ∈ [w, x, y, z], n ≤ 255 := by
      intro n hn
      obtain ⟨i, hi, rfl⟩ := List.mem_iff_getElem.1 hn
      exact hpart (hall.get (hall.length_eq ▸ hi) hi)
    simp only [List.mem_cons, List.not_mem_nil, or_false, forall_eq_or_imp, forall_eq] at hle
    obtain ⟨rfl, rfl⟩ := Prod.mk.inj (Option.some.inj h)
    omega
  · cases h

/-- **What is read as pieces** goes on being such a part. -/
theorem isPart_of_readPieces {fuel : Nat} {done pieces : List Nat} {gap gap' : Option Nat}
    {cs : List Char} (hdone : IsPart done gap)
    (h : readPieces fuel done gap cs = some (pieces, gap')) : IsPart pieces gap' := by
  induction fuel generalizing done gap cs with
  | zero => cases h
  | succ fuel ih =>
      cases cs with
      | nil =>
          obtain ⟨rfl, rfl⟩ := Prod.mk.inj (Option.some.inj h)
          exact hdone
      | cons c rest =>
          rw [readPieces] at h
          by_cases hfew : 8 ≤ done.length + (if gap.isSome then 1 else 0)
          · rw [if_pos hfew] at h
            cases h
          rw [if_neg hfew] at h
          by_cases hcolon : c = ':'
          · -- the mark, if there was none before
            rw [if_pos hcolon] at h
            split at h
            · cases h
            · rename_i hgap
              refine ih ⟨hdone.small, ?_, fun g hg => (Option.some.inj hg).ge⟩ h
              rw [if_neg hgap] at hfew
              simp only [HasRoom, Option.isSome_some, if_true]
              omega
          · rw [if_neg hcolon] at h
            have hlength : (((c :: rest).take 4).takeWhile fun d =>
                (Text.hexValue? d).isSome).length ≤ 4 :=
              (List.takeWhile_sublist _).length_le.trans (List.length_take_le 4 _)
            have hvalue := foldl_hex_lt (((c :: rest).take 4).takeWhile fun d =>
              (Text.hexValue? d).isSome)
            have hsmall := hvalue.trans_le (Nat.pow_le_pow_right (by decide) hlength)
            simp only at h
            generalize (((c :: rest).take 4).takeWhile fun d => (Text.hexValue? d).isSome) =
              digits at h hsmall
            generalize digits.foldl (fun n d => n * 16 + (Text.hexValue? d).getD 0) 0 =
              value at h hsmall
            have hone : IsPart (done ++ [value]) gap := by
              refine hdone.append (fun p hp => List.mem_singleton.1 hp ▸ hsmall) ?_
              simp only [HasRoom, List.length_singleton]
              omega
            -- what ends a piece: the end, a dot of an address in its old form, or a colon
            generalize hkept : (if gap.isSome then 1 else 0) = kept at h
            split at h
            · obtain ⟨rfl, rfl⟩ := Prod.mk.inj (Option.some.inj h)
              exact hone
            · split at h
              · cases h
              · rename_i hroom
                obtain ⟨⟨a, b⟩, hquad, heq⟩ := Option.map_eq_some_iff.1 h
                obtain ⟨rfl, rfl⟩ := Prod.mk.inj heq
                obtain ⟨ha, hb⟩ := readQuad_lt hquad
                refine hdone.append (by simp [ha, hb]) ?_
                simp only [Bool.or_eq_true, decide_eq_true_eq, not_or] at hroom
                simp only [HasRoom, List.length_cons, List.length_nil, hkept]
                omega
            · split at h
              · cases h
              · exact ih hone h
            · cases h

/-- **What is read of an address** has eight pieces. -/
theorem isPieces_of_readIpv6 {cs : List Char} {pieces : List Nat} (h : readIpv6 cs = .ok pieces) :
    IsPieces pieces := by
  have hnone : IsPart [] none := ⟨List.forall_mem_nil _, by simp [HasRoom], fun g hg => by cases hg⟩
  have hmark : IsPart [] (some 0) :=
    ⟨List.forall_mem_nil _, by simp [HasRoom], fun g hg => (Option.some.inj hg).ge⟩
  -- room for the mark leaves at least one piece to fill in, so eight come out
  have hcomplete : ∀ part gap, IsPart part gap → complete part gap = .ok pieces →
      IsPieces pieces := by
    intro part gap hpart hpieces
    cases gap with
    | none =>
        rw [complete] at hpieces
        split at hpieces
        · obtain rfl := Except.ok.inj hpieces
          exact ⟨‹_›, hpart.small⟩
        · cases hpieces
    | some g =>
        obtain rfl := Except.ok.inj hpieces
        have hplace := hpart.place g rfl
        have hroom := hpart.room
        simp only [HasRoom, Option.isSome_some, if_true] at hroom
        constructor
        · simp
          omega
        · intro p hp
          rcases List.mem_append.1 hp with hp | hp
          · rcases List.mem_append.1 hp with hp | hp
            · exact hpart.small p (List.mem_of_mem_take hp)
            · rw [List.eq_of_mem_replicate hp]
              decide
          · exact hpart.small p (List.mem_of_mem_drop hp)
  unfold readIpv6 at h
  extract_lets read at h
  have hread : ∀ part gap, read = some (part, gap) → IsPart part gap := by
    intro part gap hpart
    unfold read at hpart
    split at hpart
    · exact isPart_of_readPieces hmark hpart
    · cases hpart
    · split at hpart
      · cases hpart
      · exact isPart_of_readPieces hnone hpart
  clear_value read
  split at h
  · cases h
  · exact hcomplete _ none (hread _ _ rfl) h
  · exact hcomplete _ (some _) (hread _ _ rfl) h

end ZoneConsole.Host
