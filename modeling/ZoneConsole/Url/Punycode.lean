/-!
# Labels of other scripts

A label of a host name with characters beyond ASCII is written in ASCII: first
its ASCII characters, then, as numbers of a mixed base, where the others go. The
case of letters is folded first, for the scripts that have it in the common
blocks of Latin, Greek, Cyrillic and Armenian and for the wide forms of ASCII, and
characters that show nothing are left out.

* **`Punycode.encode`** writes a label, and **`Punycode.decode`** reads one.
-/

namespace ZoneConsole

/-- A letter in lower case. -/
def foldCase (c : Char) : Char :=
  let n := c.toNat
  if n < 0x80 then c.toLower
  else if (0xc0 ≤ n && n ≤ 0xde && n != 0xd7) || (0x391 ≤ n && n ≤ 0x3a9) ||
      (0x410 ≤ n && n ≤ 0x42f) then Char.ofNat (n + 0x20)
  else if 0x400 ≤ n && n ≤ 0x40f then Char.ofNat (n + 0x50)
  else if 0x531 ≤ n && n ≤ 0x556 then Char.ofNat (n + 0x30)
  else if n = 0x3002 || n = 0xff0e || n = 0xff61 then '.'
  else if 0xff01 ≤ n && n ≤ 0xff5e then (Char.ofNat (n - 0xfee0)).toLower
  else if n = 0x178 then Char.ofNat 0xff
  else if paired.any fun (first, last) => first ≤ n && n ≤ last && n % 2 = first % 2 then
    Char.ofNat (n + 1)
  else c
where
  /-- Blocks in which each letter is followed by its lower case. -/
  paired : List (Nat × Nat) :=
    [(0x100, 0x12e), (0x132, 0x136), (0x139, 0x147), (0x14a, 0x176), (0x179, 0x17d),
     (0x1cd, 0x1db), (0x1de, 0x1ee), (0x1f8, 0x21e), (0x222, 0x232), (0x3d8, 0x3ee),
     (0x460, 0x480), (0x48a, 0x4be), (0x4c1, 0x4cd), (0x4d0, 0x52e), (0x1e00, 0x1e94),
     (0x1ea0, 0x1efe)]

/-- Does the character show nothing in a name? -/
def isIgnorable (c : Char) : Bool :=
  let n := c.toNat
  n = 0xad || n = 0x34f || n = 0x200b || n = 0x2060 || n = 0x2064 || n = 0xfeff ||
    (0x180b ≤ n && n ≤ 0x180d) || (0xfe00 ≤ n && n ≤ 0xfe0f)

/-- A name with the case of its letters folded and without what shows nothing. -/
def foldName (name : List Char) : List Char := (name.filter (!isIgnorable ·)).map foldCase

namespace Punycode

/-- A digit of base 36. -/
def digit (n : Nat) : Char :=
  if n < 26 then Char.ofNat ('a'.toNat + n) else Char.ofNat ('0'.toNat + n - 26)

/-- Divides by 35 while the number is large, and counts the steps. -/
def reduce (delta k : Nat) : Nat × Nat :=
  if 455 < delta then reduce (delta / 35) (k + 36) else (delta, k)
termination_by delta
decreasing_by omega

/-- The bias after a number has been written. -/
def adapt (delta points : Nat) (first : Bool) : Nat :=
  let delta := if first then delta / 700 else delta / 2
  let (delta, k) := reduce (delta + delta / points) 0
  k + 36 * delta / (delta + 38)

/-- The least digit at place `k` that another one follows. -/
def threshold (bias k : Nat) : Nat :=
  if k ≤ bias then 1 else if bias + 26 ≤ k then 26 else k - bias

/-- No threshold is zero, so each digit makes the number smaller. -/
theorem threshold_pos (bias k : Nat) : 0 < threshold bias k := by
  unfold threshold
  split
  · omega
  · split <;> omega

/-- A number in digits whose bases depend on the bias. -/
def number (bias k q : Nat) : List Char :=
  let t := threshold bias k
  if q < t then [digit q]
  else digit (t + (q - t) % (36 - t)) :: number bias (k + 36) ((q - t) / (36 - t))
termination_by q
decreasing_by
  have hpos := threshold_pos bias k
  have hle := Nat.div_le_self (q - threshold bias k) (36 - threshold bias k)
  omega

/-- What the encoder keeps from one character to the next. -/
structure State where
  delta : Nat
  bias : Nat
  handled : Nat
  out : List Char

/-- Takes every character up to the code `n`, writing those of that code. -/
def pass (n basics : Nat) (s : State) (c : Char) : State :=
  if c.toNat < n then { s with delta := s.delta + 1 }
  else if c.toNat = n then
    { delta := 0
      bias := adapt s.delta (s.handled + 1) (s.handled == basics)
      handled := s.handled + 1
      out := s.out ++ number s.bias 36 s.delta }
  else s

/-- Writes the characters of each of some codes, which are sorted; those below `n` are
    written. -/
def rounds (label : List Char) (basics : Nat) : List Nat → Nat → State → List Char
  | [], _, s => s.out
  | code :: rest, n, s =>
    if code < n then rounds label basics rest n s
    else
      let s := { s with delta := s.delta + (code - n) * (s.handled + 1) }
      let s := label.foldl (pass code basics) s
      rounds label basics rest (code + 1) { s with delta := s.delta + 1 }

/-- A label in ASCII, without the mark of its form. -/
def encode (label : List Char) : List Char :=
  let basics := label.filter (·.toNat < 0x80)
  let out := if basics.isEmpty then [] else basics ++ ['-']
  let codes := ((label.map Char.toNat).filter (0x80 ≤ ·)).mergeSort
  rounds label basics.length codes 0x80 ⟨0, 72, basics.length, out⟩

/-- The value of a digit of base 36. -/
def digitValue? (c : Char) : Option Nat :=
  if 'a' ≤ c && c ≤ 'z' then some (c.toNat - 'a'.toNat)
  else if '0' ≤ c && c ≤ '9' then some (c.toNat - '0'.toNat + 26)
  else none

/-- Adds the number that begins a text to `i`; `weight` is that of the digit at place
    `k`. -/
def readNumber (bias : Nat) : Nat → Nat → Nat → List Char → Option (Nat × List Char)
  | _, _, _, [] => none
  | i, weight, k, c :: rest =>
    match digitValue? c with
    | none => none
    | some d =>
      let i := i + d * weight
      let t := threshold bias k
      if d < t then some (i, rest) else readNumber bias i (weight * (36 - t)) (k + 36) rest

/-- A number takes at least one digit of the text. -/
theorem length_readNumber {bias i weight k j : Nat} {cs rest : List Char}
    (h : readNumber bias i weight k cs = some (j, rest)) : rest.length < cs.length := by
  induction cs generalizing i weight k with
  | nil => simp [readNumber] at h
  | cons c cs ih =>
    rw [readNumber] at h
    split at h
    · exact nomatch h
    · simp only at h
      split at h
      · obtain ⟨rfl, rfl⟩ := Prod.mk.inj (Option.some.inj h)
        exact Nat.lt_succ_self _
      · exact Nat.lt_succ_of_lt (ih h)

/-- Puts the characters that a text of numbers tells into their places. -/
def insertAll (n i bias : Nat) (label cs : List Char) : Option (List Char) :=
  if cs.isEmpty then some label
  else
    match _h : readNumber bias i 1 36 cs with
    | none => none
    | some (j, rest) =>
      let count := label.length + 1
      let code := n + j / count
      let place := j % count
      if code.isValidChar then
        insertAll code (place + 1) (adapt (j - i) count (i == 0))
          (label.take place ++ Char.ofNat code :: label.drop place) rest
      else none
termination_by cs.length
decreasing_by exact length_readNumber _h

/-- The label that a text in ASCII stands for. -/
def decode (cs : List Char) : Option (List Char) :=
  let numbers := (cs.reverse.takeWhile (· ≠ '-')).reverse
  let basics := cs.take (cs.length - numbers.length - 1)
  insertAll 0x80 0 72 basics numbers

/-- The label that a text is the encoded form of, if it needs one. -/
def shown? (cs : List Char) : Option (List Char) :=
  (decode cs).filter fun label =>
    label.any (0x80 ≤ ·.toNat) && foldName label == label && encode label == cs

end Punycode

end ZoneConsole
