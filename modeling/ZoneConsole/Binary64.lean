import ZoneConsole.Text.Digits

/-!
# Double-precision numbers, exactly

A `Binary64` is a number of the 64-bit binary format, kept as an exact value:
a finite one is `± significand · 2 ^ exponent`. Rounding works on exact
quotients of natural numbers, so no step depends on machine arithmetic.

* **`Binary64.ofQuotient`** rounds a quotient to the nearest number, a tie to
  the even significand, and overflows to infinity.
* **`Binary64.shortest`** finds the fewest decimal digits that read back as the
  same number, and of those the nearest.
* **`Binary64.scientific`** and **`Binary64.plain`** are the two written forms
  used here: with an exponent for very large and very small numbers, and
  without one.
-/

namespace ZoneConsole

/-- A number of the 64-bit binary format. The finite ones are kept normal:
    `2 ^ 52 ≤ significand < 2 ^ 53`, or the exponent is the least one, `-1074`. -/
inductive Binary64
  | finite (negative : Bool) (significand : Nat) (exponent : Int)
  | infinite (negative : Bool)
  | nan
  deriving DecidableEq, Repr, Inhabited

namespace Binary64

/-- Zero with a sign. -/
def zero (negative : Bool) : Binary64 := finite negative 0 (-1074)

/-- `base ^ e` as a quotient of natural numbers. -/
def powerRatio (base : Nat) (e : Int) : Nat × Nat :=
  if 0 ≤ e then (Nat.pow base e.toNat, 1) else (1, Nat.pow base (-e).toNat)

/-- The least significand of full length, `2 ^ 52`. -/
def leadingBit : Nat := 0x10000000000000

/-- The quotient `num / den` rounded to the nearest natural number, a tie to the
    even one. -/
def divHalfEven (num den : Nat) : Nat :=
  let q := num / den
  let r := num % den
  if 2 * r < den then q
  else if den < 2 * r then q + 1
  else if q % 2 = 0 then q else q + 1

/-- The exponent that puts `num / den` between `2 ^ 52` and `2 ^ 53`, or the least
    exponent if that is larger. -/
def exponentOf (num den : Nat) : Int :=
  let l : Int := (num.log2 : Int) - (den.log2 : Int)
  let (pn, pd) := powerRatio 2 l
  let e := if den * pn ≤ num * pd then l - 52 else l - 53
  max e (-1074)

/-- The number nearest to `± num / den`. -/
def ofQuotient (negative : Bool) (num den : Nat) : Binary64 :=
  if num = 0 then zero negative
  else
    let e := exponentOf num den
    let (pn, pd) := powerRatio 2 e
    let m := divHalfEven (num * pd) (den * pn)
    let (m, e) := if m = 2 * leadingBit then (leadingBit, e + 1) else (m, e)
    if 971 < e then infinite negative else finite negative m e

/-- The number nearest to a natural number. -/
def ofNat (n : Nat) : Binary64 := ofQuotient false n 1

/-- The number nearest to `n · 10^power`. Every power beyond these gives the same. -/
def ofDecimal (negative : Bool) (n : Nat) (power : Int) : Binary64 :=
  if n = 0 then zero negative
  else if 400 < power then infinite negative
  else if power + (Nat.toDigits 10 n).length < -400 then zero negative
  else
    let (tn, td) := powerRatio 10 power
    ofQuotient negative (n * tn) td

/-- The number with the other sign. -/
def neg : Binary64 → Binary64
  | finite s m e => finite (!s) m e
  | infinite s => infinite (!s)
  | nan => nan

/-- Is this zero, of either sign? -/
def isZero : Binary64 → Bool
  | finite _ m _ => m == 0
  | _ => false

/-- Is this an infinity? -/
def isInfinite : Binary64 → Bool
  | infinite _ => true
  | _ => false

/-- The magnitude of a finite number as a quotient. -/
def quotient (m : Nat) (e : Int) : Nat × Nat :=
  let (pn, pd) := powerRatio 2 e
  (m * pn, pd)

/-- The rounded product of finite numbers. -/
def mul : Binary64 → Binary64 → Binary64
  | finite s m e, finite t n f =>
    let (a, b) := quotient m e
    let (c, d) := quotient n f
    ofQuotient (s != t) (a * c) (b * d)
  | nan, _ | _, nan => nan
  | x, infinite t => if x.isZero then nan else infinite ((match x with
      | finite s _ _ | infinite s => s
      | nan => false) != t)
  | infinite s, finite t n _ => if n = 0 then nan else infinite (s != t)

/-- The rounded quotient by a finite number other than zero. -/
def div : Binary64 → Binary64 → Binary64
  | finite s m e, finite t n f =>
    if n = 0 then (if m = 0 then nan else infinite (s != t))
    else
      let (a, b) := quotient m e
      let (c, d) := quotient n f
      ofQuotient (s != t) (a * d) (b * c)
  | nan, _ | _, nan => nan
  | finite s _ _, infinite t => zero (s != t)
  | infinite s, finite t _ _ => infinite (s != t)
  | infinite _, infinite _ => nan

/-- The number nearest to `10 ^ k`. -/
def powTen (k : Nat) : Binary64 := ofNat (Nat.pow 10 k)

/-- The least `k` with `num / den < 10 ^ k`, at least `-400`. -/
def magnitude (num den : Nat) : Int :=
  go 800 (-400)
where
  /-- Tries the exponents from `k` on. -/
  go : Nat → Int → Int
    | 0, k => k
    | fuel + 1, k =>
      let (tn, td) := powerRatio 10 k
      if num * td < den * tn then k else go fuel (k + 1)

/-- Decimal digits and the power of ten they are counted in. -/
structure Decimal where
  digits : Nat
  power : Int
  deriving DecidableEq, Repr

/-- The decimal of the grid `10 ^ power` that lies in the interval of reals that
    round to `m · 2 ^ e`, if there is one; of two the nearer. -/
def onGrid (m : Nat) (e : Int) (power : Int) : Option Decimal :=
  -- everything is measured in units of `2 ^ (e - 2)`
  let (pn, pd) := powerRatio 2 (e - 2)
  let (tn, td) := powerRatio 10 power
  let narrow := m = leadingBit ∧ -1074 < e
  let lo := 4 * m - (if narrow then 1 else 2)
  let hi := 4 * m + 2
  let unit := tn * pd
  let scale := td * pn
  let inside (d : Nat) : Bool :=
    let x := d * unit
    if m % 2 = 0 then lo * scale ≤ x && x ≤ hi * scale else lo * scale < x && x < hi * scale
  let value := 4 * m * scale
  let below := value / unit
  let above := below + 1
  match inside below, inside above with
  | true, true =>
    if value - below * unit ≤ above * unit - value then some ⟨below, power⟩ else some ⟨above, power⟩
  | true, false => some ⟨below, power⟩
  | false, true => some ⟨above, power⟩
  | false, false => none

/-- Drops zeros at the end of the digits. -/
def Decimal.trim : Nat → Decimal → Decimal
  | 0, d => d
  | fuel + 1, d =>
    if d.digits ≠ 0 ∧ d.digits % 10 = 0 then trim fuel ⟨d.digits / 10, d.power + 1⟩ else d

/-- The fewest digits that read back as `m · 2 ^ e`, for `m` other than zero. -/
def shortest (m : Nat) (e : Int) : Decimal :=
  let (num, den) := quotient m e
  let k := magnitude num den
  let found := (List.range 17).findSome? fun i => onGrid m e (k - (i + 1 : Nat))
  (found.getD ⟨m, 0⟩).trim 20

/-- Digits with a point after the first `point` of them, filled up with zeros on
    either side. -/
def positional (digits : List Char) (point : Int) : List Char × List Char :=
  if point ≤ 0 then (['0'], List.replicate (-point).toNat '0' ++ digits)
  else
    let p := point.toNat
    (digits.take p ++ List.replicate (p - digits.length) '0', digits.drop p)

/-- The sign as it is written. -/
def signText (negative : Bool) : List Char := if negative then ['-'] else []

/-- An exponent with its sign and at least two digits. -/
def exponentText (e : Int) : List Char :=
  let ds := Text.decimal e.natAbs
  (if e < 0 then '-' else '+') :: (if ds.length < 2 then '0' :: ds else ds)

/-- The form with an exponent: positional, with a digit after the point, from
    `1e-5` up to below `1e16`, else one digit before the point and an exponent. -/
def scientific : Binary64 → List Char
  | finite s m e =>
    signText s ++
      if m = 0 then "0.0".toList
      else
        let d := shortest m e
        let ds := Text.decimal d.digits
        let exponent := (ds.length : Int) + d.power - 1
        if -5 ≤ exponent ∧ exponent ≤ 15 then
          let (whole, fraction) := positional ds (exponent + 1)
          whole ++ '.' :: (if fraction.isEmpty then ['0'] else fraction)
        else
          ds.take 1 ++ (if ds.length = 1 then [] else '.' :: ds.drop 1) ++
            'e' :: exponentText exponent
  | infinite s => signText s ++ "inf".toList
  | nan => "NaN".toList

/-- The form without an exponent; a whole number is written without a point. -/
def plain : Binary64 → List Char
  | finite s m e =>
    signText s ++
      if m = 0 then ['0']
      else
        let d := shortest m e
        let ds := Text.decimal d.digits
        let (whole, fraction) := positional ds ((ds.length : Int) + d.power)
        whole ++ (if fraction.isEmpty then [] else '.' :: fraction)
  | infinite s => signText s ++ "inf".toList
  | nan => "NaN".toList

end Binary64

end ZoneConsole
