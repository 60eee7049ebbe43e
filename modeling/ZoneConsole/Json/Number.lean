import ZoneConsole.Reading
import ZoneConsole.Text.Digits

/-!
# Numbers in JSON texts

A number is scanned first, into its sign and its runs of digits, and valued
then. A whole number of 64 bits stays one. Any other is computed in double
precision from the digits that fit into 64 bits and a power of ten.
-/

namespace ZoneConsole.Json

/-- A number as it is written. The exponent has its sign and its digits. -/
structure NumberText where
  negative : Bool
  whole : List Char
  fraction : Option (List Char)
  exponent : Option (Bool × List Char)
  deriving DecidableEq, Repr

/-- The digits at the start of a text, of which there has to be one. Answers
    `none` where the text ends before one. -/
def someDigits (cs : List Char) : Except (Option Fault) (List Char × List Char) :=
  match cs with
  | [] => .error none
  | c :: _ =>
    if Text.isDigit c then .ok (cs.takeWhile Text.isDigit, cs.dropWhile Text.isDigit)
    else .error (some .invalidNumber)

/-- The digits before the point: one zero, or digits that do not start with one. -/
def wholeDigits (cs : List Char) : Except (Option Fault) (List Char × List Char) :=
  match cs with
  | '0' :: rest =>
    match rest with
    | c :: _ => if Text.isDigit c then .error (some .invalidNumber) else .ok (['0'], rest)
    | [] => .ok (['0'], [])
  | cs => someDigits cs

/-- The digits after a point, if there is a point. -/
def fractionDigits (cs : List Char) :
    Except (Option Fault) (Option (List Char) × List Char) :=
  match cs with
  | '.' :: rest => (someDigits rest).map fun (ds, rest) => (some ds, rest)
  | cs => .ok (none, cs)

/-- The exponent, if there is one. -/
def exponentDigits (cs : List Char) :
    Except (Option Fault) (Option (Bool × List Char) × List Char) :=
  match cs with
  | c :: rest =>
    if c = 'e' ∨ c = 'E' then
      match rest with
      | '-' :: more => (someDigits more).map fun (ds, rest) => (some (true, ds), rest)
      | '+' :: more => (someDigits more).map fun (ds, rest) => (some (false, ds), rest)
      | more => (someDigits more).map fun (ds, rest) => (some (false, ds), rest)
    else .ok (none, c :: rest)
  | [] => .ok (none, [])

/-- Scans a number; the error is `none` where the text ends inside it. -/
def scanNumber (cs : List Char) : Except (Option Fault) (NumberText × List Char) :=
  let (negative, cs) := match cs with
    | '-' :: rest => (true, rest)
    | cs => (false, cs)
  match wholeDigits cs with
  | .error e => .error e
  | .ok (whole, cs) =>
    match fractionDigits cs with
    | .error e => .error e
    | .ok (fraction, cs) =>
      match exponentDigits cs with
      | .error e => .error e
      | .ok (exponent, cs) => .ok (⟨negative, whole, fraction, exponent⟩, cs)

/-- Takes digits into a significand while it fits into 64 bits, and answers the
    digits left. -/
def takeDigits : Nat → List Char → Nat × List Char
  | n, [] => (n, [])
  | n, d :: ds =>
    let m := n * 10 + Text.digitValue d
    if m < UInt64.size then takeDigits m ds else (n, d :: ds)

/-- `significand · 10 ^ exponent`, each step rounded; powers beyond `10 ^ 308` are
    taken off by division first. -/
def scaled (fuel : Nat) (x : Binary64) (exponent : Int) : Except Fault Binary64 :=
  if exponent.natAbs ≤ 308 then
    if 0 ≤ exponent then
      let y := x.mul (.powTen exponent.toNat)
      if y.isInfinite then .error .numberOutOfRange else .ok y
    else .ok (x.div (.powTen exponent.natAbs))
  else if x.isZero then .ok x
  else if 0 ≤ exponent then .error .numberOutOfRange
  else
    match fuel with
    | 0 => .ok x
    | fuel + 1 => scaled fuel (x.div (.powTen 308)) (exponent + 308)

/-- The value of a scanned number. -/
def NumberText.value (t : NumberText) : Except Fault Number :=
  let (n, left) := takeDigits 0 t.whole
  match t.fraction, t.exponent, left with
  | none, none, [] =>
    if t.negative then
      if n = 0 ∨ 0x8000000000000000 < n then .ok (.real (Binary64.ofNat n).neg)
      else .ok (.signed (-n))
    else .ok (.unsigned n)
  | _, _, _ =>
    let fraction := t.fraction.getD []
    let (m, leftover) := takeDigits n fraction
    let counted : Int := left.length - (fraction.length - leftover.length : Nat)
    let signed (x : Binary64) : Number := .real (if t.negative then x.neg else x)
    match t.exponent with
    | none => (scaled 20 (.ofNat m) counted).map signed
    | some (down, ds) =>
      let e := Text.decimalValue ds
      if 0x80000000 ≤ e then
        if m ≠ 0 ∧ !down then .error .numberOutOfRange else .ok (signed (.zero false))
      else (scaled 20 (.ofNat m) (if down then counted - e else counted + e)).map signed

/-- Reads a number. A number that is written well but out of range can be passed
    over. -/
def readNumber (cs : List Char) : Reading × Option (List Char) :=
  match scanNumber cs with
  | .error none => (.flawed .number .endInValue (some .invalidNumber), none)
  | .error (some f) => (.broken .number f, none)
  | .ok (t, rest) =>
    match t.value with
    | .ok n => (.num n, some rest)
    | .error f => (.flawed .number f none, some rest)

end ZoneConsole.Json
