import ZoneConsole.Data
import ZoneConsole.Timestamp
import ZoneConsole.Toml.Quoted

/-!
# Numbers and dates in TOML

Whole numbers of 64 bits with a sign, in decimal digits or after a prefix in
others; numbers with a fraction or an exponent; and dates and times, which are
kept as their text under a name that nothing else uses. Underscores may stand
between digits.
-/

namespace ZoneConsole.Toml

/-- The name under which the text of a date is kept. -/
def dateName : String := "$__toml_private_datetime"

/-- Digits with underscores between them: the digits, and what follows them. -/
def readDigits (isDigit : Char → Bool) : List Char → Parsed (List Char)
  | [] => none
  | c :: r =>
    if isDigit c then
      let rec more : List Char → List Char × List Char
        | '_' :: d :: r =>
          if isDigit d then
            let (ds, r) := more r
            (d :: ds, r)
          else ([], '_' :: d :: r)
        | d :: r =>
          if isDigit d then
            let (ds, r) := more r
            (d :: ds, r)
          else ([], d :: r)
        | [] => ([], [])
      let (ds, r) := more r
      some (c :: ds, r)
    else none

/-- The value of digits of a base. -/
def digitsValue (base : Nat) (ds : List Char) : Nat :=
  ds.foldl (fun n d => n * base + (Text.hexValue? d).getD 0) 0

/-- A whole number that fits into 64 bits with a sign. -/
def wholeNumber (i : Int) (r : List Char) : Parsed Data :=
  if -0x8000000000000000 ≤ i ∧ i < 0x8000000000000000 then some (.num (.signed i), r) else none

/-- A whole number after a prefix. -/
def prefixed (base : Nat) (isDigit : Char → Bool) (r : List Char) : Parsed Data :=
  match readDigits isDigit r with
  | none => none
  | some (ds, r) => wholeNumber (digitsValue base ds) r

/-- Decimal digits that do not start with a zero, or one zero. -/
def readWhole (cs : List Char) : Parsed (List Char) :=
  match cs with
  | '0' :: r =>
    match r with
    | c :: _ => if Text.isDigit c || c = '_' then none else some (['0'], r)
    | [] => some (['0'], [])
  | cs => readDigits Text.isDigit cs

/-- A number in decimal digits, after its sign. -/
def decimalNumber (negative : Bool) (cs : List Char) : Parsed Data :=
  match readWhole cs with
  | none => none
  | some (whole, r) =>
    let fraction : Option (Option (List Char) × List Char) := match r with
      | '.' :: more => (readDigits Text.isDigit more).map fun (ds, r) => (some ds, r)
      | r => some (none, r)
    match fraction with
    | none => none
    | some (fraction, r) =>
      let exponent : Option (Option Int × List Char) := match r with
        | c :: more =>
          if c = 'e' || c = 'E' then
            let (sign, more) : Int × List Char := match more with
              | '-' :: m => (-1, m)
              | '+' :: m => (1, m)
              | m => (1, m)
            (readDigits Text.isDigit more).map fun (ds, r) => (some (sign * digitsValue 10 ds), r)
          else some (none, r)
        | [] => some (none, [])
      match exponent with
      | none => none
      | some (exponent, r) =>
        match fraction, exponent with
        | none, none =>
          wholeNumber (if negative then -(digitsValue 10 whole : Int) else digitsValue 10 whole) r
        | _, _ =>
          let digits := whole ++ fraction.getD []
          let power := exponent.getD 0 - (fraction.getD []).length
          let x := Binary64.ofDecimal negative (digitsValue 10 digits) power
          if x = .infinite false then none else some (.num (.real x), r)

/-- A number, infinite or none at all, by its word. -/
def wordNumber (negative : Bool) : List Char → Parsed Data
  | 'i' :: 'n' :: 'f' :: r => some (.num (.real (.infinite negative)), r)
  | 'n' :: 'a' :: 'n' :: r => some (.num (.real .nan), r)
  | _ => none

/-- A number in any of its forms. -/
def readNumber (cs : List Char) : Parsed Data :=
  match cs with
  | '0' :: 'x' :: r => prefixed 16 (fun c => (Text.hexValue? c).isSome) r
  | '0' :: 'o' :: r => prefixed 8 (fun c => '0' ≤ c && c ≤ '7') r
  | '0' :: 'b' :: r => prefixed 2 (fun c => c = '0' || c = '1') r
  | '-' :: r => (wordNumber true r).or (decimalNumber true r)
  | '+' :: r => (wordNumber false r).or (decimalNumber false r)
  | cs => (wordNumber false cs).or (decimalNumber false cs)

/-- Exactly so many digits, up to a greatest value. -/
def fixedDigits (width high : Nat) (cs : List Char) : Parsed (List Char) :=
  let ds := cs.take width
  if ds.length = width && ds.all Text.isDigit && Text.decimalValue ds ≤ high then
    some (ds, cs.drop width)
  else none

/-- A mark that has to stand at the start. -/
def expectMark (c : Char) : List Char → Option (List Char)
  | d :: r => if d = c then some r else none
  | [] => none

/-- A day, as its text. -/
def readDay (cs : List Char) : Option (List Char × List Char) := do
  let (y, cs) ← fixedDigits 4 9999 cs
  let cs ← expectMark '-' cs
  let (m, cs) ← fixedDigits 2 12 cs
  let cs ← expectMark '-' cs
  let (d, cs) ← fixedDigits 2 31 cs
  let month := Text.decimalValue m
  let day := Text.decimalValue d
  if 1 ≤ month ∧ 1 ≤ day ∧ day ≤ daysInMonth (Text.decimalValue y) month then
    some (y ++ '-' :: (m ++ '-' :: d), cs)
  else none

/-- A fraction of a second to nine digits, without zeros at its end. -/
def readFraction (cs : List Char) : Parsed (List Char) :=
  match cs with
  | '.' :: r =>
    let ds := r.takeWhile Text.isDigit
    if ds.isEmpty then none
    else
      let kept := ((ds.take 9).reverse.dropWhile (· = '0')).reverse
      some (if kept.isEmpty then [] else '.' :: kept, r.drop ds.length)
  | cs => some ([], cs)

/-- A time of the day, as its text. -/
def readTime (cs : List Char) : Option (List Char × List Char) := do
  let (h, cs) ← fixedDigits 2 23 cs
  let cs ← expectMark ':' cs
  let (m, cs) ← fixedDigits 2 59 cs
  let cs ← expectMark ':' cs
  let (s, cs) ← fixedDigits 2 60 cs
  let (f, cs) ← readFraction cs
  some (h ++ ':' :: (m ++ ':' :: (s ++ f)), cs)

/-- An offset, as its text; there may be none. -/
def readOffset (cs : List Char) : Option (List Char × List Char) :=
  match cs with
  | 'Z' :: r => some (['Z'], r)
  | 'z' :: r => some (['Z'], r)
  | c :: r =>
    if c = '+' ∨ c = '-' then do
      let (h, r) ← fixedDigits 2 23 r
      let r ← expectMark ':' r
      let (m, r) ← fixedDigits 2 59 r
      some (c :: (h ++ ':' :: m), r)
    else some ([], cs)
  | [] => some ([], [])

/-- Does a text begin with a digit? -/
def startsWithDigit : List Char → Bool
  | c :: _ => Text.isDigit c
  | [] => false

/-- A date, a time or both, as a tree. -/
def readDate (cs : List Char) : Parsed Data :=
  let dated (text : List Char) : Data := .map [(dateName, .str (String.ofList text))]
  match readDay cs with
  | none => (readTime cs).map fun (t, r) => (dated t, r)
  | some (day, r) =>
    match r with
    | c :: more =>
      if c = 'T' ∨ c = 't' ∨ (c = ' ' ∧ startsWithDigit more) then
        match readTime more with
        | none => none
        | some (time, r) =>
          (readOffset r).map fun (offset, r) => (dated (day ++ 'T' :: (time ++ offset)), r)
      else some (dated day, r)
    | [] => some (dated day, [])

/-- Does a text begin like a date or a time? -/
def looksLikeDate : List Char → Bool
  | a :: b :: c :: d :: '-' :: _ => [a, b, c, d].all Text.isDigit
  | a :: b :: ':' :: _ => [a, b].all Text.isDigit
  | _ => false

end ZoneConsole.Toml
