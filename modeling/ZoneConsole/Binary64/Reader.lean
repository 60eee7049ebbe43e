import ZoneConsole.Binary64
import ZoneConsole.Text.Digits

/-!
# Reading decimal numbers

A number in decimal notation: a sign, digits with a point among them or at either
end, and a power of ten. **`Binary64.read?`** is the number nearest to it.
-/

namespace ZoneConsole

namespace Binary64

/-- The power of ten after a number, if what is left is one or nothing. -/
def readPower? : List Char → Option Int
  | [] => some 0
  | c :: r =>
    if c = 'e' ∨ c = 'E' then
      let (negative, ds) := Text.takeSign r
      (Text.digits? ds).map fun n => if negative then -n else n
    else none

/-- The number that a text writes in decimal notation. -/
def read? (cs : List Char) : Option Binary64 :=
  let (negative, body) := Text.takeSign cs
  let whole := body.takeWhile Text.isDigit
  let (fraction, rest) := match body.dropWhile Text.isDigit with
    | '.' :: r => (r.takeWhile Text.isDigit, r.dropWhile Text.isDigit)
    | r => ([], r)
  if whole.isEmpty && fraction.isEmpty then none
  else
    (readPower? rest).map fun power =>
      ofDecimal negative (Text.decimalValue (whole ++ fraction)) (power - fraction.length)

end Binary64

end ZoneConsole
