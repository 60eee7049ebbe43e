import ZoneConsole.Timestamp

/-!
# Writing timestamps

The form of records of the internet: the day, the time with as many groups of
three fractional digits as it needs, and the mark of universal time. A year of
more than four digits, or before the year 0, has its sign.
-/

namespace ZoneConsole

open Text

/-- A year of four digits, or one with a sign and at least four digits. -/
def writeYear (year : Int) : List Char :=
  if 0 ≤ year ∧ year ≤ 9999 then decimalPadded 4 year.toNat
  else (if year < 0 then '-' else '+') :: decimalPadded 4 year.natAbs

/-- A day as year, month and day of the month. -/
def Day.write (d : Day) : List Char :=
  writeYear d.year ++ '-' :: (decimalPadded 2 d.month ++ '-' :: decimalPadded 2 d.day)

/-- The fraction of a second in three, six or nine digits; none for whole seconds. -/
def writeFraction (nano : Nat) : List Char :=
  if nano = 0 then []
  else if nano % 1000000 = 0 then '.' :: decimalPadded 3 (nano / 1000000)
  else if nano % 1000 = 0 then '.' :: decimalPadded 6 (nano / 1000)
  else '.' :: decimalPadded 9 nano

namespace Timestamp

/-- The day and the time to the fraction of a second. -/
def writeLocal (t : Timestamp) : List Char :=
  t.day.write ++ 'T' :: (decimalPadded 2 t.hour ++ ':' :: (decimalPadded 2 t.minute ++
    ':' :: (decimalPadded 2 t.second ++ writeFraction t.nano)))

/-- The timestamp with the letter of universal time. -/
def write (t : Timestamp) : String := String.ofList (t.writeLocal ++ ['Z'])

/-- The timestamp with the offset of universal time. -/
def writeWithOffset (t : Timestamp) : String := String.ofList (t.writeLocal ++ "+00:00".toList)

/-- The day and the time to the minute. -/
def writeMinute (t : Timestamp) : String :=
  String.ofList (t.day.write ++ ' ' :: (decimalPadded 2 t.hour ++ ':' :: decimalPadded 2 t.minute))

end Timestamp

end ZoneConsole
