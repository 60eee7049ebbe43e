import ZoneConsole.Text.Digits

/-!
# Timestamps

A `Timestamp` is a moment of universal time by its civil fields, to the
nanosecond. A minute may have a leap second, which is its second 60. The proof
field says that the fields name a day of the calendar and a time of the day, so
every timestamp there is can be written and read back.
-/

namespace ZoneConsole

/-- Does the year have a 29th of February? -/
def isLeapYear (year : Int) : Bool :=
  year % 4 = 0 ∧ (year % 100 ≠ 0 ∨ year % 400 = 0)

/-- How many days a month has. -/
def daysInMonth (year : Int) (month : Nat) : Nat :=
  if month = 2 then (if isLeapYear year then 29 else 28)
  else if month = 4 ∨ month = 6 ∨ month = 9 ∨ month = 11 then 30
  else 31

/-- The first and the last year. -/
def firstYear : Int := -262143

/-- The last year. -/
def lastYear : Int := 262142

/-- A day of the calendar. -/
structure Day where
  year : Int
  month : Nat
  day : Nat
  deriving DecidableEq, Repr

/-- Does the calendar have the day? -/
def Day.isValid (d : Day) : Bool :=
  firstYear ≤ d.year ∧ d.year ≤ lastYear ∧ 1 ≤ d.month ∧ d.month ≤ 12 ∧
    1 ≤ d.day ∧ d.day ≤ daysInMonth d.year d.month

/-- The day after. -/
def Day.next (d : Day) : Day :=
  if d.day < daysInMonth d.year d.month then { d with day := d.day + 1 }
  else if d.month < 12 then ⟨d.year, d.month + 1, 1⟩
  else ⟨d.year + 1, 1, 1⟩

/-- The day before. -/
def Day.previous (d : Day) : Day :=
  if 1 < d.day then { d with day := d.day - 1 }
  else if 1 < d.month then ⟨d.year, d.month - 1, daysInMonth d.year (d.month - 1)⟩
  else ⟨d.year - 1, 12, 31⟩

/-- A moment of universal time. -/
structure Timestamp where
  day : Day
  hour : Nat
  minute : Nat
  second : Nat
  nano : Nat
  valid : day.isValid ∧ hour < 24 ∧ minute < 60 ∧ second ≤ 60 ∧ nano < 1000000000
  deriving DecidableEq, Repr

namespace Timestamp

/-- The timestamp of civil fields, if they name a day and a time. -/
def ofFields? (day : Day) (hour minute second nano : Nat) : Option Timestamp :=
  if h : day.isValid ∧ hour < 24 ∧ minute < 60 ∧ second ≤ 60 ∧ nano < 1000000000 then
    some ⟨day, hour, minute, second, nano, h⟩
  else none

end Timestamp

end ZoneConsole
