import ReplicaSum.Toml.Text

/-!
# TOML dates and times

A date, a time, or a date with a time and perhaps an offset. The parts have a fixed number of
digits and have to name a day of the calendar and a time of the day; a second may be a leap
second.
-/

namespace ReplicaSum.Toml

open Reader

/-- A number of so many digits that lies between two bounds. -/
def numberBetween (digits low high : Nat) : Reader Nat := do
  let n := digitsValue 10 (← exactly Char.isDigit digits)
  if low ≤ n ∧ n ≤ high then return n else refuse

/-- Whether a year has a leap day. -/
def isLeapYear (year : Nat) : Bool :=
  year % 4 = 0 && (year % 100 ≠ 0 || year % 400 = 0)

/-- The number of days of a month. -/
def daysOfMonth (year month : Nat) : Nat :=
  if month = 2 then (if isLeapYear year then 29 else 28)
  else if month = 4 ∨ month = 6 ∨ month = 9 ∨ month = 11 then 30
  else 31

/-- A day of the calendar. -/
def fullDate : Reader Unit := do
  let year ← numberBetween 4 0 9999
  skip '-'
  let month ← numberBetween 2 1 12
  skip '-'
  let _ ← numberBetween 2 1 (daysOfMonth year month)

/-- A time of the day, with any number of digits behind the seconds. -/
def fullTime : Reader Unit := do
  let _ ← numberBetween 2 0 23
  skip ':'
  let _ ← numberBetween 2 0 59
  skip ':'
  let _ ← numberBetween 2 0 60
  let _ ← option? (skip '.' *> many1 (satisfy Char.isDigit))

/-- The distance of a local time from universal time. -/
def timeOffset : Reader Unit :=
  (do let _ ← satisfy fun c => c = 'Z' || c = 'z')
  <|> (do
    let _ ← satisfy fun c => c = '+' || c = '-'
    let _ ← numberBetween 2 0 23
    skip ':'
    let _ ← numberBetween 2 0 59)

/-- A time behind a date. -/
def timeOfDate : Reader Unit := do
  let _ ← satisfy fun c => c = 'T' || c = 't' || c = ' '
  fullTime
  let _ ← option? timeOffset

/-- A date, a time or both, as it is written. -/
def datetime : Reader Value := do
  let chars ← taken ((fullDate *> option? timeOfDate *> pure ()) <|> fullTime)
  return .datetime (String.ofList chars)

end ReplicaSum.Toml
