/-! # The calendar

Dates of the Gregorian calendar, extended without limit in both directions, and their numbers, days
counted from the first of January 1970. The year is taken to begin in March, so that the leap day is
its last day; four hundred years have 146097 days. -/

namespace Bourse

/-- A day of the calendar. -/
structure Date where
  year : Int
  month : Nat
  day : Nat
  deriving DecidableEq, Repr

namespace Date

/-- Whether a year has a leap day. -/
def isLeapYear (y : Int) : Bool := y % 4 == 0 && (y % 100 != 0 || y % 400 == 0)

/-- The number of days of a month. -/
def daysInMonth (y : Int) (m : Nat) : Nat :=
  match m with
  | 2 => if isLeapYear y then 29 else 28
  | 4 | 6 | 9 | 11 => 30
  | _ => 31

/-- The years that are handled. -/
def inRange (y : Int) : Bool := -262143 ≤ y && y ≤ 262142

/-- The date, if there is one. -/
def make? (year : Int) (month day : Nat) : Option Date :=
  if inRange year && 1 ≤ month && month ≤ 12 && 1 ≤ day && day ≤ daysInMonth year month then
    some ⟨year, month, day⟩
  else none

/-- The number of a date: days since the first of January 1970. -/
def number (d : Date) : Int :=
  let y := if d.month ≤ 2 then d.year - 1 else d.year
  let era := y / 400
  let yearOfEra := y - era * 400
  let monthOfYear : Int := ((d.month + 9) % 12 : Nat)
  let dayOfYear := (153 * monthOfYear + 2) / 5 + d.day - 1
  let dayOfEra := yearOfEra * 365 + yearOfEra / 4 - yearOfEra / 100 + dayOfYear
  era * 146097 + dayOfEra - 719468

/-- The date with a number. -/
def ofNumber (n : Int) : Date :=
  let z := n + 719468
  let era := z / 146097
  let dayOfEra := z - era * 146097
  let yearOfEra := (dayOfEra - dayOfEra / 1460 + dayOfEra / 36524 - dayOfEra / 146096) / 365
  let dayOfYear := dayOfEra - (365 * yearOfEra + yearOfEra / 4 - yearOfEra / 100)
  let monthOfYear := (5 * dayOfYear + 2) / 153
  let day := dayOfYear - (153 * monthOfYear + 2) / 5 + 1
  let month := if monthOfYear < 10 then monthOfYear + 3 else monthOfYear - 9
  let year := yearOfEra + era * 400
  ⟨if month ≤ 2 then year + 1 else year, month.toNat, day.toNat⟩

/-- The day of the week, counted from Monday. -/
def weekday (d : Date) : Nat := ((d.number + 3) % 7).toNat

end Date

/-- Milliseconds since the beginning of 1970. -/
abbrev Instant := Int

/-- The milliseconds of a day. -/
def dayLength : Int := 86400000

/-- The instant at a time of day, offset by some seconds from universal time. Second 60 is the one
after second 59. -/
def Instant.at? (date : Date) (hour minute second millis : Nat) (offset : Int) : Option Instant :=
  if hour ≤ 23 ∧ minute ≤ 59 ∧ second ≤ 60 then
    some (date.number * dayLength + ((hour * 60 + minute) * 60 + second : Nat) * 1000 + millis
      - offset * 1000)
  else none

end Bourse
