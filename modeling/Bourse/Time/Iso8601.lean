import Bourse.Power
import Bourse.Text.Cut
import Bourse.Text.Reader
import Bourse.Time.Calendar

/-! # Timestamps as text

Instants are written in universal time with milliseconds; a year outside four digits has a sign.
Reading takes a date, a time and an offset in one strict form, or, without an offset, one of two
looser forms that mean universal time. -/

namespace Bourse.Iso8601

open Text

/-- A year: four digits, and outside their range a sign and at least four digits. -/
def yearText (y : Int) : List Char :=
  if 0 ≤ y ∧ y ≤ 9999 then paddedDigits 4 y.natAbs
  else (if y < 0 then '-' else '+') :: paddedDigits 4 y.natAbs

/-- A date in digits. -/
def dateText (d : Date) : List Char :=
  yearText d.year ++ '-' :: (paddedDigits 2 d.month ++ '-' :: paddedDigits 2 d.day)

/-- A time of day, given in milliseconds. -/
def timeText (ms : Nat) : List Char :=
  let s := ms / 1000
  paddedDigits 2 (s / 3600) ++ ':' :: (paddedDigits 2 (s / 60 % 60) ++ ':' ::
    (paddedDigits 2 (s % 60) ++ '.' :: paddedDigits 3 (ms % 1000)))

/-- The text of an instant; years beyond the calendar's range have none. -/
def render? (t : Instant) : Option String :=
  let date := Date.ofNumber (t / dayLength)
  if Date.inRange date.year then
    some (String.ofList (dateText date ++ 'T' :: (timeText (t % dayLength).toNat ++ ['Z'])))
  else none

/-! ### Reading -/

/-- The milliseconds of a fraction of a second: nine digits count, more are passed over. -/
def fraction : Reader Nat := do
  let (n, count) ← Reader.counted 1 9
  let _ ← Reader.takeWhile Char.isDigit
  return n * tenTo (9 - count) / 1000000

/-- The fraction behind a point, if there is one. -/
def fractionPart : Reader Nat := do
  if ← Reader.accept (· == '.') then fraction else return 0

/-- The minus sign of typography. -/
def minusSign : Char := Char.ofNat 0x2212

/-- An offset from universal time in seconds: `Z`, or a sign, hours and minutes. -/
def offset : Reader Int := do
  if ← Reader.accept fun c => c == 'Z' || c == 'z' then return 0
  let sign ← Reader.satisfy fun c => c == '+' || c == '-' || c == minusSign
  let hours ← Reader.number 2 2
  Reader.char ':'
  let minutes ← Reader.number 2 2
  if 23 < hours ∨ 59 < minutes then failure
  let seconds : Int := ((hours * 60 + minutes) * 60 : Nat)
  return if sign == '+' then seconds else -seconds

/-- The strict form: every field has its full width and an offset follows. -/
def strict : Reader Instant := do
  let year ← Reader.number 4 4
  Reader.char '-'
  let month ← Reader.number 2 2
  Reader.char '-'
  let day ← Reader.number 2 2
  let _ ← Reader.satisfy fun c => c == 'T' || c == 't' || c == ' '
  let hour ← Reader.number 2 2
  Reader.char ':'
  let minute ← Reader.number 2 2
  Reader.char ':'
  let second ← Reader.number 2 2
  let millis ← fractionPart
  let off ← offset
  let date ← Date.make? year month day
  Instant.at? date hour minute second millis off

/-- A year of the loose forms: at most four digits, or a sign and any number of them. -/
def looseYear : Reader Int := do
  Reader.blanks
  if ← Reader.accept (· == '-') then
    let n ← Reader.anyNumber
    return -(n : Int)
  else if ← Reader.accept (· == '+') then
    let n ← Reader.anyNumber
    return n
  else
    let n ← Reader.number 1 4
    return n

/-- A field of the loose forms: one or two digits behind any white space. -/
def looseField : Reader Nat := do
  Reader.blanks
  Reader.number 1 2

/-- A loose form: `separator` reads what stands between date and time. -/
def loose (separator : Reader Unit) : Reader Instant := do
  let year ← looseYear
  Reader.char '-'
  let month ← looseField
  Reader.char '-'
  let day ← looseField
  separator
  let hour ← looseField
  Reader.char ':'
  let minute ← looseField
  Reader.char ':'
  let second ← looseField
  let millis ← fractionPart
  let date ← Date.make? year month day
  Instant.at? date hour minute second millis 0

/-- The instant that a text names. The loose forms do not know `Z`; it is taken off the end, as
often as it stands there. -/
def parse? (s : String) : Option Instant :=
  let cs := (trim s).toList
  let bare := dropEnd (· == 'Z') cs
  ((strict.readAll cs).or ((loose (Reader.char 'T')).readAll bare)).or
    ((loose Reader.blanks).readAll bare)

end Bourse.Iso8601
