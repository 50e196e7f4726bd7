import Bourse.Text.Reader
import Bourse.Time.Calendar

/-! # Dates of mail headers

The date format of mail and of web headers: an optional weekday, which has to be right, a day, the
name of a month, a year, a time and a zone; comments in parentheses may follow. -/

namespace Bourse.MailDate

open Text

/-- The place of the next three letters in a list of names, in any case. -/
def nameOf (names : List String) : Reader Nat := fun cs =>
  let word := String.ofList ((cs.take 3).map Char.toLower)
  (names.findIdx? (· == word)).map fun i => (i, cs.drop 3)

/-- A weekday, counted from Monday. -/
def weekdayName : Reader Nat := nameOf ["mon", "tue", "wed", "thu", "fri", "sat", "sun"]

/-- A month, counted from zero. -/
def monthName : Reader Nat := nameOf
  ["jan", "feb", "mar", "apr", "may", "jun", "jul", "aug", "sep", "oct", "nov", "dec"]

/-- The weekday in front of a date, if the text begins with one. -/
def leadingWeekday : Reader (Option Nat) := fun cs =>
  match weekdayName cs with
  | some (w, ',' :: rest) => some (some w, rest)
  | some _ => none
  | none => some (none, cs)

/-- A year: two or three digits are short for a year of the last centuries. -/
def year : Reader Nat := fun cs =>
  (Reader.counted 2 cs.length cs).map fun ((n, count), rest) =>
    let full :=
      if count = 2 then (if n ≤ 49 then n + 2000 else n + 1900)
      else if count = 3 then n + 1900
      else n
    (full, rest)

/-- The seconds, behind a colon, if there are any. -/
def seconds : Reader Nat := fun cs =>
  match dropStart isBlank cs with
  | ':' :: rest => Reader.number 2 2 rest
  | _ => some (0, cs)

/-- The hours of a zone that has a name; single letters mean universal time. -/
def zoneHours? (name : String) : Option Int :=
  match name with
  | "gmt" | "ut" | "z" => some 0
  | "edt" => some (-4)
  | "est" | "cdt" => some (-5)
  | "cst" | "mdt" => some (-6)
  | "mst" | "pdt" => some (-7)
  | "pst" => some (-8)
  | other =>
    match other.toList with
    | [c] => if c == 'j' then none else some 0
    | _ => none

/-- A zone as offset in seconds: a name, or a sign and four digits. -/
def zone : Reader Int := do
  let name ← Reader.takeWhile Char.isAlpha
  if name ≠ [] then
    let hours ← zoneHours? (String.ofList (name.map Char.toLower))
    return hours * 3600
  else
    let sign ← Reader.satisfy fun c => c == '+' || c == '-'
    let hours ← Reader.number 2 2
    let minutes ← Reader.number 2 2
    if 23 < hours ∨ 59 < minutes then failure
    let off : Int := ((hours * 60 + minutes) * 60 : Nat)
    return if sign == '+' then off else -off

/-- Passes over comments and the white space between them: parentheses nest, and a backslash takes
the meaning off the next character. `depth` counts the open ones. -/
def comments : (depth : Nat) → List Char → Bool
  | depth, [] => depth == 0
  | 0, c :: cs => if c == '(' then comments 1 cs else isBlank c && comments 0 cs
  | depth + 1, '\\' :: _ :: cs => comments (depth + 1) cs
  | depth + 1, c :: cs =>
    if c == '(' then comments (depth + 2) cs
    else if c == ')' then comments depth cs
    else comments (depth + 1) cs

/-- A date up to its zone. -/
def date : Reader Instant := do
  Reader.blanks
  let weekday ← leadingWeekday
  Reader.blanks
  let day ← Reader.number 1 2
  Reader.someBlanks
  let month ← monthName
  Reader.someBlanks
  let y ← year
  Reader.someBlanks
  let hour ← Reader.number 2 2
  Reader.blanks
  Reader.char ':'
  Reader.blanks
  let minute ← Reader.number 2 2
  let second ← seconds
  Reader.someBlanks
  let off ← zone
  let d ← Date.make? y (month + 1) day
  if weekday.any fun w => w != d.weekday then failure
  Instant.at? d hour minute second 0 off

/-- The instant that a mail date names. -/
def parse? (cs : List Char) : Option Instant :=
  match date cs with
  | some (t, rest) => if comments 0 rest then some t else none
  | none => none

end Bourse.MailDate
