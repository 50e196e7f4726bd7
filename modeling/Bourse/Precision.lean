import Bourse.Decimal.Arith
import Bourse.Error.Basic
import Bourse.Json.Access
import Bourse.Power

/-! # Writing numbers to a precision

Venues state how fine an amount or a price may be in one of three ways: by fraction digits, by
significant digits, or by a tick of which every number is a multiple. `Decimal.toPrecision` writes a
number under any of them, rounded or cut, with or without trailing zeros. -/

namespace Bourse

/-- How a precision is stated. -/
inductive PrecisionMode where
  | decimalPlaces
  | significantDigits
  | tickSize
  deriving DecidableEq, Repr

/-- What happens to digits beyond the precision. -/
inductive RoundingMode where
  /-- To the nearest, a half away from zero. -/
  | round
  /-- Toward zero. -/
  | truncate
  deriving DecidableEq, Repr

/-- Whether the text shows zeros up to the precision. -/
inductive Padding where
  | none
  | zeros
  deriving DecidableEq, Repr

/-- The rounding of a quotient under a mode. -/
def RoundingMode.rule : RoundingMode → Rounding
  | .round => .halfAway
  | .truncate => .toZero

namespace PrecisionMode

/-- The name of a mode. -/
def name : PrecisionMode → String
  | .decimalPlaces => "DecimalPlaces"
  | .significantDigits => "SignificantDigits"
  | .tickSize => "TickSize"

/-- The mode with this name. -/
def ofName? (name : String) : Option PrecisionMode :=
  [decimalPlaces, significantDigits, tickSize].find? fun m => m.name == name

end PrecisionMode

namespace Decimal

/-- The number of fraction digits in a text with a point. -/
def shownPlaces (text : List Char) : Nat :=
  match Text.splitOnce '.' text with
  | some (_, fraction) => fraction.length
  | none => 0

/-- The plain text, filled up with zeros to `places` fraction digits if padding asks for it. -/
def padded (padding : Padding) (places : Nat) (d : Decimal) : String :=
  let text := d.plain
  if padding = .none ∨ places = 0 then text
  else
    let shown := shownPlaces text.toList
    if shown < places then
      text ++ String.ofList
        ((if shown = 0 then ['.'] else []) ++ List.replicate (places - shown) '0')
    else text

/-- A count of digits given as a decimal: a whole number of at most 32 bits. -/
def digitCount (precision : Decimal) : Result Nat :=
  if !precision.isWhole then
    .error (.internal ("Digit precision must be a whole number, got " ++ precision.toText))
  else if precision.negative || twoTo 32 ≤ precision.wholePart then
    .error (.internal ("Digit precision out of range: " ++ precision.toText))
  else .ok precision.wholePart

/-- The power of ten of the leading digit of a number that is not zero. -/
def leadingPower (d : Decimal) : Int :=
  ((Text.digits d.coefficient).length : Int) - 1 - d.scale

/-- Rounds to at most 28 fraction digits. -/
def toPlaces (mode : RoundingMode) (places : Nat) (d : Decimal) : Decimal :=
  d.roundPlaces mode.rule (min places maxScale)

/-- The nearest multiple of a tick under the mode: the count of ticks is rounded to a whole
number. -/
def toTicks (mode : RoundingMode) (tick value : Decimal) : Result Decimal := do
  if tick.isZero then throw (.internal "Tick size must be positive")
  let ticks ← Error.require (value.div? tick)
    ("Overflow dividing " ++ value.toText ++ " by tick " ++ tick.toText)
  let whole := ticks.roundPlaces mode.rule 0
  Error.require (whole.mul? tick)
    ("Overflow scaling " ++ whole.toText ++ " ticks of " ++ tick.toText)

/-- Writes a number that is not zero with at most `digits` significant digits. -/
def toSignificant (mode : RoundingMode) (padding : Padding) (digits : Nat) (value : Decimal) :
    Result String :=
  let places : Int := (digits : Int) - value.leadingPower - 1
  if 0 ≤ places then
    let shown := min places.toNat maxScale
    .ok ((value.toPlaces mode shown).padded padding shown)
  else do
    let factor := powerOfTen (min (-places).toNat maxScale)
    let overflow := "Overflow scaling " ++ value.toText
    let scaled ← Error.require (value.div? factor) overflow
    let result ← Error.require ((scaled.roundPlaces mode.rule 0).mul? factor) overflow
    return result.plain

/-- Writes a number to a precision. Without a precision, or with a negative one, the number is
written as it is. -/
def toPrecision (value : Decimal) (rounding : RoundingMode) (precision : Option Decimal)
    (mode : PrecisionMode) (padding : Padding) : Result String :=
  match precision.filter fun p => !p.negative with
  | none => .ok value.plain
  | some p =>
    match mode with
    | .tickSize => do
      let result ← toTicks rounding p value
      return result.padded padding p.normalize.scale
    | .decimalPlaces => do
      let places ← digitCount p
      return (value.toPlaces rounding places).padded padding places
    | .significantDigits => do
      let digits ← digitCount p
      if value.isZero || digits == 0 then return "0"
      toSignificant rounding padding digits value

end Decimal

namespace Binary64

/-- The decimal that a binary number shows, or else the one near it. -/
def toDecimal? (x : Binary64) : Option Decimal :=
  (Decimal.ofPlain? x.displayText).or (Decimal.ofBinary? x)

/-- The decimal of a number of the format; infinities and the not-a-number have none. -/
def Extended.toDecimal? (x : Extended) : Option Decimal := x.finite?.bind Binary64.toDecimal?

/-- Writes a number of the format to a precision. -/
def Extended.toPrecision (x : Extended) (rounding : RoundingMode) (precision : Option Decimal)
    (mode : PrecisionMode) (padding : Padding) : Result String :=
  match x.toDecimal? with
  | some d => d.toPrecision rounding precision mode padding
  | none => .error (.make .badRequest ("Cannot format non-decimal number " ++ x.toText))

end Binary64

/-- The fraction digits that a numeral implies: its negated exponent if it has one of 32 bits, and
otherwise what stands behind its point without trailing zeros, measured in bytes. The answer is a
32-bit number; what does not fit one wraps around. -/
def impliedPlaces (s : String) : Int :=
  let power := (s.toList.dropWhile fun c => !Decimal.isExponentMark c).drop 1
  match Text.signed? 32 power with
  | some e => Int.bmod (-e) (twoTo 32)
  | none =>
    let trimmed := Text.dropEnd (· == '0') s.toList
    match Text.splitOnce '.' trimmed with
    | some (_, fraction) => Int.bmod (Text.byteLength fraction) (twoTo 32)
    | none => 0

end Bourse
