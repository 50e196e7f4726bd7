import Bourse.Binary64.Basic
import Bourse.Decimal.Basic
import Bourse.Power

/-! # Decimals from binary numbers

A binary fraction is a mantissa over a power of two. The conversion turns that power into powers of
five and ten while the mantissa has at most 96 bits, then gives up digits until the scale is allowed
and the mantissa has at most 52 bits. -/

namespace Bourse.Decimal

/-- A number `mantissa / 10 ^ places`; there may be more places than a decimal has. -/
structure Tenths where
  mantissa : Nat
  places : Nat

/-- Halves a number `n` times, keeping its places where the mantissa is even: by five tenths
otherwise, and by an inexact half where five has no room. -/
def Tenths.halve : Nat → Tenths → Tenths
  | 0, x => x
  | n + 1, ⟨m, p⟩ =>
    if m % 2 = 0 then halve n ⟨m / 2, p - 1⟩
    else if m * 5 < limit then halve n ⟨m * 5, p⟩
    else halve n ⟨m / 2, p - 1⟩

/-- Gives up the last digit of a mantissa, a half up. -/
def dropDigit (m : Nat) : Nat := if 5 ≤ m % 10 then m / 10 + 1 else m / 10

/-- Gives up `n` places; nothing is left of a mantissa of one digit. -/
def Tenths.drop : Nat → Tenths → Tenths
  | 0, x => x
  | n + 1, ⟨m, p⟩ => if m < 10 then ⟨0, 0⟩ else drop n ⟨dropDigit m, p - 1⟩

/-- Gives up at most `n` places until the mantissa has 52 bits. -/
def Tenths.shorten : Nat → Tenths → Tenths
  | 0, x => x
  | n + 1, ⟨m, p⟩ => if m < twoTo 52 then ⟨m, p⟩ else shorten n ⟨dropDigit m, p - 1⟩

/-- The magnitude of the decimal near a binary number; there is none at `2 ^ 96` and beyond. A
binary fraction with `n` bits behind the point starts as its mantissa over `10 ^ n` and is
multiplied by `5 ^ n`. -/
def magnitudeOf? (x : Binary64) : Option Decimal :=
  if 0 ≤ x.exponent then make? false x.num 0
  else
    let n := (-x.exponent).toNat
    let y := Tenths.halve n ⟨x.mantissa, n⟩
    let y := y.drop (y.places - maxScale)
    let y := y.shorten y.places
    let (scale, coefficient) := stripZeros y.places y.mantissa
    make? false coefficient scale

/-- The decimal near a binary number. It has the sign of that number, also where it is zero. -/
def ofBinary? (x : Binary64) : Option Decimal :=
  (magnitudeOf? x).map fun d => { d with negative := x.negative }

end Bourse.Decimal
