import Bourse.Binary64.Basic
import Bourse.Text.Numeral

/-! # The fewest digits that read back

`shortest` writes a binary number as `0.d₁d₂…dₙ · 10 ^ point` with the fewest digits that round to
it, and of those the nearest to it. For each count of digits the two neighbours of the number on
that decimal grid are tried, in exact arithmetic; the interval of the reals that round to the number
contains its ends exactly when the mantissa is even. -/

namespace Bourse.Binary64

/-- Decimal digits behind a leading `0.`, and the power of ten that moves the point. -/
structure Digits where
  digits : List Char
  point : Int
  deriving DecidableEq

/-- Where a number lies that is exactly between two candidates. -/
inductive Tie where
  /-- The even candidate is taken. -/
  | toEven
  /-- The larger candidate is taken. -/
  | up
  deriving DecidableEq

/-- The power of ten above the number: `10 ^ (k - 1) ≤ |x| < 10 ^ k` for a number that is not zero.
The least number of the format exceeds `10 ^ (-340)`. -/
def decimalLead (x : Binary64) : Int :=
  ((Text.digits (x.num * tenTo 340 / x.den)).length : Int) - 340

/-- Twice the distance from the number to the lower end of its interval, in quarters of the last
place: the gap below a power of two is half as wide. -/
def gapBelow (x : Binary64) : Nat :=
  if x.mantissa = twoTo 52 ∧ -1074 < x.exponent then 1 else 2

/-- The coefficient `c` on the grid of `10 ^ s`, in the same units as `quarters x s q`. -/
def onGrid (x : Binary64) (s : Int) (c : Nat) : Nat :=
  c * tenTo s.toNat * twoTo (2 - x.exponent).toNat

/-- The point `q · 2 ^ (exponent - 2)` in the units of `onGrid x s`. -/
def quarters (x : Binary64) (s : Int) (q : Nat) : Nat :=
  q * twoTo (x.exponent - 2).toNat * tenTo (-s).toNat

/-- Whether `c · 10 ^ s` rounds to the number. -/
def readsBack (x : Binary64) (s : Int) (c : Nat) : Bool :=
  let low := quarters x s (4 * x.mantissa - gapBelow x)
  let high := quarters x s (4 * x.mantissa + 2)
  let here := onGrid x s c
  if x.mantissa % 2 = 0 then low ≤ here && here ≤ high else low < here && here < high

/-- The coefficient on the grid of `10 ^ s` that reads back, the nearer one if both neighbours of
the number do. -/
def pick? (tie : Tie) (x : Binary64) (s : Int) : Option Nat :=
  let value := quarters x s (4 * x.mantissa)
  let lower := value / onGrid x s 1
  let upper := lower + 1
  match readsBack x s lower, readsBack x s upper with
  | true, true =>
    let middle := onGrid x s lower + onGrid x s upper
    if 2 * value < middle then some lower
    else if middle < 2 * value then some upper
    else match tie with
      | .up => some upper
      | .toEven => some (if lower % 2 = 0 then lower else upper)
  | true, false => some lower
  | false, true => some upper
  | false, false => none

/-- The shortest digits of the magnitude; zero has none. -/
def shortest (tie : Tie) (x : Binary64) : Digits :=
  if x.mantissa = 0 then ⟨[], 0⟩
  else
    let k := decimalLead x
    let found := (List.range 17).findSome? fun n =>
      let s := k - (n + 1 : Nat)
      (pick? tie x s).map fun c => (c, s)
    match found with
    | none => ⟨[], 0⟩
    | some (c, s) =>
      let ds := Text.digits c
      ⟨(ds.reverse.dropWhile (· == '0')).reverse, s + ds.length⟩

end Bourse.Binary64
