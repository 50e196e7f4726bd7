import Bourse.Power
import Bourse.Rounding

/-! # Binary floating point, 64 bits

A finite number of the format is a sign, a mantissa below `2 ^ 53` and an exponent of two, in the
one canonical form of its value. `Extended` adds the infinities and the not-a-number. All arithmetic
is exact on natural numbers: `ofRatio` rounds a ratio to the nearest number of the format, ties to
the even mantissa, and everything that produces a number goes through it. -/

namespace Bourse

/-- The canonical pairs of mantissa and exponent: normal numbers have their leading bit at
`2 ^ 52`, and smaller mantissas occur with the least exponent alone. -/
def Binary64.Canonical (mantissa : Nat) (exponent : Int) : Prop :=
  mantissa < twoTo 53 ∧ -1074 ≤ exponent ∧ exponent ≤ 971 ∧
    (twoTo 52 ≤ mantissa ∨ exponent = -1074)

instance (mantissa : Nat) (exponent : Int) : Decidable (Binary64.Canonical mantissa exponent) :=
  inferInstanceAs (Decidable (_ ∧ _ ∧ _ ∧ _))

/-- A finite number: `± mantissa · 2 ^ exponent`. Zero has both signs. -/
structure Binary64 where
  negative : Bool
  mantissa : Nat
  exponent : Int
  canonical : Binary64.Canonical mantissa exponent
  deriving DecidableEq

/-- The numbers of the format: finite ones, the two infinities and the not-a-number. -/
inductive Binary64.Extended where
  | finite (x : Binary64)
  | infinite (negative : Bool)
  | nan
  deriving DecidableEq

namespace Binary64

/-- Positive zero. -/
def zero : Binary64 := ⟨false, 0, -1074, by decide⟩

/-- Negative zero. -/
def negZero : Binary64 := ⟨true, 0, -1074, by decide⟩

/-- Whether the number is one of the zeros. -/
def isZero (x : Binary64) : Bool := x.mantissa == 0

instance : Inhabited Binary64 := ⟨zero⟩

/-- Numerator of the magnitude. -/
def num (x : Binary64) : Nat := x.mantissa * twoTo x.exponent.toNat

/-- Denominator of the magnitude, a power of two. -/
def den (x : Binary64) : Nat := twoTo (-x.exponent).toNat

/-- The number itself, exactly. -/
def toRat (x : Binary64) : Rat :=
  (if x.negative then -1 else 1) * ((x.num : Rat) / (x.den : Rat))

/-- The whole part, toward zero. -/
def trunc (x : Binary64) : Int :=
  if x.negative then -((x.num / x.den : Nat) : Int) else ((x.num / x.den : Nat) : Int)

/-! ### Rounding to the format -/

/-- The exponent at which the ratio `num / den` has a whole part of at most 53 bits, and of exactly
53 unless the exponent is the least one. -/
def leadExponent (num den : Nat) : Int :=
  let guess : Int := (Nat.log2 num : Int) - (Nat.log2 den : Int) - 53
  let small := num * twoTo (-guess).toNat < twoTo 53 * (den * twoTo guess.toNat)
  max (-1074) (if small then guess else guess + 1)

/-- The number of the format that is nearest to `num / den`, ties to the even mantissa; what is too
large becomes infinite. -/
def ofRatio (negative : Bool) (num den : Nat) : Extended :=
  if num = 0 then .finite { zero with negative }
  else
    let e := leadExponent num den
    let m := Rounding.halfEven.divide (num * twoTo (-e).toNat) (den * twoTo e.toNat)
    let (m, e) := if m = twoTo 53 then (twoTo 52, e + 1) else (m, e)
    if h : Canonical m e then .finite ⟨negative, m, e, h⟩ else .infinite negative

/-- The number nearest to an integer. -/
def ofInt (i : Int) : Extended := ofRatio (i < 0) i.natAbs 1

/-- The number nearest to a rational. -/
def ofRat (q : Rat) : Extended := ofRatio (q < 0) q.num.natAbs q.den

/-- The finite number, if it is one. -/
def Extended.finite? : Extended → Option Binary64
  | .finite x => some x
  | _ => none

end Binary64

end Bourse
