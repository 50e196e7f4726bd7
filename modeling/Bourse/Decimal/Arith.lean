import Bourse.Decimal.Basic

/-! # Arithmetic on decimals

Each operation forms the exact result, or its quotient of whole numbers, and then looks for the
largest scale at which the rounded coefficient has at most 96 bits; halves go to the even neighbour.
A result that fits at no scale does not exist. `roundPlaces` drops fraction digits under a given
rule. -/

namespace Bourse.Decimal

/-! ### Dropping fraction digits -/

theorem divide_lt_limit (rule : Rounding) {c den : Nat} (hc : c < twoTo 96) (hden : 2 ≤ den) :
    rule.divide c den < twoTo 96 := by
  have h96 : 2 ≤ twoTo 96 := by decide
  have h1 : c / den ≤ c / 2 := Nat.div_le_div_left hden (by decide)
  rcases rule.divide_eq_or c den with h | h <;> omega

/-- The number with at most `places` fraction digits; digits are dropped under the rule and never
added. The sign stays, also where nothing else does. -/
def roundPlaces (rule : Rounding) (places : Nat) (d : Decimal) : Decimal :=
  if h : d.scale ≤ places then d
  else
    { negative := d.negative
      coefficient := rule.divide d.coefficient (tenTo (d.scale - places))
      scale := places
      coefficient_lt := by
        refine divide_lt_limit rule d.coefficient_lt (Nat.le_trans (by decide : 2 ≤ tenTo 1) ?_)
        exact tenTo_le_tenTo (by omega)
      scale_le := by have := d.scale_le; omega }

/-! ### Sums and products -/

/-- The decimal nearest to `i / 10 ^ scale`: as few of the digits are dropped as the bounds on scale
and coefficient allow. -/
def fit? (i : Int) (scale : Nat) : Option Decimal :=
  (List.range (scale + 1)).findSome? fun k =>
    make? (i < 0) (Rounding.halfEven.divide i.natAbs (tenTo k)) (scale - k)

/-- The sum. A zero hands back the other number as it is, the first of two zeros the second. -/
def add? (a b : Decimal) : Option Decimal :=
  if a.isZero then some b
  else if b.isZero then some a
  else
    let scale := Nat.max a.scale b.scale
    fit? (a.mantissa * tenTo (scale - a.scale) + b.mantissa * tenTo (scale - b.scale)) scale

/-- The difference. -/
def sub? (a b : Decimal) : Option Decimal := a.add? b.neg

/-- The product. A zero factor gives zero without fraction digits. -/
def mul? (a b : Decimal) : Option Decimal :=
  if a.isZero || b.isZero then some zero
  else fit? (a.mantissa * b.mantissa) (a.scale + b.scale)

/-! ### Quotients -/

/-- The decimal nearest to a quotient of whole numbers with the most fraction digits, at most 28,
for which the coefficient has 96 bits. -/
def nearest? (negative : Bool) (num den : Nat) : Option Decimal :=
  (List.range (maxScale + 1)).findSome? fun k =>
    let scale := maxScale - k
    make? negative (Rounding.halfEven.divide (num * tenTo scale) den) scale

/-- The quotient without trailing fraction zeros; there is none by zero. -/
def div? (a b : Decimal) : Option Decimal :=
  if b.isZero then none
  else
    (nearest? (a.negative != b.negative) (a.coefficient * tenTo b.scale)
      (b.coefficient * tenTo a.scale)).map normalize

end Bourse.Decimal
