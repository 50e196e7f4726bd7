import Bourse.Power
import Bourse.Rounding
import Bourse.Text.Numeral

/-! # Decimal numbers

A decimal number is a sign and a whole coefficient of at most 96 bits over a power of ten with an
exponent of at most 28. The scale is part of the number: `1.5` and `1.50` have one value and two
texts. So is the sign, even of zero: reading a plain numeral and arithmetic give zeros without a
sign, but moving the point of a number and conversion from binary can leave a negative zero behind.
`normalize` gives the representative without trailing fraction zeros and without a sign on zero,
`plain` its text. -/

namespace Bourse

/-- `± coefficient / 10 ^ scale`. -/
structure Decimal where
  negative : Bool
  coefficient : Nat
  scale : Nat
  coefficient_lt : coefficient < twoTo 96
  scale_le : scale ≤ 28
  deriving DecidableEq

namespace Decimal

/-- The largest scale. -/
def maxScale : Nat := 28

/-- One more than the largest coefficient. -/
def limit : Nat := twoTo 96

/-- The decimal with this sign, coefficient and scale, if they are in range. Zero gets no sign. -/
def make? (negative : Bool) (coefficient scale : Nat) : Option Decimal :=
  if h : coefficient < twoTo 96 ∧ scale ≤ 28 then
    some ⟨negative && coefficient != 0, coefficient, scale, h.1, h.2⟩
  else none

/-- A coefficient with a sign. -/
def signed (negative : Bool) (coefficient : Nat) : Int :=
  if negative then -(coefficient : Int) else coefficient

@[simp] theorem natAbs_signed (negative : Bool) (n : Nat) : (signed negative n).natAbs = n := by
  unfold signed
  split <;> simp

/-- Zero without fraction digits. -/
def zero : Decimal := ⟨false, 0, 0, by decide, by decide⟩

/-- One without fraction digits. -/
def one : Decimal := ⟨false, 1, 0, by decide, by decide⟩

instance : Inhabited Decimal := ⟨zero⟩

/-- The coefficient with the sign of the number. -/
def mantissa (d : Decimal) : Int := signed d.negative d.coefficient

@[simp] theorem natAbs_mantissa (d : Decimal) : d.mantissa.natAbs = d.coefficient :=
  natAbs_signed _ _

/-- The number itself. -/
def toRat (d : Decimal) : Rat := (d.mantissa : Rat) / (tenTo d.scale : Rat)

/-- Whether the number is zero, at any scale and with any sign. -/
def isZero (d : Decimal) : Bool := d.coefficient == 0

/-- The number with the other sign. A zero stays as it is. -/
def neg (d : Decimal) : Decimal :=
  { d with negative := if d.isZero then d.negative else !d.negative }

/-- The magnitude of the number. -/
def abs (d : Decimal) : Decimal := { d with negative := false }

/-- The number with its point at another place. -/
def withScale? (d : Decimal) (scale : Nat) : Option Decimal :=
  if h : scale ≤ 28 then some { d with scale, scale_le := h } else none

/-! ### Order of values -/

/-- The coefficient of `d` over the common scale of `d` and `e`. -/
def scaledTo (d e : Decimal) : Int := d.mantissa * tenTo e.scale

instance : LT Decimal := ⟨fun a b => a.scaledTo b < b.scaledTo a⟩
instance : LE Decimal := ⟨fun a b => a.scaledTo b ≤ b.scaledTo a⟩

instance (a b : Decimal) : Decidable (a < b) :=
  inferInstanceAs (Decidable (a.scaledTo b < b.scaledTo a))
instance (a b : Decimal) : Decidable (a ≤ b) :=
  inferInstanceAs (Decidable (a.scaledTo b ≤ b.scaledTo a))

/-- Whether two decimals have one value. -/
def sameValue (a b : Decimal) : Bool := a.scaledTo b == b.scaledTo a

/-- The larger number; of equal ones the first. -/
def max (a b : Decimal) : Decimal := if a < b then b else a

/-! ### Normal form -/

/-- Drops trailing zeros of a coefficient while fraction digits are left. -/
def stripZeros : (scale coefficient : Nat) → Nat × Nat
  | 0, c => (0, c)
  | s + 1, c => if c % 10 = 0 then stripZeros s (c / 10) else (s + 1, c)

theorem stripZeros_le (s c : Nat) : (stripZeros s c).1 ≤ s ∧ (stripZeros s c).2 ≤ c := by
  induction s generalizing c with
  | zero => simp [stripZeros]
  | succ s ih =>
    rw [stripZeros]
    split
    · have := ih (c / 10)
      omega
    · simp

/-- The value is kept: `c / 10 ^ s` stays what it was. -/
theorem stripZeros_value (s c : Nat) :
    (stripZeros s c).2 * tenTo s = c * tenTo (stripZeros s c).1 := by
  induction s generalizing c with
  | zero => simp [stripZeros]
  | succ s ih =>
    rw [stripZeros]
    split
    · rename_i h
      have hc : c = 10 * (c / 10) := by omega
      calc (stripZeros s (c / 10)).2 * tenTo (s + 1)
          = 10 * ((stripZeros s (c / 10)).2 * tenTo s) := by rw [tenTo_succ]; ac_rfl
        _ = 10 * (c / 10) * tenTo (stripZeros s (c / 10)).1 := by rw [ih (c / 10)]; ac_rfl
        _ = c * tenTo (stripZeros s (c / 10)).1 := by rw [← hc]
    · rfl

/-- The number without trailing fraction zeros; every zero becomes the one without sign and
scale. -/
def normalize (d : Decimal) : Decimal where
  negative := d.negative && !d.isZero
  coefficient := (stripZeros d.scale d.coefficient).2
  scale := (stripZeros d.scale d.coefficient).1
  coefficient_lt := Nat.lt_of_le_of_lt (stripZeros_le _ _).2 d.coefficient_lt
  scale_le := Nat.le_trans (stripZeros_le _ _).1 d.scale_le

/-! ### Text -/

/-- The digits of a coefficient with a point before the last `scale` of them. -/
def pointed (scale coefficient : Nat) : List Char :=
  let ds := Text.paddedDigits (scale + 1) coefficient
  if scale = 0 then ds
  else ds.take (ds.length - scale) ++ '.' :: ds.drop (ds.length - scale)

/-- All digits of the number, as many behind the point as its scale says, after its sign. -/
def toText (d : Decimal) : String :=
  String.ofList ((if d.negative then ['-'] else []) ++ pointed d.scale d.coefficient)

/-- The number without trailing fraction zeros, as text. -/
def plain (d : Decimal) : String := d.normalize.toText

/-! ### Conversions -/

/-- A whole number, if the coefficient can hold it. -/
def ofInt? (i : Int) : Option Decimal := make? (i < 0) i.natAbs 0

/-- The whole number in a word of 64 bits. -/
def ofWord (n : UInt64) : Decimal where
  negative := false
  coefficient := n.toNat
  scale := 0
  coefficient_lt := Nat.lt_trans n.toNat_lt (by decide)
  scale_le := by decide

/-- The power of ten `10 ^ n` for the powers that are used to move a point. -/
def powerOfTen (n : Nat) : Decimal :=
  if h : n ≤ 28 then
    { negative := false
      coefficient := tenTo n
      scale := 0
      coefficient_lt := Nat.lt_of_le_of_lt (tenTo_le_tenTo h) (by decide)
      scale_le := by decide }
  else one

/-- The unit of the last of `n` fraction digits, as far as a decimal has so many. -/
def tick (n : Nat) : Decimal := if h : n ≤ 28 then ⟨false, 1, n, by decide, h⟩ else zero

/-- The whole part of the magnitude. -/
def wholePart (d : Decimal) : Nat := d.coefficient / tenTo d.scale

/-- Whether there is no fraction. -/
def isWhole (d : Decimal) : Bool := d.coefficient % tenTo d.scale == 0

end Decimal

end Bourse
