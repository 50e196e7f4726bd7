/-! # Rounding a quotient

`Rounding.divide` gives the whole number near a quotient of natural numbers: the next one toward
zero, or the nearest one with a rule for exact halves. Signs are the caller's: a magnitude is
rounded, so that positive and negative numbers are treated alike. -/

namespace Bourse

/-- How a quotient becomes a whole number. -/
inductive Rounding where
  /-- The fraction is dropped. -/
  | toZero
  /-- To the nearest; a half goes away from zero. -/
  | halfAway
  /-- To the nearest; a half goes to the even neighbour. -/
  | halfEven
  deriving DecidableEq, Repr

/-- Whether a quotient with whole part `q` and remainder `rest` over `den` is rounded up. -/
def Rounding.goesUp (rule : Rounding) (q rest den : Nat) : Bool :=
  match rule with
  | .toZero => false
  | .halfAway => decide (den ≤ 2 * rest)
  | .halfEven => decide (den < 2 * rest) || (decide (2 * rest = den) && q % 2 == 1)

/-- The quotient `num / den` as a whole number under the rule. -/
def Rounding.divide (rule : Rounding) (num den : Nat) : Nat :=
  if rule.goesUp (num / den) (num % den) den then num / den + 1 else num / den

@[simp] theorem Rounding.divide_toZero (num den : Nat) :
    Rounding.toZero.divide num den = num / den := rfl

/-- Every rule takes one of the two neighbours of the quotient. -/
theorem Rounding.divide_eq_or (rule : Rounding) (num den : Nat) :
    rule.divide num den = num / den ∨ rule.divide num den = num / den + 1 := by
  unfold divide
  split
  · exact .inr rfl
  · exact .inl rfl

/-- An exact quotient is kept by every rule. -/
theorem Rounding.divide_mul (rule : Rounding) (n : Nat) {den : Nat} (h : 0 < den) :
    rule.divide (n * den) den = n := by
  have hq : n * den / den = n := Nat.mul_div_cancel n h
  have hup : rule.goesUp n 0 den = false := by
    cases rule
    · rfl
    · simp [goesUp]; omega
    · simp [goesUp]; omega
  rw [divide, hq, Nat.mul_mod_left, hup]
  rfl

end Bourse
