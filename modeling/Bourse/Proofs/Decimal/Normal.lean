import Bourse.Precision
import Bourse.Proofs.Decimal.Value

/-! # The normal form of a decimal

A decimal in normal form has no trailing fraction zeros and no sign on zero. Two decimals of one
number therefore have one normal form (`normalize_eq_of_toRat_eq`), and since texts are made from
it, one text under every padding (`padded_eq_of_toRat_eq`). -/

namespace Bourse.Decimal

/-- A coefficient without trailing fraction zeros. -/
def IsStripped (s c : ℕ) : Prop := s = 0 ∨ c % 10 ≠ 0

theorem isStripped_stripZeros (s c : ℕ) :
    IsStripped (stripZeros s c).1 (stripZeros s c).2 := by
  induction s generalizing c with
  | zero => exact .inl rfl
  | succ s ih =>
    rw [stripZeros]
    split
    · exact ih (c / 10)
    · rename_i h
      exact .inr h

/-- The scale of a stripped coefficient is the least one. -/
theorem IsStripped.scale_le {s c t d : ℕ} (hs : IsStripped s c) (h : c * tenTo t = d * tenTo s) :
    s ≤ t := by
  rcases hs with rfl | hc
  · exact Nat.zero_le t
  · by_contra hlt
    rw [not_le] at hlt
    -- a scale below would leave a factor of ten in the coefficient
    obtain ⟨k, rfl⟩ := Nat.exists_eq_add_of_lt hlt
    have hten : c = d * tenTo k * 10 := by
      refine Nat.eq_of_mul_eq_mul_right (tenTo_pos t) (h.trans ?_)
      rw [show t + k + 1 = (k + 1) + t by omega, tenTo_add, tenTo_succ]
      ac_rfl
    omega

/-- The sign of the normal form is that of the number. -/
theorem negative_normalize (d : Decimal) : d.normalize.negative = decide (d.toRat < 0) := by
  have hsize := d.size_nonneg
  show (d.negative && !d.isZero) = _
  rw [toRat_eq]
  cases d.negative with
  | false =>
    rw [Bool.false_and, eq_comm, decide_eq_false_iff_not, not_lt]
    exact hsize
  | true =>
    have hzero : d.isZero = decide (d.size = 0) := by
      rw [Bool.eq_iff_iff, isZero_iff, ← size_eq_zero_iff, decide_eq_true_iff]
    have hneg : withSign true d.size < 0 ↔ ¬ d.size = 0 := by
      show -d.size < 0 ↔ _
      rw [neg_lt_zero, ← ne_eq]
      exact ⟨ne_of_gt, fun h => lt_of_le_of_ne hsize h.symm⟩
    rw [Bool.true_and, hzero, ← decide_not, decide_eq_decide, hneg]

/-- **The normal form is determined by the number.** -/
theorem normalize_eq_of_toRat_eq {a b : Decimal} (h : a.toRat = b.toRat) :
    a.normalize = b.normalize := by
  have hsize : a.normalize.size = b.normalize.size := by
    rw [size_normalize, size_normalize, ← abs_toRat, h, abs_toRat]
  have hcross : a.normalize.coefficient * tenTo b.normalize.scale
      = b.normalize.coefficient * tenTo a.normalize.scale := by
    rw [size, size, div_eq_div_iff (tenTo_rat_ne_zero _) (tenTo_rat_ne_zero _)] at hsize
    exact_mod_cast hsize
  have hscale : a.normalize.scale = b.normalize.scale :=
    Nat.le_antisymm ((isStripped_stripZeros a.scale a.coefficient).scale_le hcross)
      ((isStripped_stripZeros b.scale b.coefficient).scale_le hcross.symm)
  have hcoeff : a.normalize.coefficient = b.normalize.coefficient := by
    rw [hscale] at hcross
    exact Nat.eq_of_mul_eq_mul_right (tenTo_pos _) hcross
  have hnegative : a.normalize.negative = b.normalize.negative := by
    rw [negative_normalize, negative_normalize, h]
  generalize a.normalize = m at *
  generalize b.normalize = n at *
  cases m
  cases n
  cases hscale
  cases hcoeff
  cases hnegative
  rfl

/-- **One number has one text.** -/
theorem padded_eq_of_toRat_eq {a b : Decimal} (h : a.toRat = b.toRat) (padding : Padding)
    (places : ℕ) : a.padded padding places = b.padded padding places := by
  unfold padded plain
  rw [normalize_eq_of_toRat_eq h]

/-! ### Ticks -/

theorem toRat_tick {n : ℕ} (h : n ≤ maxScale) : (tick n).toRat = 1 / tenTo n := by
  unfold maxScale at h
  unfold tick
  rw [dif_pos h]
  simp [toRat, mantissa, signed]

/-- The unit of a place is its own normal form. -/
theorem scale_normalize_tick {n : ℕ} (h : n ≤ maxScale) : (tick n).normalize.scale = n := by
  unfold maxScale at h
  unfold tick
  rw [dif_pos h]
  cases n <;> rfl

end Bourse.Decimal
