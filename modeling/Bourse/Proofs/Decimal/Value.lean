import Bourse.Decimal.Arith
import Bourse.Proofs.Rounding

/-! # The number behind a decimal

`toRat` is a sign and `size`, the magnitude as a rational number. What changes only the form of a
decimal keeps both (`toRat_normalize`); dropping fraction digits rounds the size at its new last
place (`rounds_roundPlaces`). -/

namespace Bourse

/-! ### Powers of ten -/

theorem tenTo_rat_pos (n : ℕ) : (0 : ℚ) < tenTo n := by exact_mod_cast tenTo_pos n

theorem tenTo_rat_ne_zero (n : ℕ) : (tenTo n : ℚ) ≠ 0 := (tenTo_rat_pos n).ne'

/-- Between two places lies a power of ten. -/
theorem tenTo_sub_mul {m n : ℕ} (h : m ≤ n) : tenTo (n - m) * tenTo m = tenTo n := by
  rw [← tenTo_add, Nat.sub_add_cancel h]

theorem tenTo_rat_sub_mul {m n : ℕ} (h : m ≤ n) :
    (tenTo (n - m) : ℚ) * tenTo m = tenTo n := by exact_mod_cast tenTo_sub_mul h

theorem tenTo_rat (n : ℕ) : (tenTo n : ℚ) = (10 : ℚ) ^ n := by
  rw [tenTo]
  exact Nat.cast_pow 10 n

theorem ten_zpow_pos (e : ℤ) : (0 : ℚ) < (10 : ℚ) ^ e := zpow_pos (by norm_num) e

theorem ten_zpow_le {a b : ℤ} (h : a ≤ b) : (10 : ℚ) ^ a ≤ (10 : ℚ) ^ b :=
  zpow_le_zpow_right₀ (by norm_num) h

theorem ten_zpow_sub (k s : ℕ) : (10 : ℚ) ^ ((k : ℤ) - s) = tenTo k / tenTo s := by
  rw [zpow_sub₀ (by norm_num), zpow_natCast, zpow_natCast, tenTo_rat, tenTo_rat]

/-- A power with an exponent of either sign, as a quotient of whole numbers. -/
theorem tenTo_div_tenTo (e : ℤ) : (tenTo e.toNat : ℚ) / tenTo (-e).toNat = (10 : ℚ) ^ e := by
  rw [← ten_zpow_sub]
  congr 1
  omega

namespace Decimal

/-! ### Sign and size -/

/-- The magnitude of a decimal. -/
def size (d : Decimal) : ℚ := (d.coefficient : ℚ) / tenTo d.scale

/-- A number with a sign. -/
def withSign (negative : Bool) (x : ℚ) : ℚ := if negative then -x else x

theorem signed_natAbs (i : ℤ) : signed (decide (i < 0)) i.natAbs = i := by
  unfold signed
  split_ifs with hneg
  · rw [decide_eq_true_eq] at hneg
    omega
  · rw [decide_eq_true_eq] at hneg
    omega

theorem toRat_eq (d : Decimal) : d.toRat = withSign d.negative d.size := by
  unfold toRat mantissa signed size withSign
  cases d.negative
  · simp
  · simp [neg_div]

theorem size_nonneg (d : Decimal) : 0 ≤ d.size :=
  div_nonneg (Nat.cast_nonneg _) (Nat.cast_nonneg _)

theorem abs_withSign (negative : Bool) (x : ℚ) : |withSign negative x| = |x| := by
  cases negative
  · rfl
  · exact abs_neg x

@[simp] theorem abs_toRat (d : Decimal) : |d.toRat| = d.size := by
  rw [toRat_eq, abs_withSign, abs_of_nonneg d.size_nonneg]

theorem size_mul_tenTo (d : Decimal) : d.size * tenTo d.scale = d.coefficient :=
  div_mul_cancel₀ _ (tenTo_rat_ne_zero _)

/-- Without fraction digits the size is the coefficient. -/
theorem size_eq_coefficient {d : Decimal} (h : d.scale = 0) : d.size = d.coefficient := by
  have := d.size_mul_tenTo
  rwa [h, tenTo_zero, Nat.cast_one, mul_one] at this

theorem size_eq_zero_iff (d : Decimal) : d.size = 0 ↔ d.coefficient = 0 := by
  rw [size, div_eq_zero_iff, or_iff_left (tenTo_rat_ne_zero _), Nat.cast_eq_zero]

theorem isZero_iff (d : Decimal) : d.isZero = true ↔ d.coefficient = 0 := by simp [isZero]

/-- A positive decimal has no sign and a coefficient. -/
theorem toRat_pos_iff (d : Decimal) : 0 < d.toRat ↔ d.negative = false ∧ d.coefficient ≠ 0 := by
  have hsize := d.size_nonneg
  rw [toRat_eq, ne_eq, ← size_eq_zero_iff]
  cases d.negative
  · simp only [withSign, Bool.false_eq_true, if_false, true_and]
    exact ⟨fun h => h.ne', fun h => lt_of_le_of_ne hsize (Ne.symm h)⟩
  · simp only [withSign, if_true, Bool.true_eq_false, false_and, iff_false]
    linarith

/-- **Decimals are ordered as their numbers.** -/
theorem lt_iff_toRat_lt {a b : Decimal} : a < b ↔ a.toRat < b.toRat := by
  unfold toRat
  rw [div_lt_div_iff₀ (tenTo_rat_pos _) (tenTo_rat_pos _)]
  exact_mod_cast Iff.rfl

theorem le_iff_toRat_le {a b : Decimal} : a ≤ b ↔ a.toRat ≤ b.toRat := by
  unfold toRat
  rw [div_le_div_iff₀ (tenTo_rat_pos _) (tenTo_rat_pos _)]
  exact_mod_cast Iff.rfl

theorem toRat_max (a b : Decimal) : (a.max b).toRat = Max.max a.toRat b.toRat := by
  unfold max
  split_ifs with h
  · exact (max_eq_right (lt_iff_toRat_lt.1 h).le).symm
  · exact (max_eq_left (not_lt.1 (mt lt_iff_toRat_lt.2 h))).symm

/-- At a finer scale the size of a decimal is whole. -/
theorem size_mul_tenTo_of_le (d : Decimal) {places : ℕ} (h : d.scale ≤ places) :
    d.size * tenTo places = (d.coefficient * tenTo (places - d.scale) : ℕ) := by
  rw [← tenTo_sub_mul h]
  push_cast
  rw [mul_left_comm, size_mul_tenTo, mul_comm]

/-- What stands in front of a place of a decimal is not more than a coefficient. -/
theorem size_mul_tenTo_le (d : Decimal) {places : ℕ} (h : places ≤ d.scale) :
    d.size * tenTo places ≤ twoTo 96 - 1 := by
  have hle : (tenTo places : ℚ) ≤ tenTo d.scale := by exact_mod_cast tenTo_le_tenTo h
  have hcoeff : (d.coefficient : ℚ) + 1 ≤ twoTo 96 := by exact_mod_cast d.coefficient_lt
  calc d.size * tenTo places ≤ d.size * tenTo d.scale :=
        mul_le_mul_of_nonneg_left hle d.size_nonneg
    _ = d.coefficient := d.size_mul_tenTo
    _ ≤ twoTo 96 - 1 := by linarith

theorem size_le (d : Decimal) : d.size ≤ twoTo 96 - 1 := by
  simpa using d.size_mul_tenTo_le (Nat.zero_le d.scale)

/-! ### Making decimals -/

theorem make?_eq_some {negative : Bool} {c s : ℕ} {d : Decimal}
    (h : make? negative c s = some d) :
    d.coefficient = c ∧ d.scale = s ∧ d.negative = (negative && c != 0) ∧ c < twoTo 96 ∧
      s ≤ 28 := by
  unfold make? at h
  split at h
  · rename_i hb
    rw [Option.some.injEq] at h
    subst h
    exact ⟨rfl, rfl, rfl, hb.1, hb.2⟩
  · cases h

theorem make?_eq_none {negative : Bool} {c s : ℕ} (h : make? negative c s = none) (hs : s ≤ 28) :
    twoTo 96 ≤ c := by
  unfold make? at h
  split at h
  · cases h
  · rename_i hb
    by_contra hc
    exact hb ⟨Nat.lt_of_not_le hc, hs⟩

/-- A decimal that was made has the wanted sign, also where it is zero. -/
theorem toRat_make {negative : Bool} {c s : ℕ} {d : Decimal} (h : make? negative c s = some d) :
    d.toRat = withSign negative d.size := by
  obtain ⟨hc, -, hn, -, -⟩ := make?_eq_some h
  rw [toRat_eq, hn]
  by_cases h0 : c = 0
  · have hz : d.size = 0 := (size_eq_zero_iff d).2 (hc.trans h0)
    rw [hz]
    simp [withSign]
  · have : (c != 0) = true := by simpa using h0
    rw [this, Bool.and_true]

/-! ### Forms of one number -/

theorem size_normalize (d : Decimal) : d.normalize.size = d.size := by
  have h : ((stripZeros d.scale d.coefficient).2 : ℚ) * tenTo d.scale
      = d.coefficient * tenTo (stripZeros d.scale d.coefficient).1 := by
    exact_mod_cast stripZeros_value d.scale d.coefficient
  rw [size, size, div_eq_div_iff (tenTo_rat_ne_zero _) (tenTo_rat_ne_zero _)]
  exact h

/-- **The normal form is the same number.** -/
theorem toRat_normalize (d : Decimal) : d.normalize.toRat = d.toRat := by
  rw [toRat_eq, toRat_eq, size_normalize]
  show withSign (d.negative && !d.isZero) d.size = _
  by_cases h : d.isZero = true
  · have : d.size = 0 := (size_eq_zero_iff d).2 ((isZero_iff d).1 h)
    rw [this]
    simp [withSign]
  · rw [Bool.not_eq_true] at h
    rw [h, Bool.not_false, Bool.and_true]

/-! ### Dropping fraction digits -/

/-- **The size at the last place that is kept.** -/
theorem rounds_roundPlaces (rule : Rounding) {places : ℕ} {d : Decimal} (h : places ≤ d.scale) :
    rule.Rounds (d.size * tenTo places) (d.roundPlaces rule places).coefficient ∧
      (d.roundPlaces rule places).scale = places := by
  unfold roundPlaces
  split
  · rename_i hle
    have hs : d.scale = places := Nat.le_antisymm hle h
    subst hs
    rw [size_mul_tenTo]
    exact ⟨Rounding.rounds_natCast rule _, rfl⟩
  · refine ⟨?_, rfl⟩
    have hq : d.size * tenTo places = (d.coefficient : ℚ) / tenTo (d.scale - places) := by
      rw [size, ← tenTo_rat_sub_mul h, div_mul_eq_mul_div,
        mul_div_mul_right _ _ (tenTo_rat_ne_zero places)]
    rw [hq]
    exact Rounding.rounds_divide rule _ (tenTo_pos _)

/-- The size after dropping digits is a count of units of the last place, also where no digit was
there to drop. -/
theorem exists_size_roundPlaces (rule : Rounding) (places : ℕ) (d : Decimal) :
    ∃ n, rule.Rounds (d.size * tenTo places) n ∧
      (d.roundPlaces rule places).size * tenTo places = n := by
  rcases Nat.le_total places d.scale with hle | hle
  · obtain ⟨hn, hscale⟩ := rounds_roundPlaces rule hle
    refine ⟨_, hn, ?_⟩
    have := (d.roundPlaces rule places).size_mul_tenTo
    rwa [hscale] at this
  · have hkeep : d.roundPlaces rule places = d := dif_pos hle
    rw [hkeep, d.size_mul_tenTo_of_le hle]
    exact ⟨_, Rounding.rounds_natCast rule _, rfl⟩

theorem scale_roundPlaces_le (rule : Rounding) (places : ℕ) (d : Decimal) :
    (d.roundPlaces rule places).scale ≤ places := by
  unfold roundPlaces
  split
  · assumption
  · exact le_refl places

theorem negative_roundPlaces (rule : Rounding) (places : ℕ) (d : Decimal) :
    (d.roundPlaces rule places).negative = d.negative := by
  unfold roundPlaces
  split <;> rfl

end Decimal

end Bourse
