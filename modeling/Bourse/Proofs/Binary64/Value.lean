import Bourse.Binary64.Basic
import Bourse.Proofs.Decimal.Value

/-! # The number behind a binary number

`toRat` is a sign and `size`, the magnitude as a rational number: a mantissa times a power of two,
where the two parts that the format keeps apart, `num` and `den`, are one (`num_div_den`).

* `exists_toRat_eq_intCast`: whole numbers of 53 bits are numbers of the format, and so are those of
  63 bits whose last ten are zero (`exists_toRat_eq_mul`);
* `trunc_eq`: the whole part is that of the number, toward zero. -/

namespace Bourse

/-! ### Powers of two -/

theorem twoTo_rat (n : ℕ) : (twoTo n : ℚ) = (2 : ℚ) ^ n := by
  rw [twoTo]
  exact Nat.cast_pow 2 n

theorem two_zpow_pos (e : ℤ) : (0 : ℚ) < (2 : ℚ) ^ e := zpow_pos (by norm_num) e

theorem two_zpow_ne_zero (e : ℤ) : (2 : ℚ) ^ e ≠ 0 := (two_zpow_pos e).ne'

/-- A power with an exponent of either sign, as a quotient of whole numbers. -/
theorem twoTo_div_twoTo (e : ℤ) : (twoTo e.toNat : ℚ) / twoTo (-e).toNat = (2 : ℚ) ^ e := by
  rw [twoTo_rat, twoTo_rat, ← zpow_natCast, ← zpow_natCast, ← zpow_sub₀ (by norm_num)]
  congr 1
  omega

namespace Binary64

/-! ### Sign and size -/

/-- The magnitude of a number. -/
def size (x : Binary64) : ℚ := x.mantissa * (2 : ℚ) ^ x.exponent

theorem size_nonneg (x : Binary64) : 0 ≤ x.size :=
  mul_nonneg (Nat.cast_nonneg _) (two_zpow_pos _).le

theorem den_pos (x : Binary64) : 0 < x.den := twoTo_pos _

theorem num_div_den (x : Binary64) : (x.num : ℚ) / x.den = x.size := by
  rw [num, den, Nat.cast_mul, mul_div_assoc, twoTo_div_twoTo, size]

theorem toRat_eq (x : Binary64) : x.toRat = Decimal.withSign x.negative x.size := by
  rw [toRat, num_div_den, Decimal.withSign]
  split
  · ring
  · ring

theorem abs_toRat (x : Binary64) : |x.toRat| = x.size := by
  rw [toRat_eq, Decimal.abs_withSign, abs_of_nonneg x.size_nonneg]

/-- A number that is not below zero is its magnitude. -/
theorem toRat_of_nonneg {x : Binary64} (h : 0 ≤ x.toRat) : x.toRat = (x.num : ℚ) / x.den := by
  rw [num_div_den, ← abs_toRat, abs_of_nonneg h]

/-- Only a zero has a minus sign without being below zero. -/
theorem toRat_nonneg_iff {x : Binary64} :
    0 ≤ x.toRat ↔ ¬ (x.negative && !x.isZero) = true := by
  have hsize := x.size_nonneg
  have hzero : x.size = 0 ↔ x.isZero = true := by
    rw [size, mul_eq_zero, or_iff_left (two_zpow_ne_zero _), Nat.cast_eq_zero, isZero, beq_iff_eq]
  rw [toRat_eq, Decimal.withSign, Bool.and_eq_true, Bool.not_eq_true', not_and, Bool.not_eq_false,
    ← hzero]
  split
  · rename_i hnegative
    exact ⟨fun h _ => by linarith, fun h => by rw [h hnegative, neg_zero]⟩
  · rename_i hpositive
    exact ⟨fun _ h => absurd h hpositive, fun _ => hsize⟩

/-- The number with the other sign, zeros included. -/
def opposite (x : Binary64) : Binary64 := { x with negative := !x.negative }

@[simp] theorem toRat_opposite (x : Binary64) : x.opposite.toRat = -x.toRat := by
  rw [toRat_eq, toRat_eq]
  show Decimal.withSign (!x.negative) x.size = _
  cases x.negative <;> simp [Decimal.withSign]

@[simp] theorem opposite_opposite (x : Binary64) : x.opposite.opposite = x := by
  cases x
  simp [opposite]

/-! ### Numbers of the format -/

@[simp] theorem toRat_zero : zero.toRat = 0 := by
  simp [toRat_eq, size, zero, Decimal.withSign]

/-- What a mantissa of at most 53 bits and a power of two give is a number of the format, as long as
the mantissa can be moved to its place. -/
theorem exists_toRat_eq_mul {m : ℕ} {e : ℤ} (hm : m < twoTo 53) (hlow : -1022 ≤ e)
    (hhigh : e ≤ 971) : ∃ y : Binary64, y.toRat = m * (2 : ℚ) ^ e := by
  by_cases h0 : m = 0
  · exact ⟨zero, by simp [h0]⟩
  · have hlog : m.log2 < 53 := (Nat.log2_lt h0).2 hm
    obtain ⟨k, hk⟩ : ∃ k, k + m.log2 = 52 := ⟨52 - m.log2, by omega⟩
    have hle : twoTo m.log2 ≤ m := Nat.log2_self_le h0
    have hlt : m < twoTo (m.log2 + 1) := Nat.lt_log2_self
    have hlower : twoTo 52 ≤ m * twoTo k := by
      rw [← hk, twoTo_add, Nat.mul_comm]
      exact Nat.mul_le_mul_right _ hle
    have hupper : m * twoTo k < twoTo 53 := by
      have hsum : 53 = m.log2 + 1 + k := by omega
      rw [hsum, twoTo_add]
      exact Nat.mul_lt_mul_of_pos_right hlt (twoTo_pos k)
    refine ⟨⟨false, m * twoTo k, e - k, hupper, by omega, by omega, .inl hlower⟩, ?_⟩
    rw [toRat_eq]
    show ((m * twoTo k : ℕ) : ℚ) * (2 : ℚ) ^ (e - k) = _
    rw [Nat.cast_mul, twoTo_rat, mul_assoc, ← zpow_natCast, ← zpow_add₀ (by norm_num)]
    congr 2
    omega

/-- **Whole numbers of 53 bits** are numbers of the format. -/
theorem exists_toRat_eq_intCast {i : ℤ} (h : |i| ≤ 2 ^ 53) : ∃ y : Binary64, y.toRat = i := by
  have habs : i.natAbs ≤ twoTo 53 := by
    rw [Int.abs_eq_natAbs] at h
    exact_mod_cast h
  obtain ⟨y, hy⟩ : ∃ y : Binary64, y.toRat = i.natAbs := by
    rcases Nat.lt_or_eq_of_le habs with hlt | heq
    · obtain ⟨y, hy⟩ := exists_toRat_eq_mul (e := 0) hlt (by norm_num) (by norm_num)
      exact ⟨y, by rw [hy, zpow_zero, mul_one]⟩
    · obtain ⟨y, hy⟩ := exists_toRat_eq_mul (m := 1) (e := 53) (by decide) (by norm_num)
        (by norm_num)
      exact ⟨y, by rw [hy, heq, twoTo_rat]; norm_num⟩
  rcases Int.natAbs_eq i with hpos | hneg
  · exact ⟨y, by rw [hy, hpos]; simp⟩
  · exact ⟨y.opposite, by rw [toRat_opposite, hy, hneg]; simp⟩

/-- From `2 ^ 53` on the format has whole numbers only. -/
theorem exists_toRat_eq_of_le_size {x : Binary64} (h : 2 ^ 53 ≤ x.size) : ∃ i : ℤ, x.toRat = i := by
  have hbits : (x.mantissa : ℚ) < 2 ^ 53 := by
    rw [← twoTo_rat]
    exact_mod_cast x.canonical.1
  have hexponent : 0 ≤ x.exponent := by
    by_contra hneg
    have hpower : (2 : ℚ) ^ x.exponent ≤ 1 := zpow_le_one_of_nonpos₀ (by norm_num) (by omega)
    have hle : x.size ≤ x.mantissa * 1 := mul_le_mul_of_nonneg_left hpower (Nat.cast_nonneg _)
    linarith
  obtain ⟨n, hn⟩ := Int.eq_ofNat_of_zero_le hexponent
  have hsize : x.size = ((x.mantissa * 2 ^ n : ℕ) : ℤ) := by
    rw [size, hn, zpow_natCast]
    push_cast
    rfl
  rw [toRat_eq, hsize]
  cases x.negative
  · exact ⟨_, rfl⟩
  · exact ⟨-((x.mantissa * 2 ^ n : ℕ) : ℤ), by simp [Decimal.withSign]⟩

end Binary64

/-! ### Whole parts -/

/-- The whole part of a number, toward zero. -/
def towardZero (q : ℚ) : ℤ := if q < 0 then ⌈q⌉ else ⌊q⌋

theorem towardZero_of_nonneg {q : ℚ} (h : 0 ≤ q) : towardZero q = ⌊q⌋ := if_neg (not_lt.2 h)

@[simp] theorem towardZero_neg (q : ℚ) : towardZero (-q) = -towardZero q := by
  unfold towardZero
  rcases lt_trichotomy q 0 with h | h | h
  · rw [if_neg (show ¬ -q < 0 by linarith), if_pos h, Int.floor_neg]
  · rw [h]
    simp
  · rw [if_pos (show -q < 0 by linarith), if_neg (show ¬ q < 0 by linarith), Int.ceil_neg]

@[simp] theorem towardZero_intCast (i : ℤ) : towardZero i = i := by
  unfold towardZero
  split <;> simp

/-- The whole part of a binary number is that of the number. -/
theorem Binary64.trunc_eq (x : Binary64) : x.trunc = towardZero x.toRat := by
  have hfloor : ((x.num / x.den : ℕ) : ℤ) = towardZero x.size := by
    rw [towardZero_of_nonneg x.size_nonneg, ← num_div_den]
    exact (Rat.floor_natCast_div_natCast x.num x.den).symm
  rw [trunc, toRat_eq, hfloor, Decimal.withSign]
  split
  · rw [towardZero_neg]
  · rfl

end Bourse
