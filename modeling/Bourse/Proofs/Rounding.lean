import Bourse.Rounding
import Mathlib.Algebra.Order.Field.Rat
import Mathlib.Tactic

/-! # What a rounding rule means

`Rounding.divide` works on the two parts of a quotient. `Rounds rule x n` says of a rational number
`x ≥ 0`, without any division, that `n` is the whole number it becomes under the rule:

* `rounds_divide`: `divide` gives such a number for the quotient of its arguments;
* `Rounds.mono`, `Rounds.unique`: there is no other one, and a larger number never gives a smaller
  one (`exists_rounds`: and there is always one);
* `rounds_natCast`: whole numbers stay as they are. -/

namespace Bourse.Rounding

/-- `x` becomes the whole number `n` under the rule. -/
def Rounds : Rounding → ℚ → ℕ → Prop
  | .toZero, x, n => n ≤ x ∧ x < n + 1
  | .halfAway, x, n => n - 1 / 2 ≤ x ∧ x < n + 1 / 2
  | .halfEven, x, n => |x - n| ≤ 1 / 2 ∧ (|x - n| = 1 / 2 → Even n)

variable {rule : Rounding} {x y : ℚ} {n m : ℕ}

/-! ### Quotients -/

section
variable {den rest : ℕ} (h : 0 < den)
include h

/-- A quotient is its whole part and the remainder over the divisor. -/
theorem div_eq_add_fraction (num : ℕ) :
    (num : ℚ) / den = (num / den : ℕ) + (num % den : ℕ) / (den : ℚ) := by
  have hden : (den : ℚ) ≠ 0 := by exact_mod_cast h.ne'
  have hnum : (num : ℚ) = (den : ℚ) * (num / den : ℕ) + (num % den : ℕ) := by
    exact_mod_cast (Nat.div_add_mod num den).symm
  rw [div_eq_iff hden, add_mul, div_mul_cancel₀ _ hden]
  linarith

theorem fraction_lt_one (num : ℕ) : ((num % den : ℕ) : ℚ) / den < 1 := by
  rw [div_lt_one (by exact_mod_cast h)]
  exact_mod_cast Nat.mod_lt num h

theorem half_le_fraction_iff : (1 / 2 : ℚ) ≤ rest / den ↔ den ≤ 2 * rest := by
  rw [le_div_iff₀ (by exact_mod_cast h), ← Nat.cast_le (α := ℚ)]
  push_cast
  constructor <;> intro h <;> linarith

theorem half_lt_fraction_iff : (1 / 2 : ℚ) < rest / den ↔ den < 2 * rest := by
  rw [lt_div_iff₀ (by exact_mod_cast h), ← Nat.cast_lt (α := ℚ)]
  push_cast
  constructor <;> intro h <;> linarith

end

/-- **The quotient under the rule.** -/
theorem rounds_divide (rule : Rounding) (num : ℕ) {den : ℕ} (h : 0 < den) :
    Rounds rule (num / den) (rule.divide num den) := by
  have h0 : (0 : ℚ) ≤ (num % den : ℕ) / (den : ℚ) := by positivity
  have h1 := fraction_lt_one h num
  rw [div_eq_add_fraction h, divide]
  generalize num / den = q
  generalize num % den = rest at h0 h1 ⊢
  have hle : (1 / 2 : ℚ) ≤ rest / den ↔ den ≤ 2 * rest := half_le_fraction_iff h
  have hlt : (1 / 2 : ℚ) < rest / den ↔ den < 2 * rest := half_lt_fraction_iff h
  cases rule with
  | toZero =>
    simp only [goesUp, Bool.false_eq_true, if_false, Rounds]
    constructor <;> linarith
  | halfAway =>
    simp only [goesUp, decide_eq_true_eq, ← hle, Rounds]
    split_ifs with hup
    · push_cast
      constructor <;> linarith
    · rw [not_le] at hup
      constructor <;> linarith
  | halfEven =>
    simp only [goesUp, Bool.or_eq_true, Bool.and_eq_true, decide_eq_true_eq, beq_iff_eq, Rounds]
    split_ifs with hup
    · have hge : (1 / 2 : ℚ) ≤ rest / den := hle.2 (by omega)
      push_cast
      rw [abs_le]
      refine ⟨⟨by linarith, by linarith⟩, fun hhalf => ?_⟩
      rw [abs_of_nonpos (by linarith)] at hhalf
      -- an exact half is rounded up from an odd number only
      have hexact : ¬ den < 2 * rest := fun hover => by linarith [hlt.2 hover]
      exact Nat.even_iff.2 (by omega)
    · have hhalf : (rest / den : ℚ) ≤ 1 / 2 := not_lt.1 fun hover => hup (.inl (hlt.1 hover))
      rw [add_sub_cancel_left, abs_of_nonneg h0]
      refine ⟨hhalf, fun hexact => ?_⟩
      have hover := hle.1 hexact.ge
      exact Nat.even_iff.2 (by omega)

/-! ### Numbers -/

/-- **A larger number does not become a smaller one.** -/
theorem Rounds.mono (hx : Rounds rule x n) (hy : Rounds rule y m) (h : x ≤ y) : n ≤ m := by
  cases rule with
  | toZero =>
    have : (n : ℚ) < m + 1 := by linarith [hx.1, hy.2]
    exact Nat.lt_succ_iff.1 (by exact_mod_cast this)
  | halfAway =>
    have : (n : ℚ) < m + 1 := by linarith [hx.1, hy.2]
    exact Nat.lt_succ_iff.1 (by exact_mod_cast this)
  | halfEven =>
    obtain ⟨hxn, hxe⟩ := hx
    obtain ⟨hym, hye⟩ := hy
    have h1 := abs_le.1 hxn
    have h2 := abs_le.1 hym
    by_contra hlt
    have hle : (m : ℚ) + 1 ≤ n := by exact_mod_cast Nat.lt_of_not_le hlt
    -- both are half way between the same two neighbours, of which one is odd
    have hn : (n : ℚ) = m + 1 := by linarith
    have hxh : |x - n| = 1 / 2 := by rw [abs_of_nonpos (by linarith)]; linarith
    have hyh : |y - m| = 1 / 2 := by rw [abs_of_nonneg (by linarith)]; linarith
    have hnm : n = m + 1 := by exact_mod_cast hn
    have he := hxe hxh
    have hm := hye hyh
    rw [hnm, Nat.even_add_one] at he
    exact he hm

/-- **A number has one rounding.** -/
theorem Rounds.unique (hn : Rounds rule x n) (hm : Rounds rule x m) : n = m :=
  Nat.le_antisymm (hn.mono hm le_rfl) (hm.mono hn le_rfl)

/-- Whole numbers stay as they are. -/
theorem rounds_natCast (rule : Rounding) (n : ℕ) : Rounds rule n n := by
  cases rule with
  | toZero => exact ⟨le_rfl, by linarith⟩
  | halfAway => exact ⟨by linarith, by linarith⟩
  | halfEven => simp [Rounds]

/-- Every number that is not negative has a rounding. -/
theorem exists_rounds (rule : Rounding) (h : 0 ≤ x) : ∃ n, Rounds rule x n := by
  refine ⟨rule.divide x.num.natAbs x.den, ?_⟩
  have hnum : ((x.num.natAbs : ℕ) : ℚ) = x.num := by
    rw [← Int.cast_natCast, Int.natAbs_of_nonneg (Rat.num_nonneg.2 h)]
  have hx := rounds_divide rule x.num.natAbs x.den_pos
  rwa [hnum, Rat.num_div_den] at hx

/-- A number that becomes `n` is less than one away from it. -/
theorem Rounds.abs_sub_lt (h : Rounds rule x n) : |x - n| < 1 := by
  rw [abs_lt]
  cases rule with
  | toZero => exact ⟨by linarith [h.1], by linarith [h.2]⟩
  | halfAway => exact ⟨by linarith [h.1], by linarith [h.2]⟩
  | halfEven =>
    have := abs_le.1 h.1
    exact ⟨by linarith, by linarith⟩

/-! ### Halves to the even neighbour -/

/-- A number is not near to two whole numbers. -/
theorem one_le_abs_sub_add {k n : ℕ} (h : k ≠ n) (x : ℚ) : 1 ≤ |x - n| + |x - k| := by
  have hapart : (1 : ℤ) ≤ |(k : ℤ) - n| := Int.one_le_abs (by omega)
  calc (1 : ℚ) ≤ |(k : ℚ) - n| := by exact_mod_cast hapart
    _ ≤ |(k : ℚ) - x| + |x - n| := abs_sub_le _ _ _
    _ = |x - n| + |x - k| := by rw [abs_sub_comm, add_comm]

/-- **No whole number is nearer.** -/
theorem Rounds.abs_sub_le_abs_sub (h : Rounds .halfEven x n) (k : ℕ) : |x - n| ≤ |x - k| := by
  by_cases hk : k = n
  · rw [hk]
  · linarith [h.1, one_le_abs_sub_add hk x]

/-- Of two that are equally near, the even one is taken. -/
theorem Rounds.eq_or_even (h : Rounds .halfEven x n) {k : ℕ} (heq : |x - k| = |x - n|) :
    k = n ∨ Even n := by
  by_cases hk : k = n
  · exact .inl hk
  · exact .inr (h.2 (le_antisymm h.1 (by linarith [one_le_abs_sub_add hk x])))

end Bourse.Rounding
