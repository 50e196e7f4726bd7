import Bourse.Proofs.Binary64.Nearest
import Bourse.Proofs.Json.Int64

/-! # Whole parts after rounding

A number that goes through the binary format keeps its whole part, or loses it: just below a whole
number it is rounded up to it, and from `2 ^ 53` on the format has not even all whole numbers.
`KeepsWholePart` lists where nothing is lost, and `bind_int64?_of_keeps` shows that there the 64-bit
integer of the rounded number is that of the number itself. -/

namespace Bourse

/-! ### Whole parts of 64 bits -/

instance (i : ℤ) : Decidable (IsInt64 i) := inferInstanceAs (Decidable (_ ∧ _))

/-- The whole part of a number, toward zero, if 64 bits with a sign hold it. -/
def int64Of? (q : ℚ) : Option ℤ := if IsInt64 (towardZero q) then some (towardZero q) else none

theorem int64Of?_intCast {i : ℤ} (h : IsInt64 i) : int64Of? i = some i := by
  rw [int64Of?, towardZero_intCast, if_pos h]

theorem int64Of?_of_ge {q : ℚ} (h : 2 ^ 63 ≤ q) : int64Of? q = none := by
  have hfloor : (9223372036854775808 : ℤ) ≤ ⌊q⌋ := by
    rw [Int.le_floor]
    norm_num at h ⊢
    exact h
  rw [int64Of?, towardZero_of_nonneg (by linarith), if_neg]
  exact fun hrange => absurd hrange.2 (not_lt.2 hfloor)

theorem int64Of?_of_le {q : ℚ} (h : q ≤ -2 ^ 63 - 1) : int64Of? q = none := by
  have hceil : ⌈q⌉ ≤ -9223372036854775809 := by
    rw [Int.ceil_le]
    norm_num at h ⊢
    exact h
  have hneg : q < 0 := by
    norm_num at h
    linarith
  rw [int64Of?, towardZero, if_pos hneg, if_neg]
  exact fun hrange => absurd hrange.1 (by omega)

namespace Binary64

theorem int64?_eq (x : Binary64) : x.int64? = int64Of? x.toRat := by
  rw [int64?, int64Of?, trunc_eq]
  rfl

/-! ### Rounding and whole parts -/

variable {q : ℚ} {x : Binary64}

/-- Whole numbers near to a number of at most 53 bits are not lost: unless it is closer to the next
one than its part in `2 ^ 53`, its whole part stays. -/
theorem IsNearest.floor_eq (h : x.IsNearest q) (hpos : 0 < q) (hq : q < 2 ^ 53)
    (hnext : q + q / 2 ^ 53 < ⌊q⌋ + 1) : ⌊x.toRat⌋ = ⌊q⌋ := by
  have hfloor : (0 : ℤ) ≤ ⌊q⌋ := Int.floor_nonneg.2 hpos.le
  have hsmall : |⌊q⌋| ≤ 2 ^ 53 := by
    rw [abs_of_nonneg hfloor]
    have hlt : (⌊q⌋ : ℚ) < ((2 ^ 53 : ℤ) : ℚ) := by
      push_cast
      exact lt_of_le_of_lt (Int.floor_le q) hq
    exact (Int.cast_lt.1 hlt).le
  obtain ⟨y, hy⟩ := exists_toRat_eq_intCast hsmall
  rw [Int.floor_eq_iff]
  constructor
  · rw [← hy]
    exact h.le_toRat (by rw [hy]; exact Int.floor_le q)
  · obtain ⟨z, hz⟩ := exists_abs_sub_le hpos (lt_overflow hq)
    have hnear := (le_abs_self _).trans ((h.le z).trans hz)
    rcases le_total ((2 : ℚ) ^ (-1075 : ℤ)) (q / 2 ^ 53) with hpart | hleast
    · rw [max_eq_left hpart] at hnear
      linarith
    · -- next to zero
      rw [max_eq_right hleast] at hnear
      have htiny : (2 : ℚ) ^ (-1075 : ℤ) ≤ (2 : ℚ) ^ (-54 : ℤ) := two_zpow_le (by norm_num)
      have hvalue : (2 : ℚ) ^ (-54 : ℤ) = 1 / 2 ^ 54 := by norm_num
      have hnonneg : (0 : ℚ) ≤ ⌊q⌋ := by exact_mod_cast hfloor
      rw [hvalue] at htiny
      rw [div_le_iff₀ (by norm_num)] at hleast
      generalize (2 : ℚ) ^ (-1075 : ℤ) = t at hleast htiny hnear
      linarith

theorem IsNearest.towardZero_eq (h : x.IsNearest q) (hq : |q| < 2 ^ 53)
    (hnext : |q| + |q| / 2 ^ 53 < ⌊|q|⌋ + 1) : towardZero x.toRat = towardZero q := by
  have hpositive : ∀ {x : Binary64} {q : ℚ}, x.IsNearest q → 0 < q → |q| < 2 ^ 53 →
      |q| + |q| / 2 ^ 53 < ⌊|q|⌋ + 1 → towardZero x.toRat = towardZero q := by
    intro x q h hpos hq hnext
    rw [abs_of_pos hpos] at hq hnext
    have hx : 0 ≤ x.toRat := toRat_zero ▸ h.le_toRat (toRat_zero ▸ hpos.le)
    rw [towardZero_of_nonneg hx, towardZero_of_nonneg hpos.le, h.floor_eq hpos hq hnext]
  rcases lt_trichotomy q 0 with hneg | rfl | hpos
  · have hopposite := hpositive h.opposite (by linarith) (by rwa [abs_neg]) (by rwa [abs_neg])
    rwa [toRat_opposite, towardZero_neg, towardZero_neg, neg_inj] at hopposite
  · rw [h.toRat_eq_of_eq toRat_zero]
  · exact hpositive h hpos hq hnext

/-- Rounding a number to the format keeps its whole part, as far as 64 bits hold it. -/
inductive KeepsWholePart (q : ℚ) : Prop
  /-- Nothing is rounded. -/
  | exact (y : Binary64) : y.toRat = q → KeepsWholePart q
  /-- The next whole number is far enough. -/
  | apart : |q| < 2 ^ 53 → |q| + |q| / 2 ^ 53 < ⌊|q|⌋ + 1 → KeepsWholePart q
  | above : 2 ^ 63 ≤ q → KeepsWholePart q
  /-- Down to half a place below the least integer, numbers are rounded up to it. -/
  | below : q < -2 ^ 63 - 1024 → KeepsWholePart q

theorem KeepsWholePart.of_lt_half (h : |q| < 1 / 2) : KeepsWholePart q := by
  have hfloor : ⌊|q|⌋ = 0 := Int.floor_eq_zero_iff.2 ⟨abs_nonneg q, by linarith⟩
  refine .apart (by linarith) ?_
  rw [hfloor, Int.cast_zero]
  have hpart : |q| / 2 ^ 53 ≤ |q| := div_le_self (abs_nonneg q) (by norm_num)
  linarith

theorem KeepsWholePart.of_large (h : 2 ^ 64 ≤ |q|) : KeepsWholePart q := by
  rcases le_abs.1 h with hpos | hneg
  · exact .above (by linarith)
  · exact .below (by linarith)

/-- **Where nothing is lost**, the integer of the rounded number is that of the number. -/
theorem bind_int64?_of_keeps {r : Extended} (hr : r.IsRoundingOf q) (h : KeepsWholePart q) :
    (r.finite?.bind fun x => x.int64?) = int64Of? q := by
  cases hr with
  | finite hx =>
    rename_i x
    show x.int64? = _
    rw [int64?_eq]
    cases h with
    | exact y hy => rw [hx.toRat_eq_of_eq hy]
    | apart hq hnext => rw [int64Of?, int64Of?, hx.towardZero_eq hq hnext]
    | above hq =>
      obtain ⟨y, hy⟩ := exists_toRat_eq_mul (m := 1) (e := 63) (by decide) (by norm_num)
        (by norm_num)
      have hvalue : y.toRat = 2 ^ 63 := by
        rw [hy]
        norm_num
      have hx' : 2 ^ 63 ≤ x.toRat := hvalue ▸ hx.le_toRat (hvalue ▸ hq)
      exact (int64Of?_of_ge hx').trans (int64Of?_of_ge hq).symm
    | below hq =>
      -- the first number of the format below the range
      obtain ⟨y, hy⟩ := exists_toRat_eq_mul (m := 2 ^ 52 + 1) (e := 11) (by decide)
        (by norm_num) (by norm_num)
      have hvalue : y.opposite.toRat = -2 ^ 63 - 2048 := by
        rw [toRat_opposite, hy]
        norm_num
      have hbelow : x.toRat < -2 ^ 63 := by
        by_contra hmore
        have hle := hx.le y.opposite
        rw [hvalue, abs_of_pos (show 0 < x.toRat - q by linarith)] at hle
        rcases abs_cases (-2 ^ 63 - 2048 - q) with ⟨habs, -⟩ | ⟨habs, -⟩ <;> linarith
      obtain ⟨i, hi⟩ := exists_toRat_eq_of_le_size (x := x) (by
        rw [← abs_toRat, abs_of_neg (by linarith)]
        linarith)
      have hwhole : x.toRat ≤ -2 ^ 63 - 1 := by
        have hlt : i < -9223372036854775808 := by
          rw [hi] at hbelow
          norm_num at hbelow
          exact_mod_cast hbelow
        have hle : i ≤ -9223372036854775809 := by omega
        rw [hi]
        norm_num
        exact_mod_cast hle
      exact (int64Of?_of_le hwhole).trans (int64Of?_of_le (by linarith)).symm
  | infinite hover =>
    show none = _
    cases h with
    | exact y hy => exact absurd (hy ▸ hover) (not_le.2 y.abs_toRat_lt_overflow)
    | apart hq => exact absurd hover (not_le.2 (lt_overflow hq))
    | above hq => exact (int64Of?_of_ge hq).symm
    | below hq => exact (int64Of?_of_le (by linarith)).symm

end Binary64

end Bourse
