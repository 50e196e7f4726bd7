import Bourse.Proofs.Binary64.Value

/-! # Rounding to the nearest number of the format

Every binary number that is computed comes from `ofRatio`. `IsNearest` says without any computation
which number of the format it has to give: none is nearer, and of two that are equally near the one
with the even mantissa is taken; what is too large becomes infinite (`Extended.IsRoundingOf`).

* `IsLead q e`: at the exponent `e` the magnitude `q` has 53 bits before the point, or fewer at the
  least exponent; there is one such exponent, and `leadExponent` finds it
  (`isLead_leadExponent`, `IsLead.unique`);
* `IsLead.exists_natCast`: the numbers of the format lie on the grid of that exponent, or farther
  from `q` than some point of the grid does; so the nearest point of the grid is the nearest number
  (`IsLead.isNearest`);
* `isRoundingOf_ofRatio`, `isRoundingOf_ofRat`: what is computed is the rounding. -/

namespace Bourse.Binary64

open Rounding

variable {q : ℚ} {e e' : ℤ} {m : ℕ} {x : Binary64}

/-! ### What rounding means -/

/-- No number of the format is nearer to `q`, and of two equally near ones the one with the even
mantissa is taken. -/
structure IsNearest (x : Binary64) (q : ℚ) : Prop where
  le (y : Binary64) : |x.toRat - q| ≤ |y.toRat - q|
  even (y : Binary64) : |y.toRat - q| = |x.toRat - q| → y.toRat = x.toRat ∨ Even x.mantissa

/-- Half a place above the largest number of the format, which is `(2 ^ 53 - 1) * 2 ^ 971`. -/
def overflow : ℚ := (2 ^ 54 - 1) * (2 : ℚ) ^ (970 : ℤ)

/-- What a number becomes in the format: the nearest finite number, or infinite from half a place
above the largest one on. -/
inductive Extended.IsRoundingOf : Extended → ℚ → Prop
  | finite {x : Binary64} {q : ℚ} : x.IsNearest q → IsRoundingOf (.finite x) q
  | infinite {q : ℚ} : overflow ≤ |q| → IsRoundingOf (.infinite (q < 0)) q

/-- Numbers of the format do not overflow. -/
theorem abs_toRat_lt_overflow (x : Binary64) : |x.toRat| < overflow := by
  obtain ⟨hmantissa, -, hexponent, -⟩ := x.canonical
  have hbits : (x.mantissa : ℚ) ≤ 2 ^ 53 - 1 := by
    rw [le_sub_iff_add_le, ← twoTo_rat]
    exact_mod_cast hmantissa
  rw [abs_toRat]
  calc x.size ≤ (2 ^ 53 - 1) * (2 : ℚ) ^ x.exponent :=
        mul_le_mul_of_nonneg_right hbits (two_zpow_pos _).le
    _ ≤ (2 ^ 53 - 1) * (2 : ℚ) ^ (970 + 1 : ℤ) :=
        mul_le_mul_of_nonneg_left (zpow_le_zpow_right₀ (by norm_num) hexponent) (by norm_num)
    _ = (2 ^ 54 - 2) * (2 : ℚ) ^ (970 : ℤ) := by
        rw [zpow_add_one₀ (by norm_num)]
        ring
    _ < overflow := mul_lt_mul_of_pos_right (by norm_num) (two_zpow_pos _)

theorem lt_overflow (hq : q < 2 ^ 53) : q < overflow := by
  calc q < (2 ^ 54 - 1) * 1 := by linarith
    _ ≤ overflow := mul_le_mul_of_nonneg_left (one_le_zpow₀ (by norm_num) (by norm_num))
        (by norm_num)

/-! ### The leading exponent -/

/-- At the exponent `e` the whole part of `q` has 53 bits, or fewer if it is the least one. -/
structure IsLead (q : ℚ) (e : ℤ) : Prop where
  least : -1074 ≤ e
  lt : q < 2 ^ 53 * (2 : ℚ) ^ e
  le : e = -1074 ∨ 2 ^ 52 * (2 : ℚ) ^ e ≤ q

theorem two_zpow_succ (e : ℤ) : (2 : ℚ) ^ (e + 1) = 2 * (2 : ℚ) ^ e := by
  rw [zpow_add_one₀ (by norm_num), mul_comm]

theorem two_zpow_le (h : e ≤ e') : (2 : ℚ) ^ e ≤ (2 : ℚ) ^ e' :=
  zpow_le_zpow_right₀ (by norm_num) h

/-- **There is one leading exponent.** -/
theorem IsLead.unique (h : IsLead q e) (h' : IsLead q e') : e = e' := by
  have hlt : ∀ {a b : ℤ}, IsLead q a → IsLead q b → ¬ a < b := by
    intro a b ha hb hab
    have hlow := hb.le.resolve_left (by have := ha.least; omega)
    have hpower := two_zpow_le (show a + 1 ≤ b by omega)
    rw [two_zpow_succ] at hpower
    linarith [ha.lt]
  rcases lt_trichotomy e e' with hless | heq | hmore
  · exact absurd hless (hlt h h')
  · exact heq
  · exact absurd hmore (hlt h' h)

/-- A ratio over a power of two of either sign, with whole numbers on both sides. -/
theorem scaled_div (num den : ℕ) (e : ℤ) :
    ((num * twoTo (-e).toNat : ℕ) : ℚ) / (den * twoTo e.toNat : ℕ) = num / den / (2 : ℚ) ^ e := by
  have hpower := twoTo_div_twoTo (-e)
  rw [neg_neg, zpow_neg] at hpower
  rw [Nat.cast_mul, Nat.cast_mul, mul_div_mul_comm, hpower, div_eq_mul_inv _ ((2 : ℚ) ^ e)]

section
variable {num den : ℕ} (hnum : 0 < num) (hden : 0 < den)
include hnum hden

/-- The bits of a ratio by those of its parts. -/
theorem ratio_bounds : (2 : ℚ) ^ ((num.log2 : ℤ) - den.log2 - 1) ≤ num / den ∧
    (num : ℚ) / den < (2 : ℚ) ^ ((num.log2 : ℤ) - den.log2 + 1) := by
  have hden' : (0 : ℚ) < den := by exact_mod_cast hden
  have hnum_low : (2 : ℚ) ^ num.log2 ≤ num := by exact_mod_cast Nat.log2_self_le hnum.ne'
  have hnum_high : (num : ℚ) < (2 : ℚ) ^ (num.log2 + 1) := by exact_mod_cast Nat.lt_log2_self
  have hden_low : (2 : ℚ) ^ den.log2 ≤ den := by exact_mod_cast Nat.log2_self_le hden.ne'
  have hden_high : (den : ℚ) < (2 : ℚ) ^ (den.log2 + 1) := by exact_mod_cast Nat.lt_log2_self
  have hlow : (2 : ℚ) ^ ((num.log2 : ℤ) - den.log2 - 1) * (2 : ℚ) ^ (den.log2 + 1)
      = (2 : ℚ) ^ num.log2 := by
    rw [← zpow_natCast, ← zpow_natCast, ← zpow_add₀ (by norm_num)]
    congr 1
    push_cast
    ring
  have hhigh : (2 : ℚ) ^ ((num.log2 : ℤ) - den.log2 + 1) * (2 : ℚ) ^ den.log2
      = (2 : ℚ) ^ (num.log2 + 1) := by
    rw [← zpow_natCast, ← zpow_natCast, ← zpow_add₀ (by norm_num)]
    congr 1
    push_cast
    ring
  rw [le_div_iff₀ hden', div_lt_iff₀ hden']
  constructor
  · calc _ ≤ (2 : ℚ) ^ ((num.log2 : ℤ) - den.log2 - 1) * (2 : ℚ) ^ (den.log2 + 1) :=
          mul_le_mul_of_nonneg_left hden_high.le (two_zpow_pos _).le
      _ = (2 : ℚ) ^ num.log2 := hlow
      _ ≤ num := hnum_low
  · calc (num : ℚ) < (2 : ℚ) ^ (num.log2 + 1) := hnum_high
      _ = (2 : ℚ) ^ ((num.log2 : ℤ) - den.log2 + 1) * (2 : ℚ) ^ den.log2 := hhigh.symm
      _ ≤ _ := mul_le_mul_of_nonneg_left hden_low (two_zpow_pos _).le

/-- **The exponent that is computed** is the leading one. -/
theorem isLead_leadExponent : IsLead (num / den) (leadExponent num den) := by
  have hden' : (0 : ℚ) < den := by exact_mod_cast hden
  obtain ⟨hlow, hhigh⟩ := ratio_bounds hnum hden
  unfold leadExponent
  generalize hguess : (num.log2 : ℤ) - den.log2 - 53 = g
  have hlow' : (2 : ℚ) ^ 52 * (2 : ℚ) ^ g ≤ num / den := by
    have hexp : (num.log2 : ℤ) - den.log2 - 1 = 52 + g := by omega
    rwa [hexp, zpow_add₀ (by norm_num)] at hlow
  have hhigh' : (num : ℚ) / den < 2 ^ 54 * (2 : ℚ) ^ g := by
    have hexp : (num.log2 : ℤ) - den.log2 + 1 = 54 + g := by omega
    rwa [hexp, zpow_add₀ (by norm_num)] at hhigh
  have hsmall : num * twoTo (-g).toNat < twoTo 53 * (den * twoTo g.toNat)
      ↔ (num : ℚ) / den < 2 ^ 53 * (2 : ℚ) ^ g := by
    have hpos : (0 : ℚ) < (den * twoTo g.toNat : ℕ) := by
      exact_mod_cast Nat.mul_pos hden (twoTo_pos _)
    rw [← div_lt_iff₀ (two_zpow_pos g), ← scaled_div, div_lt_iff₀ hpos, ← Nat.cast_lt (α := ℚ),
      Nat.cast_mul (twoTo 53), twoTo_rat]
  obtain ⟨f, hf, hf_low, hf_high⟩ : ∃ f : ℤ,
      f = (if num * twoTo (-g).toNat < twoTo 53 * (den * twoTo g.toNat) then g else g + 1) ∧
        2 ^ 52 * (2 : ℚ) ^ f ≤ num / den ∧ (num : ℚ) / den < 2 ^ 53 * (2 : ℚ) ^ f := by
    refine ⟨_, rfl, ?_⟩
    split_ifs with h
    · exact ⟨hlow', hsmall.1 h⟩
    · have hover := not_lt.1 (mt hsmall.2 h)
      rw [two_zpow_succ]
      exact ⟨by linarith, by linarith⟩
  dsimp only
  rw [← hf]
  refine ⟨le_max_left _ _, ?_, ?_⟩
  · calc (num : ℚ) / den < 2 ^ 53 * (2 : ℚ) ^ f := hf_high
      _ ≤ 2 ^ 53 * (2 : ℚ) ^ max (-1074) f :=
        mul_le_mul_of_nonneg_left (two_zpow_le (le_max_right _ _)) (by norm_num)
  · rcases max_choice (-1074) f with hleast | hfound
    · exact .inl hleast
    · rw [hfound]
      exact .inr hf_low

end

/-! ### The grid -/

/-- **Numbers of the format** lie on the grid of the leading exponent, or a point of that grid is
nearer. -/
theorem IsLead.exists_natCast (h : IsLead q e) (hq : 0 < q) (y : Binary64) :
    ∃ k : ℕ, y.toRat = k * (2 : ℚ) ^ e ∨ |k * (2 : ℚ) ^ e - q| < |y.toRat - q| := by
  obtain ⟨hmantissa, -, -, -⟩ := y.canonical
  have hsize := y.size_nonneg
  by_cases hnegative : y.negative = true
  · -- zero is on every grid, and nearer than what is below it
    have hy : y.toRat = -y.size := by rw [toRat_eq, hnegative]; rfl
    refine ⟨0, ?_⟩
    rw [hy, Nat.cast_zero, zero_mul, zero_sub, abs_neg, abs_of_pos hq, abs_of_neg (by linarith)]
    rcases hsize.eq_or_lt with hzero | hpos
    · exact .inl (by rw [← hzero, neg_zero])
    · exact .inr (by linarith)
  · have hy : y.toRat = y.mantissa * (2 : ℚ) ^ y.exponent := by
      rw [toRat_eq, Bool.eq_false_iff.2 hnegative]
      rfl
    rcases le_or_gt e y.exponent with hle | hlt
    · obtain ⟨n, hn⟩ := Int.eq_ofNat_of_zero_le (sub_nonneg.2 hle)
      refine ⟨y.mantissa * 2 ^ n, .inl ?_⟩
      rw [hy, Nat.cast_mul, Nat.cast_pow, mul_assoc, Nat.cast_ofNat, ← zpow_natCast,
        ← zpow_add₀ (by norm_num)]
      congr 2
      omega
    · -- a finer grid belongs to smaller numbers: the first power of two up to `q` is nearer
      have hlow := h.le.resolve_left (by have := y.canonical.2.1; omega)
      have hpower := two_zpow_le (show y.exponent + 1 ≤ e by omega)
      rw [two_zpow_succ] at hpower
      have hbelow : y.toRat < 2 ^ 52 * (2 : ℚ) ^ e := by
        have hbits : (y.mantissa : ℚ) < 2 ^ 53 := by
          rw [← twoTo_rat]
          exact_mod_cast hmantissa
        have hpos := two_zpow_pos y.exponent
        rw [hy]
        nlinarith
      refine ⟨2 ^ 52, .inr ?_⟩
      rw [Nat.cast_pow, Nat.cast_ofNat, abs_of_nonpos (by linarith), abs_of_neg (by linarith)]
      linarith

theorem abs_mul_sub (e : ℤ) (k q : ℚ) :
    |k * (2 : ℚ) ^ e - q| = |q / (2 : ℚ) ^ e - k| * (2 : ℚ) ^ e := by
  have hpos := two_zpow_pos e
  rw [← abs_of_pos hpos, ← abs_mul, abs_of_pos hpos, sub_mul, div_mul_cancel₀ _ hpos.ne',
    abs_sub_comm]

/-- **The nearest point of the grid** is the nearest number of the format. -/
theorem IsLead.isNearest (h : IsLead q e) (hq : 0 < q) (hm : Rounds .halfEven (q / (2 : ℚ) ^ e) m)
    (hx : x.toRat = m * (2 : ℚ) ^ e) (heven : Even m → Even x.mantissa) : x.IsNearest q := by
  have hpos := two_zpow_pos e
  have hgrid : ∀ k : ℕ, |x.toRat - q| ≤ |k * (2 : ℚ) ^ e - q| := by
    intro k
    rw [hx, abs_mul_sub, abs_mul_sub]
    exact mul_le_mul_of_nonneg_right (hm.abs_sub_le_abs_sub k) hpos.le
  constructor
  · intro y
    obtain ⟨k, heq | hlt⟩ := h.exists_natCast hq y
    · rw [heq]
      exact hgrid k
    · exact (hgrid k).trans hlt.le
  · intro y htie
    obtain ⟨k, heq | hlt⟩ := h.exists_natCast hq y
    · rw [heq, hx, abs_mul_sub, abs_mul_sub] at htie
      rcases hm.eq_or_even (mul_right_cancel₀ hpos.ne' htie) with rfl | hm
      · exact .inl (heq.trans hx.symm)
      · exact .inr (heven hm)
    · exact absurd (htie ▸ hlt) (not_lt.2 (hgrid k))

/-! ### What is computed -/

section
variable {num den : ℕ} (hnum : 0 < num) (hden : 0 < den) (negative : Bool)
include hnum hden

/-- **What rounding computes**: the nearest point of the grid, with a mantissa that is even if its
count of places is, or an infinity. -/
theorem ofRatio_cases : ∃ e m, IsLead (num / den) e ∧
    Rounds .halfEven (num / den / (2 : ℚ) ^ e) m ∧
    ((∃ x, ofRatio negative num den = .finite x ∧ x.negative = negative ∧
        x.size = m * (2 : ℚ) ^ e ∧ (Even m → Even x.mantissa)) ∨
      ofRatio negative num den = .infinite negative ∧ overflow ≤ num / den) := by
  have hlead := isLead_leadExponent hnum hden
  have hrounds := rounds_divide .halfEven (num * twoTo (-leadExponent num den).toNat)
    (Nat.mul_pos hden (twoTo_pos (leadExponent num den).toNat))
  rw [scaled_div] at hrounds
  unfold ofRatio
  rw [if_neg hnum.ne']
  generalize leadExponent num den = e at hlead hrounds ⊢
  dsimp only
  generalize Rounding.halfEven.divide (num * twoTo (-e).toNat) (den * twoTo e.toNat) = m
    at hrounds ⊢
  generalize (num : ℚ) / den = q at hlead hrounds ⊢
  have hpos := two_zpow_pos e
  have hupper : m ≤ 2 ^ 53 := by
    refine hrounds.mono (rounds_natCast .halfEven (2 ^ 53)) ?_
    rw [div_le_iff₀ hpos]
    push_cast
    exact hlead.lt.le
  have hlower : e = -1074 ∨ 2 ^ 52 ≤ m := hlead.le.imp_right fun hle => by
    refine (rounds_natCast .halfEven (2 ^ 52)).mono hrounds ?_
    rw [le_div_iff₀ hpos]
    push_cast
    exact hle
  refine ⟨e, m, hlead, hrounds, ?_⟩
  by_cases hcarry : m = twoTo 53
  · -- all bits are set and the next power of two is nearest
    rw [if_pos hcarry]
    dsimp only
    by_cases hcanonical : Canonical (twoTo 52) (e + 1)
    · rw [dif_pos hcanonical]
      refine .inl ⟨_, rfl, rfl, ?_, fun _ => ⟨twoTo 51, rfl⟩⟩
      show ((twoTo 52 : ℕ) : ℚ) * (2 : ℚ) ^ (e + 1) = _
      rw [hcarry, two_zpow_succ, twoTo_rat, twoTo_rat]
      ring
    · rw [dif_neg hcanonical]
      refine .inr ⟨rfl, ?_⟩
      have hlarge : 971 ≤ e := by
        by_contra hsmall
        exact hcanonical ⟨by decide, by have := hlead.least; omega, by omega, .inl le_rfl⟩
      have hhalf := (abs_le.1 hrounds.1).1
      rw [hcarry, twoTo_rat, le_sub_iff_add_le, le_div_iff₀ hpos] at hhalf
      have hpower := two_zpow_le hlarge
      calc overflow = (-(1 / 2) + 2 ^ 53) * (2 : ℚ) ^ (970 + 1 : ℤ) := by
            rw [overflow, two_zpow_succ]
            ring
        _ ≤ (-(1 / 2) + 2 ^ 53) * (2 : ℚ) ^ e := mul_le_mul_of_nonneg_left hpower (by norm_num)
        _ ≤ q := hhalf
  · rw [if_neg hcarry]
    dsimp only
    by_cases hcanonical : Canonical m e
    · rw [dif_pos hcanonical]
      exact .inl ⟨_, rfl, rfl, rfl, id⟩
    · rw [dif_neg hcanonical]
      refine .inr ⟨rfl, ?_⟩
      have hlarge : 972 ≤ e := by
        by_contra hsmall
        refine hcanonical ⟨?_, hlead.least, by omega, hlower.symm⟩
        exact lt_of_le_of_ne hupper hcarry
      have hle := hlead.le.resolve_left (by omega)
      have hpower := two_zpow_le hlarge
      calc overflow ≤ 2 ^ 54 * (2 : ℚ) ^ (970 : ℤ) :=
            mul_le_mul_of_nonneg_right (by norm_num) (two_zpow_pos _).le
        _ = 2 ^ 52 * (2 : ℚ) ^ (970 + 1 + 1 : ℤ) := by
            rw [two_zpow_succ, two_zpow_succ]
            ring
        _ ≤ 2 ^ 52 * (2 : ℚ) ^ e := mul_le_mul_of_nonneg_left hpower (by norm_num)
        _ ≤ q := hle

end

/-- What is nearest to a number has its opposite nearest to the opposite number. -/
theorem IsNearest.opposite (h : x.IsNearest q) : x.opposite.IsNearest (-q) := by
  have hmirror : ∀ y : Binary64, |y.toRat - -q| = |y.opposite.toRat - q| := by
    intro y
    rw [toRat_opposite, ← abs_neg]
    congr 1
    ring
  have hself : |x.opposite.toRat - -q| = |x.toRat - q| := by
    rw [hmirror, toRat_opposite, toRat_opposite, neg_neg]
  constructor
  · intro y
    rw [hself, hmirror]
    exact h.le y.opposite
  · intro y htie
    rw [hself, hmirror] at htie
    exact (h.even y.opposite htie).imp_left fun heq => by
      rw [toRat_opposite, ← heq, toRat_opposite, neg_neg]

/-- Zero has both signs, and each is nearest to what is at most half the least number. -/
theorem isNearest_zero (negative : Bool) (h : |q| ≤ (2 : ℚ) ^ (-1075 : ℤ)) :
    IsNearest { zero with negative } q := by
  have hzero : ({ zero with negative } : Binary64).toRat = 0 := by
    cases negative <;> simp [toRat_eq, size, zero, Decimal.withSign]
  refine ⟨fun y => ?_, fun _ _ => .inr ⟨0, rfl⟩⟩
  rw [hzero, zero_sub, abs_neg]
  by_cases hy : y.mantissa = 0
  · have hvalue : y.toRat = 0 := by
      rw [toRat_eq, size, hy]
      simp [Decimal.withSign]
    rw [hvalue, zero_sub, abs_neg]
  · have hsize : (2 : ℚ) ^ (-1074 : ℤ) ≤ |y.toRat| := by
      have hbit : (1 : ℚ) ≤ y.mantissa := by exact_mod_cast Nat.one_le_iff_ne_zero.2 hy
      rw [abs_toRat, size]
      exact (two_zpow_le y.canonical.2.1).trans (le_mul_of_one_le_left (two_zpow_pos _).le hbit)
    have hleast : (-1074 : ℤ) = -1075 + 1 := by norm_num
    have hdistance := abs_sub_abs_le_abs_sub y.toRat q
    rw [hleast, two_zpow_succ] at hsize
    linarith

/-- A number above zero has the sign that it is given. -/
theorem decide_withSign_neg (negative : Bool) (hq : 0 < q) :
    decide (Decimal.withSign negative q < 0) = negative := by
  cases negative
  · simpa [Decimal.withSign] using hq.le
  · simpa [Decimal.withSign] using hq

theorem isRoundingOf_infinite (negative : Bool) (h : overflow ≤ q) :
    (Extended.infinite negative).IsRoundingOf (Decimal.withSign negative q) := by
  have hq : 0 < q := (lt_overflow (by norm_num)).trans_le h
  have hrounding := Extended.IsRoundingOf.infinite (q := Decimal.withSign negative q)
    (by rwa [Decimal.abs_withSign, abs_of_pos hq])
  rwa [decide_withSign_neg negative hq] at hrounding

/-- **What is computed of a ratio with a sign** is its rounding. -/
theorem isRoundingOf_ofRatio (negative : Bool) (num : ℕ) {den : ℕ} (hden : 0 < den) :
    (ofRatio negative num den).IsRoundingOf (Decimal.withSign negative (num / den)) := by
  rcases Nat.eq_zero_or_pos num with rfl | hnum
  · have hvalue : Decimal.withSign negative (((0 : ℕ) : ℚ) / den) = 0 := by
      cases negative <;> simp [Decimal.withSign]
    rw [hvalue, ofRatio, if_pos rfl]
    exact .finite (isNearest_zero negative (abs_zero.trans_le (two_zpow_pos _).le))
  have hq : (0 : ℚ) < (num : ℚ) / den :=
    div_pos (by exact_mod_cast hnum) (by exact_mod_cast hden)
  obtain ⟨e, m, hlead, hrounds, ⟨x, hx, hsign, hsize, heven⟩ | ⟨hinfinite, hover⟩⟩ :=
    ofRatio_cases hnum hden negative
  · rw [hx]
    refine .finite ?_
    cases negative with
    | false => exact hlead.isNearest hq hrounds (by rw [toRat_eq, hsign]; exact hsize) heven
    | true =>
      have hnearest : x.opposite.IsNearest (num / den) := by
        refine hlead.isNearest hq hrounds ?_ heven
        rw [toRat_opposite, toRat_eq, hsign, ← hsize]
        exact neg_neg _
      rw [← opposite_opposite x]
      exact hnearest.opposite
  · rw [hinfinite]
    exact isRoundingOf_infinite negative hover

theorem natAbs_num_div_den (q : ℚ) : (q.num.natAbs : ℚ) / q.den = |q| := by
  rw [Nat.cast_natAbs, Int.cast_abs, ← Nat.abs_cast q.den, ← abs_div, Rat.num_div_den]

theorem withSign_abs (q : ℚ) : Decimal.withSign (decide (q < 0)) |q| = q := by
  unfold Decimal.withSign
  by_cases h : q < 0
  · rw [if_pos (decide_eq_true h), abs_of_neg h, neg_neg]
  · rw [if_neg (by simpa using h), abs_of_nonneg (not_lt.1 h)]

/-- **What is computed of a rational** is its rounding. -/
theorem isRoundingOf_ofRat (q : ℚ) : (ofRat q).IsRoundingOf q := by
  have hrounding := isRoundingOf_ofRatio (decide (q < 0)) q.num.natAbs q.den_pos
  rwa [natAbs_num_div_den, withSign_abs] at hrounding

/-- **What is computed of an integer** is its rounding. -/
theorem isRoundingOf_ofInt (i : ℤ) : (ofInt i).IsRoundingOf i := by
  have hsame : ofRat i = ofInt i := by simp [ofRat, ofInt]
  exact hsame ▸ isRoundingOf_ofRat i

/-- Rounding depends on the ratio alone. -/
theorem ofRatio_congr (negative : Bool) {num den num' den' : ℕ} (hnum : 0 < num) (hden : 0 < den)
    (hnum' : 0 < num') (hden' : 0 < den') (h : (num : ℚ) / den = num' / den') :
    ofRatio negative num den = ofRatio negative num' den' := by
  have hlead : leadExponent num den = leadExponent num' den' := by
    refine (isLead_leadExponent hnum hden).unique ?_
    rw [h]
    exact isLead_leadExponent hnum' hden'
  have hrounds := rounds_divide .halfEven (num * twoTo (-leadExponent num den).toNat)
    (Nat.mul_pos hden (twoTo_pos (leadExponent num den).toNat))
  have hrounds' := rounds_divide .halfEven (num' * twoTo (-leadExponent num den).toNat)
    (Nat.mul_pos hden' (twoTo_pos (leadExponent num den).toNat))
  rw [scaled_div, h, ← scaled_div] at hrounds
  unfold ofRatio
  rw [if_neg hnum.ne', if_neg hnum'.ne', ← hlead]
  dsimp only
  rw [hrounds.unique hrounds']

theorem ofRat_eq_ofRatio (negative : Bool) {num den : ℕ} (hnum : 0 < num) (hden : 0 < den) :
    ofRat (Decimal.withSign negative (num / den)) = ofRatio negative num den := by
  have hq : (0 : ℚ) < (num : ℚ) / den :=
    div_pos (by exact_mod_cast hnum) (by exact_mod_cast hden)
  have hsign := decide_withSign_neg negative hq
  have habs : |Decimal.withSign negative ((num : ℚ) / den)| = num / den := by
    rw [Decimal.abs_withSign, abs_of_pos hq]
  generalize Decimal.withSign negative ((num : ℚ) / den) = q at hsign habs ⊢
  have hnum' : 0 < q.num.natAbs := by
    rw [Int.natAbs_pos, ne_eq, Rat.num_eq_zero, ← abs_eq_zero, habs]
    exact hq.ne'
  rw [ofRat, hsign]
  exact ofRatio_congr negative hnum' q.den_pos hnum hden ((natAbs_num_div_den q).trans habs)

/-! ### How far the nearest number is -/

section
variable (h : x.IsNearest q)
include h

/-- Rounding does not pass over a number of the format. -/
theorem IsNearest.le_toRat {y : Binary64} (hy : y.toRat ≤ q) : y.toRat ≤ x.toRat := by
  by_contra hlt
  have hle := h.le y
  rw [abs_of_nonpos (by linarith), abs_of_nonpos (by linarith)] at hle
  linarith

theorem IsNearest.toRat_le {y : Binary64} (hy : q ≤ y.toRat) : x.toRat ≤ y.toRat := by
  by_contra hlt
  have hle := h.le y
  rw [abs_of_nonneg (by linarith), abs_of_nonneg (by linarith)] at hle
  linarith

/-- A number of the format is its own rounding. -/
theorem IsNearest.toRat_eq_of_eq {y : Binary64} (hy : y.toRat = q) : x.toRat = q :=
  le_antisymm (hy ▸ h.toRat_le hy.ge) (hy ▸ h.le_toRat hy.le)

end

/-- **Rounding changes a number** by at most its part in `2 ^ 53`, or half the least number. -/
theorem exists_abs_sub_le (hq : 0 < q) (hover : q < overflow) :
    ∃ y : Binary64, |y.toRat - q| ≤ max (q / 2 ^ 53) ((2 : ℚ) ^ (-1075 : ℤ)) := by
  have hratio := natAbs_num_div_den q
  rw [abs_of_pos hq] at hratio
  have hnum : 0 < q.num.natAbs := Int.natAbs_pos.2 (Rat.num_ne_zero.2 hq.ne')
  obtain ⟨e, m, hlead, hrounds, ⟨y, -, hsign, hsize, -⟩ | ⟨-, hinfinite⟩⟩ :=
    ofRatio_cases hnum q.den_pos false
  · rw [hratio] at hlead hrounds
    have hpos := two_zpow_pos e
    have hy : y.toRat = m * (2 : ℚ) ^ e := by
      rw [toRat_eq, hsign]
      exact hsize
    have hhalf : |y.toRat - q| ≤ 1 / 2 * (2 : ℚ) ^ e := by
      rw [hy, abs_mul_sub]
      exact mul_le_mul_of_nonneg_right hrounds.1 hpos.le
    refine ⟨y, hhalf.trans ?_⟩
    rcases hlead.le with rfl | hle
    · have hleast : (-1074 : ℤ) = -1075 + 1 := by norm_num
      rw [le_max_iff, hleast, two_zpow_succ, ← mul_assoc]
      exact .inr (by norm_num)
    · rw [le_max_iff]
      exact .inl (by linarith)
  · rw [hratio] at hinfinite
    exact absurd hinfinite (not_le.2 hover)

end Bourse.Binary64
