import Bourse.Proofs.Decimal.LastPlace

/-! # Checked arithmetic

An operation on decimals has a rational number as its exact result, and an answer that may be
missing. `Answers x answer` says how the two belong together: the answer is missing exactly if the
number is out of range, it is the number if that is a decimal, and else it is close to it.

* `answers_of_lastPlace`: rounding to the last place gives such an answer;
* `answers_add?`, `answers_sub?`, `answers_mul?`, `answers_div?`: so do the four operations;
* `Derived`: a value that is computed where the numbers for it are known. -/

namespace Bourse.Decimal

open Rounding

variable {a b d : Decimal} {x y : ℚ} {answer : Option Decimal}

/-- **The answer to an exact result.** The bound on the error is half a unit of the 28th place or,
where fewer places have room, half a unit of the last of 96 bits. -/
structure Answers (x : ℚ) (answer : Option Decimal) : Prop where
  exists_iff : (∃ d, answer = some d) ↔ |x| < twoTo 96 - 1 / 2
  exact : ∀ d : Decimal, d.toRat = x → ∃ r, answer = some r ∧ r.toRat = x
  close : ∀ r, answer = some r →
    |r.toRat - x| ≤ 1 / 2 / tenTo 28 ∨ (twoTo 96 - 1 / 2) * |r.toRat - x| ≤ 5 * |x|

/-! ### Rounding to the last place -/

/-- Half a unit above the largest coefficient the range ends. -/
theorem hasRoom_iff (h0 : 0 ≤ x) : HasRoom x ↔ x < twoTo 96 - 1 / 2 := by
  constructor
  · rintro ⟨n, hn, hhalf, heven⟩
    have hle : (n : ℚ) + 1 ≤ twoTo 96 := by exact_mod_cast hn
    have hx := (abs_le.1 hhalf).2
    by_contra hge
    rw [not_lt] at hge
    -- the half above the largest coefficient goes to its even neighbour
    have hmax : n = twoTo 96 - 1 := by
      have : (twoTo 96 : ℚ) ≤ n + 1 := by linarith
      have : twoTo 96 ≤ n + 1 := by exact_mod_cast this
      omega
    have hexact : |x - n| = 1 / 2 := le_antisymm hhalf (le_trans (by linarith) (le_abs_self _))
    have hodd : ¬ Even (twoTo 96 - 1) := by decide +kernel
    exact hodd (hmax ▸ heven hexact)
  · intro hlt
    obtain ⟨n, hn⟩ := exists_rounds .halfEven h0
    have hx := (abs_le.1 hn.1).1
    have hfits : (n : ℚ) < twoTo 96 := by linarith
    exact ⟨n, by exact_mod_cast hfits, hn⟩

section
variable {cap s c : ℕ} (h : LastPlace (min cap 28) y s c)
  (hcap : 28 ≤ cap ∨ ∃ n : ℕ, y * tenTo cap = n)
include h hcap

/-- A number that a decimal shows is not rounded. -/
theorem LastPlace.exact_of_decimal (hd : d.size = y) : (c : ℚ) / tenTo s = y := by
  rcases hcap with hcap | ⟨n, hn⟩
  · rw [Nat.min_eq_right hcap] at h
    have hy : y * tenTo d.scale = d.coefficient := by rw [← hd, size_mul_tenTo]
    rw [div_eq_iff (tenTo_rat_ne_zero s)]
    exact (h.exact d.scale_le d.coefficient_lt hy).symm
  · exact h.exact_of_size hn hd

/-- **The error of the last place.** -/
theorem LastPlace.close (h0 : 0 ≤ y) : |(c : ℚ) / tenTo s - y| ≤ 1 / 2 / tenTo 28 ∨
    (twoTo 96 - 1 / 2) * |(c : ℚ) / tenTo s - y| ≤ 5 * y := by
  have hpos := tenTo_rat_pos s
  have herror : |(c : ℚ) / tenTo s - y| ≤ 1 / 2 / tenTo s := by
    have hscaled : (c : ℚ) / tenTo s - y = (c - y * tenTo s) / tenTo s := by
      rw [sub_div, mul_div_cancel_right₀ _ hpos.ne']
    rw [hscaled, abs_div, abs_of_pos hpos, abs_sub_comm]
    exact div_le_div_of_nonneg_right h.abs_sub_le hpos.le
  have hlast : s = 28 → |(c : ℚ) / tenTo s - y| ≤ 1 / 2 / tenTo 28 := by
    rintro rfl
    exact herror
  rcases Nat.lt_or_ge s (min cap 28) with hlt | hge
  · -- one place further on there was no room, so that the number is large for this unit
    have hnext := h.le_next h0 hlt
    rw [tenTo_succ] at hnext
    push_cast at hnext
    right
    calc (twoTo 96 - 1 / 2) * |(c : ℚ) / tenTo s - y|
        ≤ y * (tenTo s * 10) * (1 / 2 / tenTo s) := by
          exact mul_le_mul hnext herror (abs_nonneg _)
            (mul_nonneg h0 (mul_nonneg hpos.le (by norm_num)))
      _ = 5 * y := by
          rw [mul_comm (tenTo s : ℚ) 10, ← mul_assoc, mul_assoc (y * 10),
            mul_div_cancel₀ _ hpos.ne']
          ring
  · have hs : s = min cap 28 := Nat.le_antisymm h.le hge
    left
    rcases hcap with hcap | ⟨n, hn⟩
    · exact hlast (hs.trans (Nat.min_eq_right hcap))
    · rcases Nat.le_total cap 28 with hle | hle
      · -- the last place shows the whole number
        rw [Nat.min_eq_left hle] at hs
        have hc : n = c := (rounds_natCast .halfEven n).unique (hn ▸ hs ▸ h.rounds)
        rw [← hc, ← hn, hs, mul_div_cancel_right₀ _ (tenTo_rat_ne_zero cap), sub_self, abs_zero]
        exact div_nonneg (by norm_num) (tenTo_rat_pos 28).le
      · exact hlast (hs.trans (Nat.min_eq_right hle))

end

theorem withSign_sub (negative : Bool) (x y : ℚ) :
    withSign negative x - withSign negative y = withSign negative (x - y) := by
  cases negative
  · rfl
  · show -x - -y = -(x - y)
    ring

/-- **Rounding to the last place** answers. -/
theorem answers_of_lastPlace {negative : Bool} {cap : ℕ} (hx : x = withSign negative y)
    (h0 : 0 ≤ y) (hcap : 28 ≤ cap ∨ ∃ n : ℕ, y * tenTo cap = n)
    (hroom : (∃ d, answer = some d) ↔ HasRoom y)
    (hlast : ∀ r, answer = some r →
      ∃ s c, LastPlace (min cap 28) y s c ∧ r.toRat = withSign negative (c / tenTo s)) :
    Answers x answer := by
  have habs : |x| = y := by rw [hx, abs_withSign, abs_of_nonneg h0]
  constructor
  · rw [hroom, habs, hasRoom_iff h0]
  · intro d hd
    have hsize : d.size = y := by rw [← abs_toRat, hd, habs]
    obtain ⟨r, hr⟩ := hroom.2 (hsize ▸ d.hasRoom_size)
    obtain ⟨s, c, hplace, hvalue⟩ := hlast r hr
    refine ⟨r, hr, ?_⟩
    rw [hvalue, hplace.exact_of_decimal hcap hsize, hx]
  · intro r hr
    obtain ⟨s, c, hplace, hvalue⟩ := hlast r hr
    have hdistance : |r.toRat - x| = |(c : ℚ) / tenTo s - y| := by
      rw [hvalue, hx, withSign_sub, abs_withSign]
    rw [hdistance, habs]
    exact hplace.close hcap h0

/-- A decimal answers for itself. -/
theorem answers_of_toRat_eq (h : d.toRat = x) : Answers x (some d) := by
  have hsize : |x| = d.size := by rw [← h, abs_toRat]
  constructor
  · rw [hsize, ← hasRoom_iff d.size_nonneg]
    exact iff_of_true ⟨d, rfl⟩ d.hasRoom_size
  · exact fun _ _ => ⟨d, rfl, h⟩
  · rintro _ ⟨⟩
    left
    rw [h, sub_self, abs_zero]
    exact div_nonneg (by norm_num) (tenTo_rat_pos 28).le

/-- A whole number over a power of ten. -/
theorem answers_fit? (i : ℤ) (scale : ℕ) : Answers (i / tenTo scale) (fit? i scale) := by
  have hwhole : ((i.natAbs : ℕ) : ℚ) / tenTo scale * tenTo scale = i.natAbs :=
    div_mul_cancel₀ _ (tenTo_rat_ne_zero scale)
  have hsign : (i : ℚ) / tenTo scale = withSign (decide (i < 0)) (i.natAbs / tenTo scale) := by
    rw [Nat.cast_natAbs, Int.cast_abs]
    by_cases hneg : i < 0
    · have : (i : ℚ) < 0 := by exact_mod_cast hneg
      rw [decide_eq_true hneg, abs_of_neg this]
      simp [withSign, neg_div]
    · have : (0 : ℚ) ≤ i := by exact_mod_cast not_lt.1 hneg
      rw [decide_eq_false hneg, abs_of_nonneg this]
      rfl
  refine answers_of_lastPlace hsign (div_nonneg (Nat.cast_nonneg _) (Nat.cast_nonneg _))
    (.inr ⟨_, hwhole⟩) exists_fit?_iff fun r hr => ?_
  obtain ⟨hlast, hvalue⟩ := lastPlace_of_fit? hr
  exact ⟨r.scale, r.coefficient, hlast, hvalue⟩

/-! ### The operations -/

theorem toRat_eq_zero_iff : d.toRat = 0 ↔ d.isZero = true := by
  rw [← abs_eq_zero, abs_toRat, size_eq_zero_iff, isZero_iff]

theorem toRat_neg (d : Decimal) : d.neg.toRat = -d.toRat := by
  by_cases h : d.isZero = true
  · have hsame : d.neg = d := by simp [neg, h]
    rw [hsame, toRat_eq_zero_iff.2 h, neg_zero]
  · have hsize : d.neg.size = d.size := rfl
    have hsign : d.neg.negative = !d.negative := by simp [neg, h]
    rw [toRat_eq, toRat_eq, hsign, hsize]
    cases d.negative <;> simp [withSign]

/-- A decimal as a whole number over a finer scale. -/
theorem mantissa_mul_div_eq (d : Decimal) {places : ℕ} (h : d.scale ≤ places) :
    ((d.mantissa * tenTo (places - d.scale) : ℤ) : ℚ) / tenTo places = d.toRat := by
  rw [toRat, div_eq_div_iff (tenTo_rat_ne_zero _) (tenTo_rat_ne_zero _), ← tenTo_rat_sub_mul h]
  push_cast
  ring

/-- **Sums.** -/
theorem answers_add? (a b : Decimal) : Answers (a.toRat + b.toRat) (a.add? b) := by
  unfold add?
  split_ifs with ha hb
  · rw [toRat_eq_zero_iff.2 ha, zero_add]
    exact answers_of_toRat_eq rfl
  · rw [toRat_eq_zero_iff.2 hb, add_zero]
    exact answers_of_toRat_eq rfl
  · rw [← mantissa_mul_div_eq a (Nat.le_max_left a.scale b.scale),
      ← mantissa_mul_div_eq b (Nat.le_max_right a.scale b.scale), ← add_div, ← Int.cast_add]
    exact answers_fit? _ _

/-- **Differences.** -/
theorem answers_sub? (a b : Decimal) : Answers (a.toRat - b.toRat) (a.sub? b) := by
  rw [sub_eq_add_neg, ← toRat_neg]
  exact answers_add? a b.neg

/-- **Products.** -/
theorem answers_mul? (a b : Decimal) : Answers (a.toRat * b.toRat) (a.mul? b) := by
  unfold mul?
  split_ifs with hzero
  · have hproduct : a.toRat * b.toRat = 0 := by
      rw [mul_eq_zero, toRat_eq_zero_iff, toRat_eq_zero_iff]
      simpa using hzero
    rw [hproduct]
    exact answers_of_toRat_eq (toRat_eq_zero_iff.2 rfl)
  · rw [toRat, toRat, div_mul_div_comm, ← Int.cast_mul, ← Nat.cast_mul, ← tenTo_add]
    exact answers_fit? _ _

/-- **Quotients.** -/
theorem answers_div? (hb : b.toRat ≠ 0) : Answers (a.toRat / b.toRat) (a.div? b) := by
  have hb0 : b.coefficient ≠ 0 := by
    rwa [ne_eq, toRat_eq_zero_iff, isZero_iff] at hb
  refine answers_of_lastPlace (toRat_div a b) (div_nonneg a.size_nonneg b.size_nonneg)
    (.inl (le_refl 28)) (exists_div?_iff hb0) fun r hr => ?_
  obtain ⟨s, c, hlast, hsize, hvalue⟩ := lastPlace_of_div? hr
  exact ⟨s, c, hlast, hsize ▸ hvalue⟩

/-! ### Derived values -/

/-- A value that answers for a number where there is one, and is unknown otherwise. -/
structure Derived (number : ℚ → Prop) (value : Option Decimal) : Prop where
  answers : ∀ x, number x → Answers x value
  unknown : (∀ x, ¬ number x) → value = none

/-- **An operation on two values** that need not be known derives its result from both. -/
theorem derived_of_both {α β : Type} {exact : α → β → ℚ} {operation : α → β → Option Decimal}
    (h : ∀ a b, Answers (exact a b) (operation a b)) (first : Option α) (second : Option β) :
    Derived (fun x => ∃ a b, first = some a ∧ second = some b ∧ x = exact a b)
      (first.bind fun a => second.bind fun b => operation a b) := by
  cases first with
  | none => exact ⟨nofun, fun _ => rfl⟩
  | some a =>
    cases second with
    | none => exact ⟨nofun, fun _ => rfl⟩
    | some b =>
      refine ⟨?_, fun hnone => absurd ⟨a, b, rfl, rfl, rfl⟩ (hnone _)⟩
      rintro _ ⟨_, _, ⟨⟩, ⟨⟩, rfl⟩
      exact h a b

end Bourse.Decimal
