import Bourse.Proofs.Decimal.Normal
import Bourse.Proofs.Decimal.Numeral
import Bourse.Proofs.Text.Digits

/-! # The form of a written number

A numeral is canonical if a zero in front of the point stands alone and zero has no sign. The
numeral of a decimal has the first property because the digits of a number are no more than it
needs (`head?_digits_ne_zero`), and in normal form also the second (`canonical_normalize`), and no
zero at its end (`getLast?_fraction_normalize`). Padding keeps the first two. -/

namespace Bourse

/-- **Digits have no leading zero**, but for the digit of zero. -/
theorem Text.head?_digits_ne_zero {n : ℕ} (h : n ≠ 0) : (digits n).head? ≠ some '0' := by
  intro hhead
  obtain ⟨ds, hds⟩ := List.head?_eq_some_iff.1 hhead
  have hvalue : Nat.ofDigitChars 10 ds 0 = n := by
    have hread : Nat.ofDigitChars 10 (digits n) 0 = n := Nat.ofDigitChars_ten_toDigits
    rwa [hds, Nat.ofDigitChars_cons] at hread
  by_cases hnil : ds = []
  · rw [hnil] at hvalue
    exact h hvalue.symm
  · -- without the zero there would be enough digits
    have hpos := List.length_pos_iff.2 hnil
    have hdigits : ∀ c ∈ ds, c.isDigit = true := fun c hc =>
      isDigit_of_mem_digits (n := n) (hds ▸ List.mem_cons_of_mem _ hc)
    have hlt : n < 10 ^ ds.length := by
      have := ofDigitChars_lt hdigits 0
      rwa [hvalue, Nat.zero_add, Nat.mul_one] at this
    have hlen : (digits n).length ≤ ds.length :=
      (Nat.length_toDigits_le_iff (by decide) hpos).2 hlt
    rw [hds, List.length_cons] at hlen
    omega

/-- A numeral with no more zeros and signs in front than it needs. -/
structure Numeral.Canonical (n : Numeral) : Prop where
  /-- A leading zero is the only digit before the point. -/
  whole : n.whole = ['0'] ∨ n.whole.head? ≠ some '0'
  sign : n.value = 0 → n.negative = false

theorem Numeral.Canonical.withZeros {n : Numeral} (h : n.Canonical) (count : ℕ) :
    (n.withZeros count).Canonical :=
  ⟨h.whole, fun hzero => h.sign (n.value_withZeros count ▸ hzero)⟩

namespace Decimal

variable (d : Decimal)

theorem whole_numeral : d.numeral.whole = ['0'] ∨ d.numeral.whole.head? ≠ some '0' := by
  show List.take _ _ = _ ∨ (List.take _ _).head? ≠ _
  rw [Text.paddedDigits]
  by_cases hlong : d.scale < (Text.digits d.coefficient).length
  · -- the digits reach beyond the point
    rw [Nat.sub_eq_zero_of_le hlong, List.replicate_zero, List.nil_append]
    by_cases hzero : d.coefficient = 0
    · have hdigit : Text.digits d.coefficient = ['0'] := by rw [hzero]; rfl
      rw [hdigit] at hlong ⊢
      rw [Nat.lt_one_iff.1 hlong]
      exact .inl rfl
    · rw [List.head?_take, if_neg (by omega)]
      exact .inr (Text.head?_digits_ne_zero hzero)
  · -- there are zeros in front of them, of which one is kept
    obtain ⟨k, hk⟩ := Nat.exists_eq_add_of_le (not_lt.1 hlong)
    have hzeros : d.scale + 1 - (Text.digits d.coefficient).length = k + 1 := by omega
    rw [hzeros, List.replicate_succ, List.cons_append, List.length_cons, List.length_append,
      List.length_replicate, show k + (Text.digits d.coefficient).length + 1 - d.scale = 1 by omega]
    exact .inl rfl

/-- **The numeral of a normal form is canonical.** -/
theorem canonical_normalize : d.normalize.numeral.Canonical where
  whole := d.normalize.whole_numeral
  sign h := by
    rw [value_numeral, toRat_normalize] at h
    show d.normalize.negative = false
    rw [negative_normalize, h]
    rfl

/-- **No zeros stand at the end of a normal form.** -/
theorem getLast?_fraction_normalize : d.normalize.numeral.fraction.getLast? ≠ some '0' := by
  intro hlast
  obtain ⟨ds, hds⟩ := List.getLast?_eq_some_iff.1 hlast
  have hlen := d.normalize.length_fraction_numeral
  have hvalue := d.normalize.whole_append_fraction_numeral
  rw [hds] at hlen hvalue
  rcases isStripped_stripZeros d.scale d.coefficient with hscale | hcoeff
  · have hscale' : d.normalize.scale = 0 := hscale
    rw [hscale', List.length_append] at hlen
    cases hlen
  · -- a zero at the end would be a factor of ten
    have hten : d.normalize.coefficient
        = 10 * Nat.ofDigitChars 10 (d.normalize.numeral.whole ++ ds) 0 := by
      rw [← Text.ofDigitChars_paddedDigits (d.normalize.scale + 1) d.normalize.coefficient,
        ← hvalue, ← List.append_assoc, Nat.ofDigitChars_append]
      rfl
    have hmod : d.normalize.coefficient % 10 ≠ 0 := hcoeff
    rw [hten, Nat.mul_mod_right] at hmod
    exact hmod rfl

end Decimal

end Bourse
