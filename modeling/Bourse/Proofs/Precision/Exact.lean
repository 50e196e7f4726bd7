import Bourse.Proofs.Precision.Conventions

/-! # Numbers that a tick does not change

A number that is a multiple of a tick is written to the tick as it is, however it is rounded: its
count of ticks is whole, so that the quotient is exact, and the product is the number again
(`toRat_toTicks_of_multiple`). A number without a precision is written as it is in any case, so that
a text to ticks spells another number only if the number is no multiple of its tick
(`numeralValue?_of_multiple`). -/

namespace Bourse.Decimal

open Rounding

/-- **A multiple of the tick is kept.** -/
theorem toRat_toTicks_of_multiple {mode : RoundingMode} {tick value result : Decimal}
    (htick : 0 < tick.toRat) (h : toTicks mode tick value = .ok result) {k : ℤ}
    (hk : value.toRat = k * tick.toRat) : result.toRat = value.toRat := by
  obtain ⟨ticks, hdiv, hmul⟩ := toTicks_eq_ok_iff.1 h
  obtain ⟨s, c, w, hlast, hw, hsign, hresult⟩ := toTicks_steps htick hdiv hmul
  have htsize : tick.toRat = tick.size := by rw [← abs_toRat, abs_of_pos htick]
  have hsize : value.size = k.natAbs * tick.size := by
    rw [← abs_toRat, hk, abs_mul, htsize, abs_of_nonneg tick.size_nonneg, Nat.cast_natAbs,
      Int.cast_abs]
  -- the quotient is whole, so that neither its last place nor the count changes it
  have hquotient : value.size / tick.size = k.natAbs := by
    rw [hsize, mul_div_cancel_right₀ _ (htsize ▸ htick).ne']
  have hcount : w = k.natAbs :=
    le_antisymm (count_le_of_le hlast hw hquotient.le) (le_count_of_le hlast hw hquotient.ge)
  have hsame : result.size = value.size := by
    rw [hsize]
    rcases hresult with ⟨hw0, hr0⟩ | hprod
    · rw [hr0, ← hcount, hw0, Nat.cast_zero, zero_mul]
    · rw [hcount] at hprod
      exact product_eq_of_size hprod hsize
  rw [hsign, hsame, ← toRat_eq]

/-- **What a text to ticks spells** is the number itself if that is a multiple of the tick, or if
there is no tick. -/
theorem numeralValue?_of_multiple {value : Decimal} {mode : RoundingMode} {tick : Option Decimal}
    {padding : Padding} {text : String}
    (h : value.toPrecision mode tick .tickSize padding = .ok text)
    (hmultiple : ∀ t, tick = some t → ∃ k : ℤ, value.toRat = k * t.toRat) :
    numeralValue? text = some value.toRat := by
  unfold toPrecision at h
  cases hfilter : tick.filter fun p => !p.negative with
  | none =>
    rw [hfilter] at h
    cases h
    exact numeralValue?_plain value
  | some t =>
    obtain ⟨rfl, hsign⟩ := Option.filter_eq_some_iff.1 hfilter
    rw [hfilter] at h
    obtain ⟨result, hresult, htext⟩ := bind_eq_ok_iff.1 h
    cases htext
    rw [numeralValue?_padded]
    obtain ⟨k, hk⟩ := hmultiple t rfl
    refine congrArg some (toRat_toTicks_of_multiple ((toRat_pos_iff t).2 ⟨?_, ?_⟩) hresult hk)
    · simpa using hsign
    · -- there is no quotient by zero
      intro h0
      obtain ⟨ticks, hdiv, -⟩ := toTicks_eq_ok_iff.1 hresult
      have hnone : value.div? t = none := if_pos (beq_iff_eq.2 h0)
      rw [hnone] at hdiv
      cases hdiv

end Bourse.Decimal
