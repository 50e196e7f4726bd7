import Bourse.Proofs.Decimal.Normal
import Bourse.Proofs.Precision.Ticks
import Bourse.Proofs.Result

/-! # Fraction digits and ticks

A precision of `u` fraction digits can also be stated as the tick `1 / 10 ^ u`, in any form of this
number. Writing to the tick divides, rounds and multiplies back, writing to the places drops digits
in place. For such a tick neither the quotient nor the product is rounded, so that both come to the
same number (`toRat_toTicks`); the only difference is that the quotient may have no room
(`hasRoom_mul_tenTo_iff`). `toPrecision_tick_eq_places` puts this together. -/

namespace Bourse.Decimal

open Rounding

section
variable {tick : Decimal} {u : ℕ} (htick : tick.toRat = 1 / tenTo u)
include htick

/-! ### The tick -/

theorem toRat_tick_pos : 0 < tick.toRat := by
  rw [htick]
  exact one_div_pos.2 (tenTo_rat_pos u)

theorem size_tick : tick.size = 1 / tenTo u := by
  rw [← abs_toRat, abs_of_pos (toRat_tick_pos htick), htick]

/-- A form of the tick has at least its places. -/
theorem le_scale_tick : u ≤ tick.scale := by
  by_contra hlt
  rw [not_le] at hlt
  have hcoeff : tick.coefficient * tenTo u = tenTo tick.scale := by
    have := tick.size_mul_tenTo
    rw [size_tick htick, one_div_mul_eq_div, div_eq_iff (tenTo_rat_ne_zero u)] at this
    exact_mod_cast this.symm
  have hpos : 0 < tick.coefficient := by
    refine Nat.pos_of_ne_zero fun h0 => ?_
    have := tenTo_pos tick.scale
    rw [h0] at hcoeff
    omega
  have hle : tenTo u ≤ tenTo tick.scale := hcoeff ▸ Nat.le_mul_of_pos_left _ hpos
  have hstrict : tenTo tick.scale < tenTo u := Nat.pow_lt_pow_right (by decide) hlt
  omega

/-- The normal form of the tick shows just its places. -/
theorem scale_normalize_of_tick : tick.normalize.scale = u := by
  have hu : u ≤ maxScale := (le_scale_tick htick).trans tick.scale_le
  rw [normalize_eq_of_toRat_eq (htick.trans (toRat_tick hu).symm), scale_normalize_tick hu]

theorem size_div_tick (value : Decimal) : value.size / tick.size = value.size * tenTo u := by
  rw [size_tick htick, div_div_eq_mul_div, div_one]

end

/-! ### The count of ticks -/

/-- Some place shows the count of ticks exactly, if it is not too large. -/
theorem exists_exact_place (value : Decimal) (u : ℕ)
    (hroom : value.size * tenTo u ≤ twoTo 96 - 1) :
    ∃ s n, s ≤ 28 ∧ n < twoTo 96 ∧ value.size * tenTo u * tenTo s = n := by
  rcases Nat.le_total value.scale u with hle | hle
  · have hwhole := value.size_mul_tenTo_of_le hle
    refine ⟨0, value.coefficient * tenTo (u - value.scale), Nat.zero_le _, ?_, ?_⟩
    · rw [hwhole, le_sub_iff_add_le] at hroom
      exact_mod_cast hroom
    · rw [tenTo_zero, Nat.cast_one, mul_one]
      exact hwhole
  · refine ⟨value.scale - u, value.coefficient, ?_, value.coefficient_lt, ?_⟩
    · have := value.scale_le
      omega
    · rw [mul_assoc, mul_comm (tenTo u : ℚ), tenTo_rat_sub_mul hle, size_mul_tenTo]

/-- **The count of ticks has room** if it is at most the largest coefficient. -/
theorem hasRoom_mul_tenTo_iff (value : Decimal) (u : ℕ) :
    HasRoom (value.size * tenTo u) ↔ value.size * tenTo u ≤ twoTo 96 - 1 := by
  constructor
  · intro hroom
    rcases Nat.le_total value.scale u with hle | hle
    · rw [value.size_mul_tenTo_of_le hle] at hroom ⊢
      rw [le_sub_iff_add_le]
      exact_mod_cast hasRoom_natCast_iff.1 hroom
    · exact value.size_mul_tenTo_le hle
  · exact hasRoom_of_le_max (mul_nonneg value.size_nonneg (Nat.cast_nonneg _))

section
variable {tick : Decimal} {u : ℕ} (htick : tick.toRat = 1 / tenTo u) (mode : RoundingMode)
  (value : Decimal)
include htick

/-- **The two ways come to one number.** -/
theorem toRat_toTicks {ticks result : Decimal} (hdiv : value.div? tick = some ticks)
    (hmul : (ticks.roundPlaces mode.rule 0).mul? tick = some result) :
    result.toRat = (value.toPlaces mode u).toRat := by
  have hu : u ≤ maxScale := (le_scale_tick htick).trans tick.scale_le
  have hcoeff : tick.coefficient ≠ 0 := ((toRat_pos_iff tick).1 (toRat_tick_pos htick)).2
  have hroom : value.size * tenTo u ≤ twoTo 96 - 1 := by
    rw [← hasRoom_mul_tenTo_iff, ← size_div_tick htick, ← exists_div?_iff hcoeff]
    exact ⟨ticks, hdiv⟩
  obtain ⟨s, c, w, hlast, hw, hsign, hresult⟩ := toTicks_steps (toRat_tick_pos htick) hdiv hmul
  -- the quotient is not rounded, so that the count is that of the places
  rw [size_div_tick htick] at hlast
  obtain ⟨s', n, hs', hn, hexact⟩ := exists_exact_place value u hroom
  rw [← hlast.exact hs' hn hexact, mul_div_cancel_right₀ _ (tenTo_rat_ne_zero s)] at hw
  obtain ⟨count, hcount, hplaces⟩ := exists_size_roundPlaces mode.rule u value
  obtain rfl := hw.unique hcount
  -- and neither is the product, which is a decimal
  have hsize : (value.roundPlaces mode.rule u).size = w * tick.size := by
    rw [size_tick htick, mul_one_div, eq_div_iff (tenTo_rat_ne_zero u), hplaces]
  have hsame : result.size = (value.roundPlaces mode.rule u).size := by
    rw [hsize]
    rcases hresult with ⟨hw0, hr0⟩ | hprod
    · rw [hr0, hw0, Nat.cast_zero, zero_mul]
    · exact product_eq_of_size hprod hsize
  unfold toPlaces
  rw [min_eq_left hu, hsign, hsame, toRat_eq, negative_roundPlaces]

/-- A number is written to the tick if the count of ticks has room. -/
theorem exists_toTicks_iff :
    (∃ ticks result, value.div? tick = some ticks ∧
      (ticks.roundPlaces mode.rule 0).mul? tick = some result) ↔
      |value.toRat| * tenTo u ≤ twoTo 96 - 1 := by
  have hcoeff : tick.coefficient ≠ 0 := ((toRat_pos_iff tick).1 (toRat_tick_pos htick)).2
  rw [abs_toRat, ← hasRoom_mul_tenTo_iff, ← size_div_tick htick, ← exists_div?_iff hcoeff]
  refine exists_congr fun ticks => ⟨fun ⟨_, hdiv, _⟩ => hdiv, fun hdiv => ?_⟩
  -- a tick is at most one, so the product has room where the count has
  have hwhole := (rounds_roundPlaces mode.rule (Nat.zero_le ticks.scale)).2
  generalize ticks.roundPlaces mode.rule 0 = whole at hwhole ⊢
  have hsize : whole.size = whole.coefficient := size_eq_coefficient hwhole
  have hone : tick.size ≤ 1 := by
    rw [size_tick htick, div_le_one (tenTo_rat_pos u)]
    exact_mod_cast tenTo_pos u
  obtain ⟨result, hresult⟩ := (exists_mul?_iff (a := whole) (b := tick)).2
    (hasRoom_of_le (mul_nonneg whole.size_nonneg tick.size_nonneg) whole.coefficient_lt
      (hsize ▸ mul_le_of_le_one_right whole.size_nonneg hone))
  exact ⟨result, hdiv, hresult⟩

end

/-! ### Writing -/

/-- A count of digits may be written in any form without a sign. -/
theorem digitCount_eq_ok {places : Decimal} {u : ℕ} (hplaces : places.toRat = u)
    (hsign : places.negative = false) (hu : u < twoTo 32) : digitCount places = .ok u := by
  have hsize : places.size = u := by
    rw [← hplaces, toRat_eq, hsign]
    rfl
  have hcoeff : places.coefficient = u * tenTo places.scale := by
    have := places.size_mul_tenTo
    rw [hsize] at this
    exact_mod_cast this.symm
  have hwhole : places.isWhole = true := by
    rw [isWhole, hcoeff, Nat.mul_mod_left]
    rfl
  have hpart : places.wholePart = u := by
    rw [wholePart, hcoeff, Nat.mul_div_cancel _ (tenTo_pos _)]
  unfold digitCount
  rw [hwhole, hpart, hsign]
  simp [hu]

/-- What counts digits is the number of them. -/
theorem toRat_of_digitCount {places : Decimal} {u : ℕ} (h : digitCount places = .ok u) :
    places.toRat = u := by
  unfold digitCount at h
  split_ifs at h with hwhole hrange
  cases h
  rw [Bool.not_eq_true', Bool.not_eq_false, isWhole, beq_iff_eq] at hwhole
  rw [Bool.or_eq_true, not_or, Bool.not_eq_true] at hrange
  have hcoeff : places.wholePart * tenTo places.scale = places.coefficient :=
    Nat.div_mul_cancel (Nat.dvd_of_mod_eq_zero hwhole)
  rw [toRat_eq, hrange.1]
  show places.size = _
  rw [size, div_eq_iff (tenTo_rat_ne_zero _)]
  exact_mod_cast hcoeff.symm

/-- Only a precision with a sign is ignored. -/
theorem filter_of_not_negative {p : Decimal} (h : p.negative = false) :
    (some p).filter (fun p => !p.negative) = some p := by
  rw [Option.filter_some, h]
  rfl

theorem toPrecision_decimalPlaces {places : Decimal} {u : ℕ} (hplaces : places.toRat = u)
    (hsign : places.negative = false) (hu : u < twoTo 32) (value : Decimal) (mode : RoundingMode)
    (padding : Padding) :
    value.toPrecision mode (some places) .decimalPlaces padding =
      .ok ((value.toPlaces mode u).padded padding u) := by
  unfold toPrecision
  rw [filter_of_not_negative hsign]
  show (digitCount places >>= _) = _
  rw [digitCount_eq_ok hplaces hsign hu]
  rfl

theorem toTicks_eq_ok_iff {mode : RoundingMode} {tick value result : Decimal} :
    toTicks mode tick value = .ok result ↔ ∃ ticks, value.div? tick = some ticks ∧
      (ticks.roundPlaces mode.rule 0).mul? tick = some result := by
  unfold toTicks
  by_cases hz : tick.isZero = true
  · have hnone : value.div? tick = none := if_pos hz
    rw [if_pos hz, hnone]
    constructor
    · intro h
      cases h
    · rintro ⟨ticks, h, -⟩
      cases h
  · rw [if_neg hz]
    show (Error.require (value.div? tick) _ >>= fun ticks => Error.require _ _) = _ ↔ _
    simp only [bind_eq_ok_iff, require_eq_ok_iff]

theorem toPrecision_tickSize_eq {tick : Decimal} (htick : 0 < tick.toRat) (value : Decimal)
    (mode : RoundingMode) (padding : Padding) :
    value.toPrecision mode (some tick) .tickSize padding =
      (toTicks mode tick value).map fun result => result.padded padding tick.normalize.scale := by
  unfold toPrecision
  rw [filter_of_not_negative ((toRat_pos_iff tick).1 htick).1]
  show (toTicks mode tick value >>= _) = _
  cases toTicks mode tick value <;> rfl

/-- **Fraction digits and the tick of their last place agree.** Writing to the tick succeeds exactly
if the number has at most the largest coefficient of ticks, and gives the text that the places
give. -/
theorem toPrecision_tick_eq_places {tick places : Decimal} {u : ℕ}
    (htick : tick.toRat = 1 / tenTo u) (hplaces : places.toRat = u)
    (hsign : places.negative = false) (value : Decimal) (mode : RoundingMode) (padding : Padding) :
    ((∃ text, value.toPrecision mode (some tick) .tickSize padding = .ok text) ↔
      |value.toRat| * tenTo u ≤ twoTo 96 - 1) ∧
    ∀ text, value.toPrecision mode (some tick) .tickSize padding = .ok text →
      value.toPrecision mode (some places) .decimalPlaces padding = .ok text := by
  have hu : u ≤ maxScale := (le_scale_tick htick).trans tick.scale_le
  have hu32 : u < twoTo 32 := lt_of_le_of_lt hu (by decide)
  rw [toPrecision_tickSize_eq (toRat_tick_pos htick), toPrecision_decimalPlaces hplaces hsign hu32,
    scale_normalize_of_tick htick, ← exists_toTicks_iff htick mode value]
  simp only [map_eq_ok_iff, toTicks_eq_ok_iff]
  constructor
  · constructor
    · rintro ⟨text, result, ⟨ticks, hsteps⟩, -⟩
      exact ⟨ticks, result, hsteps⟩
    · rintro ⟨ticks, result, hsteps⟩
      exact ⟨_, result, ⟨ticks, hsteps⟩, rfl⟩
  · rintro text ⟨result, ⟨ticks, hdiv, hmul⟩, rfl⟩
    rw [padded_eq_of_toRat_eq (toRat_toTicks htick mode value hdiv hmul)]

/-- Just below one, with a tick that is written too long: the carry and the padding come out
alike. -/
theorem toPrecision_tick_eq_places_carry : ∃ value tick places : Decimal,
    ofPlain? "0.996" = some value ∧ ofPlain? "0.010" = some tick ∧ ofPlain? "2" = some places ∧
      tick.toRat = 1 / tenTo 2 ∧ places.toRat = (2 : ℕ) ∧ places.negative = false ∧
      |value.toRat| * tenTo 2 ≤ twoTo 96 - 1 ∧
      value.toPrecision .round (some tick) .tickSize .zeros = .ok "1.00" ∧
      value.toPrecision .round (some places) .decimalPlaces .zeros = .ok "1.00" := by
  refine ⟨⟨false, 996, 3, by decide, by decide⟩, ⟨false, 10, 3, by decide, by decide⟩,
    ⟨false, 2, 0, by decide, by decide⟩, rfl, rfl, rfl, ?_⟩
  generalize hvalue : (⟨false, 996, 3, _, _⟩ : Decimal) = value
  generalize htick : (⟨false, 10, 3, _, _⟩ : Decimal) = tick
  generalize hplaces : (⟨false, 2, 0, _, _⟩ : Decimal) = places
  have ht : tick.toRat = 1 / tenTo 2 := by
    rw [← htick]
    norm_num [toRat, mantissa, signed, tenTo]
  have hp : places.toRat = (2 : ℕ) := by
    rw [← hplaces]
    norm_num [toRat, mantissa, signed, tenTo]
  have hs : places.negative = false := by rw [← hplaces]
  have htext : value.toPrecision .round (some tick) .tickSize .zeros = .ok "1.00" := by
    rw [← hvalue, ← htick]
    rfl
  obtain ⟨hok, hsame⟩ := toPrecision_tick_eq_places ht hp hs value .round .zeros
  exact ⟨ht, hp, hs, hok.1 ⟨_, htext⟩, htext, hsame _ htext⟩

end Bourse.Decimal
