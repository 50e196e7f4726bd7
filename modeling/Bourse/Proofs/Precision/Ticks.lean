import Bourse.Proofs.Decimal.LastPlace
import Bourse.Proofs.Decimal.Numeral

/-! # Numbers written to a tick

Writing a number to a tick rounds three times: the quotient to its last place, the quotient to a
whole count of ticks, and the product of count and tick to its last place. `OnTicks` says what the
result should be: a multiple of the tick, at or next to the number as the mode demands.

The first rounding can carry a quotient over the boundary between two counts, and the third one can
leave the multiples of the tick. `CountHolds` and the existence of a decimal for the wanted multiple
exclude the two, and nothing less does: by `product_ne_of_ne` the two errors never cancel out, so
that a result is on the ticks exactly if neither is made (`toPrecision_tickSize`). -/

namespace Bourse.Decimal

open Rounding

/-- What a number written to a tick should be. -/
structure OnTicks (mode : RoundingMode) (value tick r : ℚ) : Prop where
  multiple : ∃ k : ℤ, r = k * tick
  near : match mode with
    | .truncate =>
      (r = 0 ∨ (0 < r ∧ 0 < value) ∨ (r < 0 ∧ value < 0)) ∧ |r| ≤ |value| ∧ |value| - |r| < tick
    | .round => |r - value| ≤ tick / 2 ∧ (|r - value| = tick / 2 → |value| < |r|)

/-- The quotient `q` is `n` ticks, both as it is and as its last place shows it. -/
def CountHolds (mode : RoundingMode) (q : ℚ) (n : ℕ) : Prop :=
  Rounds mode.rule q n ∧ ∃ s c, LastPlace 28 q s c ∧ Rounds mode.rule (c / tenTo s) n

/-! ### The count of ticks -/

section
variable {rule : Rounding} {cap s c w n : ℕ} {q : ℚ} (hq : LastPlace cap q s c)
  (hw : Rounds rule (c / tenTo s) w)
include hq hw

/-- Rounding the quotient first carries the count over no whole number from below. -/
theorem count_le_of_le (h : q ≤ n) : w ≤ n := by
  have hpos := tenTo_rat_pos s
  have hc : c ≤ n * tenTo s := by
    refine hq.rounds.mono (rounds_natCast .halfEven _) ?_
    push_cast
    exact mul_le_mul_of_nonneg_right h hpos.le
  refine hw.mono (rounds_natCast rule n) ?_
  rw [div_le_iff₀ hpos]
  exact_mod_cast hc

/-- Rounding the quotient first carries the count over no whole number from above. -/
theorem le_count_of_le (h : (n : ℚ) ≤ q) : n ≤ w := by
  have hpos := tenTo_rat_pos s
  have hc : n * tenTo s ≤ c := by
    refine (rounds_natCast .halfEven _).mono hq.rounds ?_
    push_cast
    exact mul_le_mul_of_nonneg_right h hpos.le
  refine (rounds_natCast rule n).mono hw ?_
  rw [le_div_iff₀ hpos]
  exact_mod_cast hc

end

/-! ### The multiple of the tick -/

theorem twoTo_96 : twoTo 96 = 79228162514264337593543950336 := rfl

/-- A multiple of a tick that is a decimal is kept as the product. -/
theorem product_eq_of_size {tick d : Decimal} {n s c : ℕ}
    (h : LastPlace tick.scale (n * tick.size) s c) (hd : d.size = n * tick.size) :
    (c : ℚ) / tenTo s = n * tick.size := by
  have hwhole : (n : ℚ) * tick.size * tenTo tick.scale = (n * tick.coefficient : ℕ) := by
    rw [mul_assoc, size_mul_tenTo]
    push_cast
    rfl
  rw [← min_eq_left tick.scale_le] at h
  exact h.exact_of_size hwhole hd

/-- Different whole numbers are at least one apart. -/
theorem one_le_abs_natCast_sub {m n : ℕ} (h : m ≠ n) : (1 : ℚ) ≤ |(m : ℚ) - n| := by
  rcases Nat.lt_or_gt_of_ne h with hlt | hgt
  · have : (m : ℚ) + 1 ≤ n := by exact_mod_cast hlt
    rw [abs_of_nonpos (by linarith)]
    linarith
  · have : (n : ℚ) + 1 ≤ m := by exact_mod_cast hgt
    rw [abs_of_nonneg (by linarith)]
    linarith

/-- A decimal between two neighbours at a place has one place more, and room for it. -/
theorem size_mul_tenTo_succ_le {d : Decimal} {s n : ℕ} (hne : d.size * tenTo s ≠ n)
    (hnear : |d.size * tenTo s - n| < 1) : d.size * tenTo (s + 1) ≤ twoTo 96 - 1 := by
  have hscale : s < d.scale := by
    by_contra hge
    have hwhole := d.size_mul_tenTo_of_le (Nat.le_of_not_lt hge)
    rw [hwhole] at hne hnear
    exact absurd (one_le_abs_natCast_sub fun h0 => hne (congrArg Nat.cast h0)) (not_le.2 hnear)
  exact d.size_mul_tenTo_le hscale

section
variable {value tick : Decimal} {rule : Rounding} {n w s c s' h : ℕ}
  (hT : 0 < tick.size) (hprod : LastPlace tick.scale (w * tick.size) s' h) (hne : w ≠ n)
  (heq : (h : ℚ) = n * tick.size * tenTo s')
include hT hprod hne heq

/-- If the product of a wrong count shows the wanted multiple, the tick is at most half of a unit
of its last place. -/
theorem tick_le_half_unit : tick.size * tenTo s' ≤ 1 / 2 := by
  have hpos := mul_pos hT (tenTo_rat_pos s')
  have hoff := hprod.abs_sub_le
  rw [heq, mul_assoc, mul_assoc, ← sub_mul, abs_mul, abs_of_pos hpos] at hoff
  have := mul_le_mul_of_nonneg_right (one_le_abs_natCast_sub hne) hpos.le
  linarith

theorem last_lt_tick_scale : s' < tick.scale := by
  refine lt_of_le_of_ne hprod.le fun h0 => ?_
  have hhalf := tick_le_half_unit hT hprod hne heq
  rw [h0, size_mul_tenTo] at hhalf
  have h1 : tick.coefficient ≠ 0 := fun h1 => hT.ne' ((size_eq_zero_iff tick).2 h1)
  have : (1 : ℚ) ≤ tick.coefficient := by exact_mod_cast Nat.one_le_iff_ne_zero.2 h1
  linarith

variable (hq : LastPlace 28 (value.size / tick.size) s c)
  (hn : Rounds rule (value.size / tick.size) n) (hw : Rounds rule (c / tenTo s) w)
include hq hn hw

/-- The number is then no multiple of that unit, and one place more is within its coefficient. -/
theorem value_mul_tenTo_succ_le : value.size * tenTo (s' + 1) ≤ twoTo 96 - 1 := by
  have hqn : value.size / tick.size ≠ n := fun h0 =>
    hne (Nat.le_antisymm (count_le_of_le hq hw h0.le) (le_count_of_le hq hw h0.ge))
  have hpos := mul_pos hT (tenTo_rat_pos s')
  have hdiff : value.size * tenTo s' - h
      = (value.size / tick.size - n) * (tick.size * tenTo s') := by
    rw [heq, sub_mul, ← mul_assoc, div_mul_cancel₀ _ hT.ne', mul_assoc]
  apply size_mul_tenTo_succ_le (n := h)
  · rw [← sub_ne_zero, hdiff]
    exact mul_ne_zero (sub_ne_zero.2 hqn) hpos.ne'
  · rw [hdiff, abs_mul, abs_of_pos hpos]
    have := mul_lt_mul_of_pos_right hn.abs_sub_lt hpos
    have := tick_le_half_unit hT hprod hne heq
    linarith

end

/-- **The two errors never cancel out**: the product of a wrong count is not the wanted multiple. -/
theorem product_ne_of_ne {value tick : Decimal} {rule : Rounding} {n w s c s' h : ℕ}
    (hT : 0 < tick.size) (hq : LastPlace 28 (value.size / tick.size) s c)
    (hn : Rounds rule (value.size / tick.size) n) (hw : Rounds rule (c / tenTo s) w)
    (hprod : LastPlace tick.scale (w * tick.size) s' h) (hne : w ≠ n) :
    (h : ℚ) / tenTo s' ≠ n * tick.size := by
  intro heq
  rw [div_eq_iff (tenTo_rat_ne_zero s')] at heq
  have hpos := tenTo_rat_pos (s' + 1)
  have hbound := value_mul_tenTo_succ_le hT hprod hne heq hq hn hw
  have hnext := hprod.le_next (mul_nonneg (Nat.cast_nonneg w) hT.le)
    (last_lt_tick_scale hT hprod hne heq)
  -- the count is too large, since its product has no room where the number has
  have hqw : value.size / tick.size ≤ w := by
    rw [div_le_iff₀ hT]
    exact le_of_mul_le_mul_right (by linarith) hpos
  have hnq : (n : ℚ) < value.size / tick.size := by
    by_contra hle
    have h1 := count_le_of_le hq hw (not_lt.1 hle)
    have h2 := hn.mono (rounds_natCast rule w) hqw
    omega
  -- the wanted multiple ends in 0 at the next place, the largest coefficient in 5
  have hten : (tenTo (s' + 1) : ℚ) = tenTo s' * 10 := by exact_mod_cast tenTo_succ s'
  have hlow : (10 * h : ℚ) < twoTo 96 - 1 := by
    rw [lt_div_iff₀ hT] at hnq
    have := mul_lt_mul_of_pos_right hnq hpos
    rw [hten, ← mul_assoc, ← heq] at this
    rw [hten] at hbound
    linarith
  have hroom : 10 * h + 6 ≤ twoTo 96 := by
    have : 10 * h + 1 < twoTo 96 := by
      have : ((10 * h + 1 : ℕ) : ℚ) < (twoTo 96 : ℕ) := by push_cast; linarith
      exact_mod_cast this
    rw [twoTo_96] at this ⊢
    omega
  -- so the error of the product does not reach beyond the room
  have hroom' : (10 * h + 6 : ℚ) ≤ twoTo 96 := by exact_mod_cast hroom
  have hhigh := (abs_le.1 hprod.abs_sub_le).2
  rw [hten] at hnext
  linarith

/-! ### What the steps give -/

/-- A decimal that is not zero is negative if its number is. -/
theorem negative_eq_of_toRat {d : Decimal} {negative : Bool} (h0 : d.size ≠ 0)
    (h : d.toRat = withSign negative d.size) : d.negative = negative := by
  rw [toRat_eq] at h
  have hne : d.size ≠ -d.size := fun h1 => h0 (by linarith)
  cases hd : d.negative <;> cases negative <;> rw [hd] at h
  · exact absurd h hne
  · exact absurd h.symm hne

/-- A number is written to a tick in two steps, a quotient and a product; all that can go wrong is
a fault of the library. -/
theorem toTicks_cases (mode : RoundingMode) (tick value : Decimal) :
    (∃ message, toTicks mode tick value = .error (.internal message)) ∨
      ∃ ticks result, value.div? tick = some ticks ∧
        (ticks.roundPlaces mode.rule 0).mul? tick = some result ∧
        toTicks mode tick value = .ok result := by
  unfold toTicks
  by_cases hz : tick.isZero = true
  · rw [if_pos hz]
    exact .inl ⟨_, rfl⟩
  · rw [if_neg hz]
    cases hdiv : value.div? tick with
    | none => exact .inl ⟨_, rfl⟩
    | some ticks =>
      cases hmul : (ticks.roundPlaces mode.rule 0).mul? tick with
      | none =>
        refine .inl ⟨"Overflow scaling " ++ (ticks.roundPlaces mode.rule 0).toText
          ++ " ticks of " ++ tick.toText, ?_⟩
        show Error.require ((ticks.roundPlaces mode.rule 0).mul? tick) _ = _
        rw [hmul]
        rfl
      | some result =>
        refine .inr ⟨ticks, result, rfl, hmul, ?_⟩
        show Error.require ((ticks.roundPlaces mode.rule 0).mul? tick) _ = _
        rw [hmul]
        rfl

/-- The count and the product behind a number that was written to a tick. -/
theorem toTicks_steps {rule : Rounding} {value tick ticks result : Decimal}
    (htick : 0 < tick.toRat) (hdiv : value.div? tick = some ticks)
    (hmul : (ticks.roundPlaces rule 0).mul? tick = some result) :
    ∃ s c w, LastPlace 28 (value.size / tick.size) s c ∧ Rounds rule (c / tenTo s) w ∧
      result.toRat = withSign value.negative result.size ∧
      (w = 0 ∧ result.size = 0 ∨
        LastPlace tick.scale (w * tick.size) result.scale result.coefficient) := by
  obtain ⟨hplus, htick0⟩ := (toRat_pos_iff tick).1 htick
  obtain ⟨s, c, hlast, hsize, hsign⟩ := lastPlace_of_div? hdiv
  obtain ⟨hw, hscale⟩ := rounds_roundPlaces rule (Nat.zero_le ticks.scale)
  have hneg := negative_roundPlaces rule 0 ticks
  generalize ticks.roundPlaces rule 0 = whole at hmul hw hscale hneg
  have hwhole : whole.size = whole.coefficient := size_eq_coefficient hscale
  rw [tenTo_zero, Nat.cast_one, mul_one] at hw
  have hlast0 : ticks.size = 0 → whole.coefficient = 0 := fun h0 => by
    rw [h0, ← Nat.cast_zero] at hw
    exact hw.unique (rounds_natCast rule 0)
  rcases lastPlace_of_mul? hmul with ⟨hzero, hresult⟩ | ⟨hprod, hresult⟩
  · have hw0 : whole.coefficient = 0 := by
      rcases mul_eq_zero.1 hzero with h0 | h0
      · exact (size_eq_zero_iff whole).1 h0
      · exact absurd ((size_eq_zero_iff tick).1 h0) htick0
    have hresult0 : result.size = 0 := by rw [← abs_toRat, hresult, abs_zero]
    refine ⟨s, c, whole.coefficient, hlast, hsize ▸ hw, ?_, .inl ⟨hw0, hresult0⟩⟩
    rw [hresult, hresult0]
    simp [withSign]
  · rw [hscale, Nat.zero_add, min_eq_left tick.scale_le, hwhole] at hprod
    refine ⟨s, c, whole.coefficient, hlast, hsize ▸ hw, ?_, .inr hprod⟩
    by_cases h0 : ticks.size = 0
    · -- nothing is left of the number, so the sign does not matter
      rw [hlast0 h0, Nat.cast_zero, zero_mul] at hprod
      have hc := hprod.exact (Nat.zero_le _) (twoTo_pos 96) (by simp)
      rw [zero_mul] at hc
      have hresult0 : result.size = 0 :=
        (size_eq_zero_iff result).2 (by exact_mod_cast hc.symm)
      rw [hresult, hresult0]
      simp [withSign]
    · rw [hresult, hneg, negative_eq_of_toRat h0 hsign, hplus]
      simp

/-! ### What a result on the ticks is -/

theorem OnTicks.neg {mode : RoundingMode} {v t r : ℚ} (h : OnTicks mode v t r) :
    OnTicks mode (-v) t (-r) := by
  obtain ⟨⟨k, hk⟩, hnear⟩ := h
  refine ⟨⟨-k, by rw [hk]; push_cast; ring⟩, ?_⟩
  cases mode with
  | truncate =>
    obtain ⟨hsign, hle, hlt⟩ := hnear
    simp only [abs_neg, neg_eq_zero, neg_pos, neg_neg_iff_pos]
    exact ⟨hsign.imp_right Or.symm, hle, hlt⟩
  | round =>
    have hdiff : |-r - -v| = |r - v| := by rw [← neg_sub', abs_neg]
    simp only [hdiff, abs_neg]
    exact hnear

/-- The sign of a number and of its result can be left out. -/
theorem onTicks_withSign {mode : RoundingMode} {negative : Bool} {v t r : ℚ} :
    OnTicks mode (withSign negative v) t (withSign negative r) ↔ OnTicks mode v t r := by
  cases negative with
  | false => exact Iff.rfl
  | true => exact ⟨fun h => by simpa [withSign] using h.neg, OnTicks.neg⟩

/-- **There is one result on the ticks**: the multiple with the count that the mode demands. -/
theorem onTicks_iff {mode : RoundingMode} {v t r : ℚ} {n : ℕ} (hv : 0 ≤ v) (ht : 0 < t)
    (hr : 0 ≤ r) (hn : Rounds mode.rule (v / t) n) : OnTicks mode v t r ↔ r = n * t := by
  constructor
  · rintro ⟨⟨k, hk⟩, hnear⟩
    -- the multiplier is a count, and the rounding of the quotient
    have hk0 : 0 ≤ k := by
      rw [hk] at hr
      exact_mod_cast nonneg_of_mul_nonneg_left hr ht
    obtain ⟨m, rfl⟩ := Int.eq_ofNat_of_zero_le hk0
    rw [Int.cast_natCast] at hk
    have hm : Rounds mode.rule (v / t) m := by
      cases mode with
      | truncate =>
        obtain ⟨-, hle, hlt⟩ := hnear
        rw [abs_of_nonneg hr, abs_of_nonneg hv] at hle hlt
        refine ⟨(le_div_iff₀ ht).2 (hk ▸ hle), (div_lt_iff₀ ht).2 ?_⟩
        linarith
      | round =>
        obtain ⟨hle, htie⟩ := hnear
        rw [abs_of_nonneg hr, abs_of_nonneg hv] at htie
        obtain ⟨h1, h2⟩ := abs_le.1 hle
        refine ⟨(le_div_iff₀ ht).2 (by linarith), (div_lt_iff₀ ht).2 ?_⟩
        by_contra hge
        -- a tie must have gone up
        have hbelow : r - v = -(t / 2) := by linarith
        have := htie (by rw [hbelow, abs_neg, abs_of_pos (half_pos ht)])
        linarith
    rw [hk, hm.unique hn]
  · rintro rfl
    refine ⟨⟨n, by rw [Int.cast_natCast]⟩, ?_⟩
    cases mode with
    | truncate =>
      obtain ⟨h1, h2⟩ := hn
      rw [le_div_iff₀ ht] at h1
      rw [div_lt_iff₀ ht] at h2
      rw [abs_of_nonneg hr, abs_of_nonneg hv]
      refine ⟨?_, h1, by linarith⟩
      rcases hr.eq_or_lt with h0 | hpos
      · exact .inl h0.symm
      · exact .inr (.inl ⟨hpos, hpos.trans_le h1⟩)
    | round =>
      obtain ⟨h1, h2⟩ := hn
      rw [le_div_iff₀ ht] at h1
      rw [div_lt_iff₀ ht] at h2
      refine ⟨abs_le.2 ⟨by linarith, by linarith⟩, fun htie => ?_⟩
      rw [abs_of_nonneg hr, abs_of_nonneg hv]
      by_contra hge
      rw [abs_of_nonpos (by linarith)] at htie
      linarith

/-- A result on the ticks is one for which no rounding but that of the count did anything. -/
theorem onTicks_result_iff {mode : RoundingMode} {value tick ticks result : Decimal}
    (htick : 0 < tick.toRat) (hdiv : value.div? tick = some ticks)
    (hmul : (ticks.roundPlaces mode.rule 0).mul? tick = some result) :
    OnTicks mode value.toRat tick.toRat result.toRat ↔
      ∃ n, CountHolds mode (|value.toRat| / tick.toRat) n ∧
        ∃ d : Decimal, d.toRat = n * tick.toRat := by
  have htsize : tick.toRat = tick.size := by rw [← abs_toRat, abs_of_pos htick]
  obtain ⟨s, c, w, hlast, hw, hsign, hresult⟩ := toTicks_steps htick hdiv hmul
  rw [hsign, toRat_eq value, onTicks_withSign, abs_withSign, abs_of_nonneg value.size_nonneg]
  rw [htsize] at htick ⊢
  obtain ⟨n, hn⟩ := exists_rounds mode.rule (div_nonneg value.size_nonneg htick.le)
  rw [onTicks_iff value.size_nonneg htick result.size_nonneg hn]
  constructor
  · intro hr
    have hwn : w = n := by
      rcases hresult with ⟨hw0, hr0⟩ | hprod
      · rw [hr0, eq_comm, mul_eq_zero, or_iff_left htick.ne', Nat.cast_eq_zero] at hr
        rw [hw0, hr]
      · by_contra hne
        exact product_ne_of_ne htick hlast hn hw hprod hne hr
    subst hwn
    refine ⟨w, ⟨hn, s, c, hlast, hw⟩, { result with negative := false }, ?_⟩
    rw [toRat_eq]
    exact hr
  · rintro ⟨m, ⟨hm, s', c', hlast', hm'⟩, d, hd⟩
    obtain ⟨rfl, rfl⟩ := hlast.unique hlast'
    obtain rfl := hw.unique hm'
    obtain rfl := hn.unique hm
    rcases hresult with ⟨hw0, hr0⟩ | hprod
    · rw [hr0, hw0, Nat.cast_zero, zero_mul]
    · refine product_eq_of_size (d := d) hprod ?_
      rw [← abs_toRat, hd, abs_of_nonneg (mul_nonneg (Nat.cast_nonneg _) htick.le)]

/-! ### Writing a number to a tick -/

/-- **Writing a number to a tick**: but for a fault of the library the text spells a number, which
is on the ticks exactly if the quotient holds its count and a decimal holds the multiple. -/
theorem toPrecision_tickSize (value : Decimal) {tick : Decimal} (mode : RoundingMode)
    (padding : Padding) (htick : 0 < tick.toRat) :
    (∃ message,
      value.toPrecision mode (some tick) .tickSize padding = .error (.internal message)) ∨
    ∃ text r, value.toPrecision mode (some tick) .tickSize padding = .ok text ∧
      numeralValue? text = some r ∧
      (OnTicks mode value.toRat tick.toRat r ↔
        ∃ n, CountHolds mode (|value.toRat| / tick.toRat) n ∧
          ∃ d : Decimal, d.toRat = n * tick.toRat) := by
  have hfilter : (some tick).filter (fun p => !p.negative) = some tick := by
    rw [Option.filter_some, ((toRat_pos_iff tick).1 htick).1]
    rfl
  unfold toPrecision
  rw [hfilter]
  show (∃ message, (toTicks mode tick value >>= _) = _) ∨
    ∃ text r, (toTicks mode tick value >>= _) = _ ∧ _
  rcases toTicks_cases mode tick value with
    ⟨message, herr⟩ | ⟨ticks, result, hdiv, hmul, hok⟩
  · rw [herr]
    exact .inl ⟨message, rfl⟩
  · rw [hok]
    refine .inr ⟨_, result.toRat, rfl, numeralValue?_padded _ _ _, ?_⟩
    exact onTicks_result_iff htick hdiv hmul

/-- A short quotient and a short multiple: `-1.3` is cut to five ticks of `0.25`. -/
theorem toPrecision_tickSize_short : ∃ value tick : Decimal,
    ofPlain? "-1.3" = some value ∧ ofPlain? "0.25" = some tick ∧ 0 < tick.toRat ∧
      value.toPrecision .truncate (some tick) .tickSize .none = .ok "-1.25" ∧
      OnTicks .truncate value.toRat tick.toRat (-5 / 4) := by
  refine ⟨⟨true, 13, 1, by decide, by decide⟩, ⟨false, 25, 2, by decide, by decide⟩, rfl, rfl, ?_⟩
  generalize hvalue : (⟨true, 13, 1, _, _⟩ : Decimal) = value
  generalize htick : (⟨false, 25, 2, _, _⟩ : Decimal) = tick
  have hv : value.toRat = -13 / 10 := by
    rw [← hvalue]
    simp [toRat, mantissa, signed, tenTo]
  have ht : tick.toRat = 1 / 4 := by
    rw [← htick]
    norm_num [toRat, mantissa, signed, tenTo]
  have hpos : 0 < tick.toRat := by norm_num [ht]
  have htext : value.toPrecision .truncate (some tick) .tickSize .none = .ok "-1.25" := by
    rw [← hvalue, ← htick]
    rfl
  refine ⟨hpos, htext, ?_⟩
  rcases toPrecision_tickSize value .truncate .none hpos with
    ⟨message, herr⟩ | ⟨text, r, hok, hr, hiff⟩
  · rw [herr] at htext
    cases htext
  · rw [htext, Except.ok.injEq] at hok
    subst hok
    have hread : numeralValue? "-1.25" = some (-5 / 4) := by
      show some (-(((Nat.ofDigitChars 10 "125".toList 0 : ℕ) : ℚ) / tenTo 2)) = _
      have hdigits : Nat.ofDigitChars 10 "125".toList 0 = 125 := rfl
      norm_num [tenTo, hdigits]
    rw [hread, Option.some.injEq] at hr
    rw [hr, hiff]
    -- the quotient is 5.2, which fits with 28 places
    refine ⟨5, ⟨?_, 28, 52 * tenTo 27, ⟨le_rfl, by decide, ?_, fun s' c' => by omega⟩, ?_⟩, ?_⟩
    · norm_num [hv, ht, Rounds, RoundingMode.rule]
    · norm_num [hv, ht, Rounds, tenTo]
    · norm_num [Rounds, RoundingMode.rule, tenTo]
    · refine ⟨⟨false, 125, 2, by decide, by decide⟩, ?_⟩
      rw [ht]
      norm_num [toRat, mantissa, signed, tenTo]

/-- A number just below a tick is cut to the tick above it: the quotient has 28 nines, of which the
coefficient has no room for the last one. -/
theorem truncate_goes_up : ∃ value tick : Decimal,
    ofPlain? "29.999999999999999999999999999" = some value ∧ ofPlain? "30" = some tick ∧
      0 < tick.toRat ∧ value.toPrecision .truncate (some tick) .tickSize .none = .ok "30" ∧
      numeralValue? "30" = some 30 ∧ ¬ OnTicks .truncate value.toRat tick.toRat 30 := by
  refine ⟨⟨false, 29999999999999999999999999999, 27, by decide, by decide⟩,
    ⟨false, 30, 0, by decide, by decide⟩, rfl, rfl, ?_, ?_, ?_, ?_⟩
  · norm_num [toRat, mantissa, signed]
  · rfl
  · show some ((Nat.ofDigitChars 10 "30".toList 0 : ℕ) : ℚ) = _
    have hdigits : Nat.ofDigitChars 10 "30".toList 0 = 30 := rfl
    rw [hdigits, Nat.cast_ofNat]
  · generalize hvalue : (⟨false, 29999999999999999999999999999, 27, _, _⟩ : Decimal) = value
    have hv : 0 < value.toRat ∧ value.toRat < 30 := by
      rw [← hvalue]
      norm_num [toRat, mantissa, signed, tenTo]
    rintro ⟨-, -, hle, -⟩
    rw [abs_of_pos hv.1] at hle
    norm_num at hle
    linarith

end Bourse.Decimal
