import Bourse.Proofs.Precision.Conventions

/-! # Significant digits

A number whose leading digit stands at `10 ^ m` has `n` significant digits if it is a multiple of
`10 ^ (m + 1 - n)`. Where this is a fraction digit, the digits behind it are dropped in place.
Otherwise the number is divided by the power of ten, rounded and multiplied back; the quotient then
only moves the point to the left, for which there are always enough places, and the product moves it
back. Neither is rounded (`exists_div?_powerOfTen`, `mul?_powerOfTen_cases`), so that the only fault
is a product without room. -/

namespace Bourse.Decimal

open Rounding

/-! ### The leading digit -/

/-- A number lies between two powers of ten only. -/
theorem le_of_ten_zpow {x : ℚ} {a b : ℤ} (ha : (10 : ℚ) ^ a ≤ x) (hb : x < 10 ^ (b + 1)) :
    a ≤ b :=
  Int.lt_add_one_iff.1 ((zpow_lt_zpow_iff_right₀ (by norm_num)).1 (ha.trans_lt hb))

/-- **The leading digit stands at its power.** -/
theorem leadingPower_spec {d : Decimal} (h : d.coefficient ≠ 0) :
    (10 : ℚ) ^ d.leadingPower ≤ d.size ∧ d.size < 10 ^ (d.leadingPower + 1) := by
  obtain ⟨k, hk⟩ : ∃ k, (Text.digits d.coefficient).length = k + 1 :=
    Nat.exists_eq_succ_of_ne_zero (List.length_pos_iff.2 (Text.digits_ne_nil _)).ne'
  have hlow : tenTo k ≤ d.coefficient := Text.tenTo_le_of_length_digits h hk
  have hhigh : d.coefficient < tenTo (k + 1) := hk ▸ Text.lt_tenTo_length_digits d.coefficient
  have hpower : d.leadingPower = (k : ℤ) - d.scale := by
    rw [leadingPower, hk]
    push_cast
    ring
  have hnext : d.leadingPower + 1 = ((k + 1 : ℕ) : ℤ) - d.scale := by
    rw [hpower]
    push_cast
    ring
  rw [hnext, hpower, ten_zpow_sub, ten_zpow_sub, size]
  have hpos := tenTo_rat_pos d.scale
  exact ⟨div_le_div_of_nonneg_right (by exact_mod_cast hlow) hpos.le,
    div_lt_div_of_pos_right (by exact_mod_cast hhigh) hpos⟩

/-- A coefficient has at most 29 digits. -/
theorem leadingPower_add_scale_le (d : Decimal) : d.leadingPower + d.scale ≤ 28 := by
  have hlen : (Text.digits d.coefficient).length ≤ 29 :=
    (Nat.length_toDigits_le_iff (by decide) (by decide)).2
      (lt_trans d.coefficient_lt (by decide))
  unfold leadingPower
  omega

section
variable {d : Decimal} {m : ℤ} (hlow : (10 : ℚ) ^ m ≤ |d.toRat|)
include hlow

theorem coefficient_ne_zero_of_le : d.coefficient ≠ 0 := by
  rw [abs_toRat] at hlow
  rw [ne_eq, ← size_eq_zero_iff]
  exact (lt_of_lt_of_le (zpow_pos (by norm_num) m) hlow).ne'

theorem leadingPower_eq (hhigh : |d.toRat| < 10 ^ (m + 1)) : d.leadingPower = m := by
  obtain ⟨hlow', hhigh'⟩ := leadingPower_spec (coefficient_ne_zero_of_le hlow)
  rw [abs_toRat] at hlow hhigh
  exact le_antisymm (le_of_ten_zpow hlow' hhigh) (le_of_ten_zpow hlow hhigh')

end

/-! ### Rounding at a place -/

/-- **Dropping digits leaves a number on the units of the last place.** -/
theorem onTicks_roundPlaces (mode : RoundingMode) (places : ℕ) (d : Decimal) :
    OnTicks mode d.toRat (1 / tenTo places) (d.roundPlaces mode.rule places).toRat := by
  obtain ⟨n, hn, hsize⟩ := exists_size_roundPlaces mode.rule places d
  have hpos := tenTo_rat_pos places
  rw [toRat_eq, toRat_eq, negative_roundPlaces, onTicks_withSign]
  refine (onTicks_iff (n := n) d.size_nonneg (one_div_pos.2 hpos) (size_nonneg _) ?_).2 ?_
  · rwa [div_div_eq_mul_div, div_one]
  · rw [mul_one_div, eq_div_iff hpos.ne', hsize]

/-- Moving the point moves the ticks. -/
theorem OnTicks.mul {mode : RoundingMode} {v t r c : ℚ} (h : OnTicks mode v t r) (hc : 0 < c) :
    OnTicks mode (v * c) (t * c) (r * c) := by
  obtain ⟨⟨k, hk⟩, hnear⟩ := h
  refine ⟨⟨k, by rw [hk, mul_assoc]⟩, ?_⟩
  cases mode with
  | truncate =>
    obtain ⟨hsign, hle, hlt⟩ := hnear
    simp only [abs_mul, abs_of_pos hc, mul_eq_zero, hc.ne', or_false, mul_pos_iff_of_pos_right hc,
      ← sub_mul]
    refine ⟨hsign.imp_right (Or.imp_right fun hneg => ?_), mul_le_mul_of_nonneg_right hle hc.le,
      mul_lt_mul_of_pos_right hlt hc⟩
    exact ⟨mul_neg_of_neg_of_pos hneg.1 hc, mul_neg_of_neg_of_pos hneg.2 hc⟩
  | round =>
    obtain ⟨hle, htie⟩ := hnear
    simp only [← sub_mul, abs_mul, abs_of_pos hc, mul_div_right_comm, mul_left_inj' hc.ne',
      mul_lt_mul_iff_of_pos_right hc, mul_le_mul_iff_of_pos_right hc]
    exact ⟨hle, htie⟩

/-- What is cut does not grow. -/
theorem OnTicks.mode_eq_round {mode : RoundingMode} {v t r : ℚ} (h : OnTicks mode v t r)
    (hgrown : |v| < |r|) : mode = .round := by
  cases mode with
  | round => rfl
  | truncate => exact absurd h.near.2.1 (not_le.2 hgrown)

/-! ### Moving the point -/

theorem toRat_powerOfTen {j : ℕ} (h : j ≤ 28) : (powerOfTen j).toRat = tenTo j := by
  unfold powerOfTen
  rw [dif_pos h]
  simp [toRat, mantissa, signed]

/-- Moving the point to the left is exact while there are places. -/
theorem exists_div?_powerOfTen {value : Decimal} {j : ℕ} (hj : j ≤ 28)
    (hroom : value.scale + j ≤ 28) :
    ∃ q, value.div? (powerOfTen j) = some q ∧ q.toRat = value.toRat / tenTo j := by
  have hcoeff : (powerOfTen j).coefficient ≠ 0 := ((toRat_pos_iff _).1
    (toRat_powerOfTen hj ▸ tenTo_rat_pos j)).2
  have hmoved : (⟨value.negative, value.coefficient, value.scale + j, value.coefficient_lt, hroom⟩
      : Decimal).toRat = value.toRat / (powerOfTen j).toRat := by
    rw [toRat_powerOfTen hj]
    show (value.mantissa : ℚ) / tenTo (value.scale + j) = value.mantissa / tenTo value.scale / _
    rw [tenTo_add, Nat.cast_mul, div_div]
  obtain ⟨q, hq, hsame⟩ := exists_div?_of_toRat_eq hcoeff hmoved
  exact ⟨q, hq, by rw [hsame, hmoved, toRat_powerOfTen hj]⟩

/-- Moving the point back is exact while there is room. -/
theorem mul?_powerOfTen_cases {whole : Decimal} {j : ℕ} (hj : j ≤ 28) (hwhole : whole.scale = 0) :
    (∃ r, whole.mul? (powerOfTen j) = some r ∧ r.toRat = whole.toRat * tenTo j) ∨
      (whole.mul? (powerOfTen j) = none ∧ twoTo 96 - 1 < |whole.toRat * tenTo j|) := by
  have hsize : whole.size * tenTo j = (whole.coefficient * tenTo j : ℕ) := by
    rw [size_eq_coefficient hwhole, Nat.cast_mul]
  by_cases hroom : whole.coefficient * tenTo j < twoTo 96
  · have hmoved : (⟨whole.negative, whole.coefficient * tenTo j, 0, hroom, Nat.zero_le _⟩
        : Decimal).toRat = whole.toRat * (powerOfTen j).toRat := by
      rw [toRat_powerOfTen hj, toRat_eq, toRat_eq, size_eq_coefficient rfl, ← hsize]
      cases hneg : whole.negative <;> simp [withSign]
    obtain ⟨r, hr, hsame⟩ := exists_mul?_of_toRat_eq hmoved
    exact .inl ⟨r, hr, by rw [hsame, hmoved, toRat_powerOfTen hj]⟩
  · have hten : (powerOfTen j).size = tenTo j := by
      rw [← abs_toRat, toRat_powerOfTen hj, abs_of_pos (tenTo_rat_pos j)]
    refine .inr ⟨Option.eq_none_iff_forall_ne_some.2 fun r hr => hroom ?_, ?_⟩
    · have hproduct := exists_mul?_iff.1 ⟨r, hr⟩
      rw [hten, hsize] at hproduct
      exact hasRoom_natCast_iff.1 hproduct
    · rw [abs_mul, abs_toRat, abs_of_pos (tenTo_rat_pos j), hsize, sub_lt_iff_lt_add]
      exact_mod_cast Nat.lt_succ_of_le (not_lt.1 hroom)

/-! ### The outcome -/

/-- The outcome is a text that spells `r`, or a fault if no decimal is as large. -/
structure Spells (outcome : Result String) (r : ℚ) : Prop where
  fits : |r| ≤ twoTo 96 - 1 → ∃ text, outcome = .ok text ∧ numeralValue? text = some r
  fails : (∃ message, outcome = .error (.internal message)) ↔ twoTo 96 - 1 < |r|

theorem spells_of_ok {outcome : Result String} {text : String} {d : Decimal}
    (h : outcome = .ok text) (htext : numeralValue? text = some d.toRat) :
    Spells outcome d.toRat where
  fits _ := ⟨text, h, htext⟩
  fails := by
    refine iff_of_false ?_ (not_lt.2 (d.abs_toRat ▸ d.size_le))
    rintro ⟨message, hmessage⟩
    rw [h] at hmessage
    cases hmessage

theorem spells_of_error {outcome : Result String} {message : String} {r : ℚ}
    (h : outcome = .error (.internal message)) (hr : twoTo 96 - 1 < |r|) : Spells outcome r where
  fits hle := absurd hr (not_lt.2 hle)
  fails := iff_of_true ⟨message, h⟩ hr

/-! ### The two ways -/

theorem toPlaces_min (mode : RoundingMode) (places : ℕ) (d : Decimal) :
    d.toPlaces mode (min places maxScale) = d.roundPlaces mode.rule places := by
  unfold toPlaces
  rw [min_assoc, min_self]
  rcases Nat.le_total places maxScale with hle | hle
  · rw [min_eq_left hle]
  · have hall : d.scale ≤ maxScale := d.scale_le
    rw [min_eq_right hle, roundPlaces, roundPlaces, dif_pos hall, dif_pos (hall.trans hle)]

section
variable {value : Decimal} {n : ℕ} (mode : RoundingMode) (padding : Padding)

theorem toSignificant_behind {k : ℕ} (hk : (n : ℤ) - value.leadingPower - 1 = k) :
    toSignificant mode padding n value
      = .ok ((value.roundPlaces mode.rule k).padded padding (min k maxScale)) := by
  unfold toSignificant
  dsimp only
  rw [hk, if_pos (Int.natCast_nonneg k), Int.toNat_natCast, toPlaces_min]

/-- **Behind the point** digits are dropped in place. -/
theorem exists_spells_behind {k : ℕ} (hk : (n : ℤ) - value.leadingPower - 1 = k) :
    ∃ r, OnTicks mode value.toRat (1 / tenTo k) r ∧
      Spells (toSignificant mode padding n value) r :=
  ⟨_, onTicks_roundPlaces mode k value,
    spells_of_ok (toSignificant_behind mode padding hk) (numeralValue?_padded _ _ _)⟩

/-- **In front of the point** a rounded quotient is multiplied back. -/
theorem exists_spells_before {j : ℕ} (hpos : 0 < j)
    (hj : (n : ℤ) - value.leadingPower - 1 = -(j : ℤ)) (hroom : value.scale + j ≤ 28) :
    ∃ r, OnTicks mode value.toRat (tenTo j) r ∧
      Spells (toSignificant mode padding n value) r := by
  have hj28 : j ≤ maxScale := le_trans (Nat.le_add_left j value.scale) hroom
  obtain ⟨q, hq, hvalue⟩ := exists_div?_powerOfTen hj28 hroom
  have hticks := (onTicks_roundPlaces mode 0 q).mul (tenTo_rat_pos j)
  rw [hvalue, div_mul_cancel₀ _ (tenTo_rat_ne_zero j), tenTo_zero, Nat.cast_one, div_one, one_mul]
    at hticks
  refine ⟨_, hticks, ?_⟩
  have hwhole := (rounds_roundPlaces mode.rule (Nat.zero_le q.scale)).2
  have houtcome : toSignificant mode padding n value = (Error.require
      ((q.roundPlaces mode.rule 0).mul? (powerOfTen j)) ("Overflow scaling " ++ value.toText)
        >>= fun result => .ok result.plain) := by
    have hneg : ¬ (0 : ℤ) ≤ -(j : ℤ) := by omega
    unfold toSignificant
    dsimp only
    rw [hj, if_neg hneg, neg_neg, Int.toNat_natCast, min_eq_left hj28, hq]
    rfl
  rw [houtcome]
  rcases mul?_powerOfTen_cases hj28 hwhole with ⟨r, hr, hsame⟩ | ⟨hnone, hlarge⟩
  · rw [hr, ← hsame]
    exact spells_of_ok rfl (numeralValue?_plain r)
  · rw [hnone]
    exact spells_of_error rfl hlarge

/-- Both ways round at the unit of the last significant digit. -/
theorem exists_spells_toSignificant (value : Decimal) (hn : 1 ≤ n) :
    ∃ r, OnTicks mode value.toRat (10 ^ (value.leadingPower + 1 - n)) r ∧
      Spells (toSignificant mode padding n value) r := by
  rcases le_or_gt (value.leadingPower + 1 - n) 0 with hle | hgt
  · obtain ⟨k, hk⟩ := Int.eq_ofNat_of_zero_le (neg_nonneg.2 hle)
    have hpower : value.leadingPower + 1 - n = ((0 : ℕ) : ℤ) - k := by omega
    rw [hpower, ten_zpow_sub, tenTo_zero, Nat.cast_one]
    exact exists_spells_behind mode padding (by omega)
  · obtain ⟨j, hj⟩ := Int.eq_ofNat_of_zero_le hgt.le
    have hpower : value.leadingPower + 1 - n = (j : ℤ) - (0 : ℕ) := by omega
    -- of at most 29 digits at least one is kept
    have hdigits := value.leadingPower_add_scale_le
    rw [hpower, ten_zpow_sub, tenTo_zero, Nat.cast_one, div_one]
    exact exists_spells_before mode padding (by omega) (by omega) (by omega)

theorem toPrecision_eq_toSignificant {precision : Decimal} (hvalue : value.coefficient ≠ 0)
    (hprecision : precision.toRat = n) (hn : 1 ≤ n) (hbits : n < twoTo 32) :
    value.toPrecision mode (some precision) .significantDigits padding
      = toSignificant mode padding n value := by
  have hpos : 0 < precision.toRat := by
    rw [hprecision]
    exact_mod_cast hn
  have hsign := ((toRat_pos_iff precision).1 hpos).1
  have hsome : ¬ (value.isZero || n == 0) = true := by
    rw [Bool.or_eq_true, isZero_iff, beq_iff_eq]
    omega
  unfold toPrecision
  rw [filter_of_not_negative hsign]
  show (digitCount precision >>= fun digits => _) = _
  rw [digitCount_eq_ok hprecision hsign hbits]
  exact if_neg hsome

end

/-- **Significant digits are right at every magnitude.** For a number with its leading digit at
`10 ^ m`, the text spells the multiple of `10 ^ (m + 1 - n)` that the mode demands; there is a fault
exactly if that multiple is larger than every decimal, and then it was rounded up. -/
theorem toPrecision_significantDigits {value precision : Decimal} {m : ℤ} {n : ℕ}
    (hlow : (10 : ℚ) ^ m ≤ |value.toRat|) (hhigh : |value.toRat| < 10 ^ (m + 1))
    (hprecision : precision.toRat = n) (hn : 1 ≤ n) (hbits : n < twoTo 32) (mode : RoundingMode)
    (padding : Padding) :
    ∃ r, OnTicks mode value.toRat (10 ^ (m + 1 - n)) r ∧
      Spells (value.toPrecision mode (some precision) .significantDigits padding) r ∧
      (twoTo 96 - 1 < |r| → mode = .round) := by
  obtain ⟨r, hr, hspells⟩ := exists_spells_toSignificant mode padding value hn
  rw [leadingPower_eq hlow hhigh] at hr
  rw [toPrecision_eq_toSignificant mode padding (coefficient_ne_zero_of_le hlow) hprecision hn
    hbits]
  refine ⟨r, hr, hspells, fun hlarge => hr.mode_eq_round (lt_of_le_of_lt ?_ hlarge)⟩
  rw [abs_toRat]
  exact value.size_le

/-- The largest decimal rounded to one digit less: the multiple above it is no decimal. -/
theorem toPrecision_significantDigits_largest : ∃ value precision : Decimal,
    ofPlain? "79228162514264337593543950335" = some value ∧ ofPlain? "28" = some precision ∧
      (10 : ℚ) ^ (28 : ℤ) ≤ |value.toRat| ∧ |value.toRat| < 10 ^ ((28 : ℤ) + 1) ∧
      precision.toRat = (28 : ℕ) ∧ 1 ≤ 28 ∧ 28 < twoTo 32 ∧
      value.toPrecision .round (some precision) .significantDigits .none
        = .error (.internal "Overflow scaling 79228162514264337593543950335") ∧
      ∃ r, OnTicks .round value.toRat (10 ^ ((28 : ℤ) + 1 - (28 : ℕ))) r ∧
        twoTo 96 - 1 < |r| := by
  refine ⟨⟨false, 79228162514264337593543950335, 0, by decide, by decide⟩,
    ⟨false, 28, 0, by decide, by decide⟩, rfl, rfl, ?_⟩
  generalize hvalue : (⟨false, 79228162514264337593543950335, 0, _, _⟩ : Decimal) = value
  generalize hprecision : (⟨false, 28, 0, _, _⟩ : Decimal) = precision
  have hv : value.toRat = 79228162514264337593543950335 := by
    rw [← hvalue]
    simp [toRat, mantissa, signed]
  have hp : precision.toRat = (28 : ℕ) := by
    rw [← hprecision]
    simp [toRat, mantissa, signed]
  have hlow : (10 : ℚ) ^ (28 : ℤ) ≤ |value.toRat| := by norm_num [hv]
  have hhigh : |value.toRat| < (10 : ℚ) ^ ((28 : ℤ) + 1) := by norm_num [hv]
  have herror : value.toPrecision .round (some precision) .significantDigits .none
      = .error (.internal "Overflow scaling 79228162514264337593543950335") := by
    rw [← hvalue, ← hprecision]
    rfl
  obtain ⟨r, hr, hspells, -⟩ := toPrecision_significantDigits hlow hhigh hp (by decide) (by decide)
    .round .none
  exact ⟨hlow, hhigh, hp, by decide, by decide, herror, r, hr, hspells.fails.1 ⟨_, herror⟩⟩

/-- A carry into a new digit behind leading zeros. -/
example : ((ofPlain? "-0.00099996").map fun value =>
    value.toPrecision .round (ofPlain? "4") .significantDigits .zeros)
      = some (.ok "-0.0010000") := rfl

end Bourse.Decimal
