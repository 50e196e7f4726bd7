import Bourse.Proofs.Decimal.Checked
import Bourse.Proofs.Precision.Readable
import Bourse.Proofs.Precision.Significant

/-! # Writing keeps sign and order

Numbers that are written to fraction digits or to significant digits keep their order and their
signs, and a number that was written is written as itself. `Projects R` says so of the relation `R`
between a number and what it is written as.

* `projects_onTicks`: on the units of one place;
* `projects_onDigits`: on the units of the last significant digit. There the unit depends on the
  number: it grows with the power of the leading digit. Between two powers of ten it is the same,
  and the powers of ten are on the units from both sides, so that none of them is crossed
  (`OnDigits.le_ten_zpow`, `OnDigits.ten_zpow_le`);
* `exists_projects`: every precision but a tick writes by such a relation, and fails only where the
  result is out of range;
* `toPrecision_odd_monotone`: what this comes to for the texts. -/

namespace Bourse.Decimal

open Rounding

/-- Numbers are written by the relation `R` with their sign and in their order, and what was written
is written as itself. -/
structure Projects (R : ℚ → ℚ → Prop) : Prop where
  neg : ∀ {v r}, R v r → R (-v) (-r)
  mono : ∀ {v w r s}, R v r → R w s → v ≤ w → r ≤ s
  fixed : ∀ {v r}, R v r → R r r

theorem Projects.unique {R : ℚ → ℚ → Prop} (h : Projects R) {v r s : ℚ} (hr : R v r)
    (hs : R v s) : r = s :=
  le_antisymm (h.mono hr hs le_rfl) (h.mono hs hr le_rfl)

/-- A relation that keeps signs keeps the order if it does so above zero. -/
theorem projects_of_nonneg {R : ℚ → ℚ → Prop} (hneg : ∀ v r, R v r → R (-v) (-r))
    (hsign : ∀ v r, R v r → 0 ≤ v → 0 ≤ r)
    (hmono : ∀ v w r s, R v r → R w s → 0 ≤ v → v ≤ w → r ≤ s)
    (hfixed : ∀ v r, R v r → R r r) : Projects R where
  neg hr := hneg _ _ hr
  mono {v w r s} hr hs h := by
    rcases le_total 0 v with hv | hv
    · exact hmono v w r s hr hs hv h
    · rcases le_total 0 w with hw | hw
      · have hr0 := hsign _ _ (hneg v r hr) (neg_nonneg.2 hv)
        exact (neg_nonneg.1 hr0).trans (hsign w s hs hw)
      · have hle := hmono _ _ _ _ (hneg w s hs) (hneg v r hr) (neg_nonneg.2 hw) (neg_le_neg h)
        exact neg_le_neg_iff.1 hle
  fixed hr := hfixed _ _ hr

theorem projects_eq : Projects Eq where
  neg := congrArg Neg.neg
  mono hr hs h := hr ▸ hs ▸ h
  fixed _ := rfl

theorem projects_zero : Projects fun _ r => r = 0 where
  neg hr := by rw [hr, neg_zero]
  mono hr hs _ := by rw [hr, hs]
  fixed hr := hr

/-! ### The units of one place -/

section
variable {mode : RoundingMode} {v w t r s : ℚ} (ht : 0 < t)
include ht

/-- A multiple of the unit is left as it is. -/
theorem onTicks_of_multiple {k : ℤ} (hk : v = k * t) : OnTicks mode v t v := by
  refine ⟨⟨k, hk⟩, ?_⟩
  cases mode with
  | truncate =>
    refine ⟨?_, le_rfl, by rwa [sub_self]⟩
    rcases lt_trichotomy v 0 with hneg | hzero | hpos
    · exact .inr (.inr ⟨hneg, hneg⟩)
    · exact .inl hzero
    · exact .inr (.inl ⟨hpos, hpos⟩)
  | round =>
    show |v - v| ≤ t / 2 ∧ (|v - v| = t / 2 → |v| < |v|)
    rw [sub_self, abs_zero]
    exact ⟨(half_pos ht).le, fun htie => absurd htie (half_pos ht).ne⟩

/-- A number that is not negative does not become so. -/
theorem OnTicks.nonneg (h : OnTicks mode v t r) (hv : 0 ≤ v) : 0 ≤ r := by
  obtain ⟨⟨k, hk⟩, hnear⟩ := h
  by_contra hneg
  rw [not_le] at hneg
  cases mode with
  | truncate =>
    rcases hnear.1 with hzero | ⟨hpos, -⟩ | ⟨-, hlt⟩
    · exact hneg.ne hzero
    · exact hneg.not_gt hpos
    · exact hv.not_gt hlt
  | round =>
    -- the nearest negative multiple is a whole unit away
    have hk0 : k < 0 := by
      by_contra hge
      have : (0 : ℚ) ≤ k := by exact_mod_cast not_lt.1 hge
      rw [hk] at hneg
      exact hneg.not_ge (mul_nonneg this ht.le)
    have hk1 : (k : ℚ) ≤ -1 := by exact_mod_cast Int.le_sub_one_of_lt hk0
    have hunit : k * t ≤ -1 * t := mul_le_mul_of_nonneg_right hk1 ht.le
    have hclose := (abs_le.1 hnear.1).1
    linarith

theorem OnTicks.mono_of_nonneg (hr : OnTicks mode v t r) (hs : OnTicks mode w t s) (hv : 0 ≤ v)
    (h : v ≤ w) : r ≤ s := by
  have hw : 0 ≤ w := hv.trans h
  obtain ⟨n, hn⟩ := exists_rounds mode.rule (div_nonneg hv ht.le)
  obtain ⟨m, hm⟩ := exists_rounds mode.rule (div_nonneg hw ht.le)
  rw [(onTicks_iff hv ht (hr.nonneg ht hv) hn).1 hr, (onTicks_iff hw ht (hs.nonneg ht hw) hm).1 hs]
  refine mul_le_mul_of_nonneg_right ?_ ht.le
  exact_mod_cast hn.mono hm (div_le_div_of_nonneg_right h ht.le)

end

/-- **The units of one place.** -/
theorem projects_onTicks (mode : RoundingMode) {t : ℚ} (ht : 0 < t) :
    Projects fun v r => OnTicks mode v t r := by
  refine projects_of_nonneg ?neg ?sign ?mono ?fixed
  case neg => exact fun v r hr => hr.neg
  case sign => exact fun v r hr hv => hr.nonneg ht hv
  case mono => exact fun v w r s hr hs hv h => hr.mono_of_nonneg ht hs hv h
  case fixed =>
    intro v r hr
    obtain ⟨k, hk⟩ := hr.multiple
    exact onTicks_of_multiple ht hk

/-! ### The unit of the last significant digit -/

/-- The number `r` is `v` with `n` significant digits. -/
def OnDigits (mode : RoundingMode) (n : ℕ) (v r : ℚ) : Prop :=
  v = 0 ∧ r = 0 ∨ ∃ m : ℤ, (10 : ℚ) ^ m ≤ |v| ∧ |v| < 10 ^ (m + 1) ∧
    OnTicks mode v (10 ^ (m + 1 - n)) r

/-- A power of ten is a multiple of those below it. -/
theorem exists_ten_zpow_eq_mul {a b : ℤ} (h : a ≤ b) : ∃ k : ℤ, (10 : ℚ) ^ b = k * 10 ^ a := by
  obtain ⟨j, hj⟩ := Int.eq_ofNat_of_zero_le (sub_nonneg.2 h)
  refine ⟨10 ^ j, ?_⟩
  have hb : b = (j : ℤ) + a := by omega
  rw [hb, zpow_add₀ (by norm_num), zpow_natCast]
  push_cast
  rfl

section
variable {mode : RoundingMode} {n : ℕ} {v w r s : ℚ}

theorem OnDigits.neg (h : OnDigits mode n v r) : OnDigits mode n (-v) (-r) := by
  rcases h with ⟨rfl, rfl⟩ | ⟨m, hlow, hhigh, hticks⟩
  · exact .inl ⟨neg_zero, neg_zero⟩
  · exact .inr ⟨m, by rwa [abs_neg], by rwa [abs_neg], hticks.neg⟩

theorem OnDigits.nonneg (h : OnDigits mode n v r) (hv : 0 ≤ v) : 0 ≤ r := by
  rcases h with ⟨-, rfl⟩ | ⟨m, -, -, hticks⟩
  · exact le_rfl
  · exact hticks.nonneg (ten_zpow_pos _) hv

section
variable {m : ℤ} (hticks : OnTicks mode v (10 ^ (m + 1 - n)) r)
include hticks

/-- The next power of ten is on the units, so that no number goes beyond it. -/
theorem OnTicks.le_ten_zpow (hv : v ≤ 10 ^ (m + 1)) : r ≤ 10 ^ (m + 1) := by
  obtain ⟨k, hk⟩ := exists_ten_zpow_eq_mul (a := m + 1 - n) (b := m + 1) (by omega)
  have hpos := ten_zpow_pos (m + 1 - n)
  exact (projects_onTicks mode hpos).mono hticks (onTicks_of_multiple hpos hk) hv

/-- With at least one digit its own power of ten is on the units as well. -/
theorem OnTicks.ten_zpow_le (hn : 1 ≤ n) (hv : 10 ^ m ≤ v) : 10 ^ m ≤ r := by
  obtain ⟨k, hk⟩ := exists_ten_zpow_eq_mul (a := m + 1 - n) (b := m) (by omega)
  have hpos := ten_zpow_pos (m + 1 - n)
  exact (projects_onTicks mode hpos).mono (onTicks_of_multiple hpos hk) hticks hv

end

variable (hn : 1 ≤ n)
include hn

theorem OnDigits.mono_of_nonneg (hr : OnDigits mode n v r) (hs : OnDigits mode n w s) (hv : 0 ≤ v)
    (h : v ≤ w) : r ≤ s := by
  rcases hr with ⟨-, rfl⟩ | ⟨m, hlow, hhigh, hticks⟩
  · exact hs.nonneg (hv.trans h)
  rcases hs with ⟨rfl, -⟩ | ⟨m', hlow', hhigh', hticks'⟩
  · rw [le_antisymm h hv, abs_zero] at hlow
    exact absurd hlow (not_le.2 (ten_zpow_pos m))
  rw [abs_of_nonneg hv] at hlow hhigh
  rw [abs_of_nonneg (hv.trans h)] at hlow' hhigh'
  rcases (le_of_ten_zpow hlow (h.trans_lt hhigh')).eq_or_lt with rfl | hlt
  · exact hticks.mono_of_nonneg (ten_zpow_pos _) hticks' hv h
  · -- a power of ten stands between the two
    calc r ≤ 10 ^ (m + 1) := hticks.le_ten_zpow hhigh.le
      _ ≤ 10 ^ m' := Bourse.ten_zpow_le hlt
      _ ≤ s := hticks'.ten_zpow_le hn hlow'

/-- What has `n` significant digits is left as it is, also where it was carried to the next
power. -/
theorem OnDigits.fixed (h : OnDigits mode n v r) : OnDigits mode n r r := by
  -- it is enough to look at numbers above zero
  wlog hv : 0 ≤ v generalizing v r
  · have hfixed := this h.neg (neg_nonneg.2 (not_le.1 hv).le)
    simpa using hfixed.neg
  rcases h with ⟨-, rfl⟩ | ⟨m, hlow, hhigh, hticks⟩
  · exact .inl ⟨rfl, rfl⟩
  rw [abs_of_nonneg hv] at hlow hhigh
  have hbelow := hticks.ten_zpow_le hn hlow
  have hr : |r| = r := abs_of_pos ((ten_zpow_pos m).trans_le hbelow)
  rcases (hticks.le_ten_zpow hhigh.le).eq_or_lt with rfl | hlt
  · obtain ⟨k, hk⟩ := exists_ten_zpow_eq_mul (a := m + 1 + 1 - n) (b := m + 1) (by omega)
    refine .inr ⟨m + 1, hr.ge, ?_, onTicks_of_multiple (ten_zpow_pos _) hk⟩
    rw [hr]
    exact (zpow_lt_zpow_iff_right₀ (by norm_num)).2 (by omega)
  · obtain ⟨k, hk⟩ := hticks.multiple
    refine .inr ⟨m, ?_, ?_, onTicks_of_multiple (ten_zpow_pos _) hk⟩
    · rwa [hr]
    · rwa [hr]

/-- **The units of the last significant digit.** -/
theorem projects_onDigits (mode : RoundingMode) : Projects (OnDigits mode n) := by
  refine projects_of_nonneg ?neg ?sign ?mono ?fixed
  case neg => exact fun v r hr => hr.neg
  case sign => exact fun v r hr hv => hr.nonneg hv
  case mono => exact fun v w r s hr hs hv h => hr.mono_of_nonneg hn hs hv h
  case fixed => exact fun v r hr => hr.fixed hn

end

/-! ### Ways of writing -/

/-- Numbers are written by the relation `R`, unless what they come to is out of range. -/
def WritesBy (R : ℚ → ℚ → Prop) (write : Decimal → Result String) : Prop :=
  ∀ v : Decimal, ∃ r, R v.toRat r ∧ Spells (write v) r

theorem spells_zero : Spells (.ok "0") 0 := by
  have hzero : zero.toRat = 0 := toRat_eq_zero_iff.2 rfl
  rw [← hzero]
  exact spells_of_ok rfl (numeralValue?_plain zero)

theorem writesBy_plain : WritesBy Eq fun v => .ok v.plain :=
  fun v => ⟨v.toRat, rfl, spells_of_ok rfl (numeralValue?_plain v)⟩

theorem writesBy_toPlaces (rounding : RoundingMode) (padding : Padding) (places : ℕ) :
    WritesBy (fun v r => OnTicks rounding v (1 / tenTo (min places 28)) r)
      fun v => .ok ((v.toPlaces rounding places).padded padding places) :=
  fun v => ⟨_, onTicks_roundPlaces rounding (min places 28) v,
    spells_of_ok rfl (numeralValue?_padded _ _ _)⟩

theorem writesBy_toSignificant (rounding : RoundingMode) (padding : Padding) {n : ℕ} (hn : 1 ≤ n) :
    WritesBy (OnDigits rounding n) fun v =>
      if v.isZero || n == 0 then .ok "0" else toSignificant rounding padding n v := by
  intro v
  dsimp only
  by_cases hzero : v.isZero = true
  · rw [hzero, Bool.true_or, if_pos rfl]
    exact ⟨0, .inl ⟨toRat_eq_zero_iff.2 hzero, rfl⟩, spells_zero⟩
  · have hsome : ¬ (v.isZero || n == 0) = true := by
      rw [Bool.or_eq_true, beq_iff_eq, not_or]
      exact ⟨hzero, by omega⟩
    rw [if_neg hsome]
    obtain ⟨r, hticks, hspells⟩ := exists_spells_toSignificant rounding padding v hn
    obtain ⟨hlow, hhigh⟩ := leadingPower_spec (mt (isZero_iff v).2 hzero)
    rw [← abs_toRat] at hlow hhigh
    exact ⟨r, .inr ⟨_, hlow, hhigh, hticks⟩, hspells⟩

theorem writesBy_noDigits (rounding : RoundingMode) (padding : Padding) :
    WritesBy (fun _ r => r = 0) fun v =>
      if v.isZero || (0 : ℕ) == 0 then .ok "0" else toSignificant rounding padding 0 v := by
  intro v
  dsimp only
  rw [beq_self_eq_true, Bool.or_true, if_pos rfl]
  exact ⟨0, rfl, spells_zero⟩

section
variable {rounding : RoundingMode} {precision : Option Decimal} {mode : PrecisionMode}

/-- **Every precision but a tick writes by a relation that keeps sign and order**, the same under
every padding, if it writes at all. -/
theorem exists_projects (hmode : mode ≠ .tickSize) {value : Decimal} {padding : Padding}
    {s : String} (h : value.toPrecision rounding precision mode padding = .ok s) :
    ∃ R, Projects R ∧
      ∀ other, WritesBy R fun v => v.toPrecision rounding precision mode other := by
  unfold toPrecision at h ⊢
  cases hfilter : precision.filter fun p => !p.negative with
  | none => exact ⟨_, projects_eq, fun _ => writesBy_plain⟩
  | some p =>
    rw [hfilter] at h
    cases mode with
    | tickSize => exact absurd rfl hmode
    | decimalPlaces =>
      obtain ⟨places, hplaces, -⟩ := bind_eq_ok_iff.1 h
      simp only [hplaces]
      exact ⟨_, projects_onTicks rounding (one_div_pos.2 (tenTo_rat_pos _)),
        fun other => writesBy_toPlaces rounding other places⟩
    | significantDigits =>
      obtain ⟨n, hdigits, -⟩ := bind_eq_ok_iff.1 h
      simp only [hdigits]
      rcases Nat.eq_zero_or_pos n with rfl | hn
      · exact ⟨_, projects_zero, fun other => writesBy_noDigits rounding other⟩
      · exact ⟨_, projects_onDigits hn rounding,
          fun other => writesBy_toSignificant rounding other hn⟩

end

section
variable {R : ℚ → ℚ → Prop} {write : Decimal → Result String} {v : Decimal} {s : String} {a : ℚ}
  (hwrite : WritesBy R write)
include hwrite

theorem WritesBy.of_ok (h : write v = .ok s) :
    ∃ a, numeralValue? s = some a ∧ R v.toRat a ∧ |a| ≤ twoTo 96 - 1 := by
  obtain ⟨a, ha, hspells⟩ := hwrite v
  have hrange : |a| ≤ twoTo 96 - 1 := by
    by_contra hlarge
    obtain ⟨message, herror⟩ := hspells.fails.2 (not_le.1 hlarge)
    rw [h] at herror
    cases herror
  obtain ⟨t, ht, hvalue⟩ := hspells.fits hrange
  rw [h] at ht
  cases ht
  exact ⟨a, hvalue, ha, hrange⟩

theorem WritesBy.exists_ok (hR : Projects R) (ha : R v.toRat a) (hrange : |a| ≤ twoTo 96 - 1) :
    ∃ s, write v = .ok s ∧ numeralValue? s = some a := by
  obtain ⟨b, hb, hspells⟩ := hwrite v
  obtain rfl := hR.unique hb ha
  exact hspells.fits hrange

end

/-! ### Texts -/

section
variable {rounding : RoundingMode} {precision : Option Decimal} {mode : PrecisionMode}
  {padding : Padding} {v w : Decimal} {s t : String}

theorem padded_none (places : ℕ) (d : Decimal) : d.padded .none places = d.plain := by
  unfold padded
  rw [if_pos (.inl rfl)]

/-- Without padding the text is that of the number. -/
theorem eq_plain_of_toPrecision (h : v.toPrecision rounding precision mode .none = .ok s)
    {d : Decimal} (hd : numeralValue? s = some d.toRat) : s = d.plain := by
  obtain ⟨e, places, hpadded⟩ := exists_padded h
  obtain rfl := Except.ok.inj (h.symm.trans (hpadded .none))
  rw [numeralValue?_padded, Option.some.injEq] at hd
  rw [padded_eq_of_toRat_eq hd, padded_none]

/-- Every text reads as a decimal of the number that it spells. -/
theorem exists_ofText?_of_toPrecision (h : v.toPrecision rounding precision mode padding = .ok s)
    {a : ℚ} (ha : numeralValue? s = some a) : ∃ d, ofText? s = some d ∧ d.toRat = a := by
  obtain ⟨e, places, hpadded⟩ := exists_padded h
  obtain rfl := Except.ok.inj (h.symm.trans (hpadded padding))
  rw [numeralValue?_padded, Option.some.injEq] at ha
  rw [padded_eq_text]
  obtain ⟨d, hread, hvalue⟩ := exists_ofText?_withZeros e.normalize (e.zerosAdded padding places)
  exact ⟨d, hread, by rw [hvalue, toRat_normalize, ha]⟩

/-- **Writing is an odd and monotone projection** of the numbers, to fraction digits and to
significant digits: a larger number has no smaller text, the text of the negated number spells the
negated result, and the number of a text, in whatever form, is written again without fail, without
padding by the same text. -/
theorem toPrecision_odd_monotone (hmode : mode ≠ .tickSize)
    (hv : v.toPrecision rounding precision mode padding = .ok s)
    (hw : w.toPrecision rounding precision mode padding = .ok t) :
    ∃ a b, numeralValue? s = some a ∧ numeralValue? t = some b ∧ (v ≤ w → a ≤ b) ∧
      (∃ s', v.neg.toPrecision rounding precision mode padding = .ok s' ∧
        numeralValue? s' = some (-a)) ∧
      (∃ d, ofText? s = some d ∧ d.toRat = a) ∧
      ∀ d : Decimal, d.toRat = a →
        (∃ s', d.toPrecision rounding precision mode padding = .ok s' ∧
          numeralValue? s' = some a) ∧
        (padding = .none → d.toPrecision rounding precision mode padding = .ok s) := by
  obtain ⟨R, hR, hwrites⟩ := exists_projects hmode hv
  have hwrite := hwrites padding
  obtain ⟨a, hs, ha, hrange⟩ := hwrite.of_ok hv
  obtain ⟨b, ht, hb, -⟩ := hwrite.of_ok hw
  refine ⟨a, b, hs, ht, ?mono, ?odd, exists_ofText?_of_toPrecision hv hs, ?again⟩
  case mono => exact fun hle => hR.mono ha hb (le_iff_toRat_le.1 hle)
  case odd =>
    refine hwrite.exists_ok hR ?_ (by rwa [abs_neg])
    rw [toRat_neg]
    exact hR.neg ha
  case again =>
    rintro d rfl
    obtain ⟨s', hs', hvalue⟩ := hwrite.exists_ok hR (hR.fixed ha) hrange
    refine ⟨⟨s', hs', hvalue⟩, ?_⟩
    rintro rfl
    rw [hs', eq_plain_of_toPrecision hs' hvalue, eq_plain_of_toPrecision hv hs]

/-- Numbers on both sides of a hundred with three digits: the one below is carried to it, the one
above is cut down to it. -/
theorem toPrecision_odd_monotone_hundred : ∃ v w precision : Decimal,
    ofPlain? "99.96" = some v ∧ ofPlain? "100.4" = some w ∧ ofPlain? "3" = some precision ∧
      PrecisionMode.significantDigits ≠ .tickSize ∧ v ≤ w ∧
      v.toPrecision .round (some precision) .significantDigits .none = .ok "100" ∧
      w.toPrecision .round (some precision) .significantDigits .none = .ok "100" ∧
      ∃ s', v.neg.toPrecision .round (some precision) .significantDigits .none = .ok s' ∧
        numeralValue? s' = some (-100) := by
  refine ⟨⟨false, 9996, 2, by decide, by decide⟩, ⟨false, 1004, 1, by decide, by decide⟩,
    ⟨false, 3, 0, by decide, by decide⟩, rfl, rfl, rfl, by decide, by decide, ?_⟩
  generalize hv : (⟨false, 9996, 2, _, _⟩ : Decimal) = v
  generalize hw : (⟨false, 1004, 1, _, _⟩ : Decimal) = w
  generalize hprecision : (⟨false, 3, 0, _, _⟩ : Decimal) = precision
  have hs : v.toPrecision .round (some precision) .significantDigits .none = .ok "100" := by
    rw [← hv, ← hprecision]
    rfl
  have ht : w.toPrecision .round (some precision) .significantDigits .none = .ok "100" := by
    rw [← hw, ← hprecision]
    rfl
  obtain ⟨a, -, ha, -, -, hodd, -⟩ := toPrecision_odd_monotone (by decide) hs ht
  have hread : numeralValue? "100" = some 100 := by
    show some ((Nat.ofDigitChars 10 "100".toList 0 : ℕ) : ℚ) = _
    have hdigits : Nat.ofDigitChars 10 "100".toList 0 = 100 := rfl
    rw [hdigits, Nat.cast_ofNat]
  rw [hread, Option.some.injEq] at ha
  exact ⟨hs, ht, ha ▸ hodd⟩

end

end Bourse.Decimal
