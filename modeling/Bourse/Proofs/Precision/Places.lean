import Bourse.Proofs.Precision.Readable
import Bourse.Proofs.Precision.Significant

/-! # Fraction digits

A precision of `p` fraction digits leaves a number on the units of its `p`-th place, of which there
are at most 28 (`WrittenToPlaces.nearest`). A precision counts digits in one of two ways only: as
the whole number that it is, in any form, or not at all (`digitCount_eq_error_iff`), and the second
is the only fault. A precision with a sign is none, also where it is zero
(`signed_zero_keeps_fraction`). -/

namespace Bourse.Decimal

/-! ### Counting digits -/

theorem lt_of_digitCount {places : Decimal} {u : ℕ} (h : digitCount places = .ok u) :
    u < twoTo 32 := by
  unfold digitCount at h
  split_ifs at h with hwhole hrange
  cases h
  rw [Bool.or_eq_true, decide_eq_true_eq, not_or] at hrange
  exact Nat.lt_of_not_le hrange.2

theorem internal_of_digitCount {places : Decimal} {e : Error} (h : digitCount places = .error e) :
    ∃ message, e = .internal message := by
  unfold digitCount at h
  split_ifs at h
  · cases h
    exact ⟨_, rfl⟩
  · cases h
    exact ⟨_, rfl⟩

/-- **What does not count digits**: a number that is not whole or needs more than 32 bits. -/
theorem digitCount_eq_error_iff {places : Decimal} (hsign : places.negative = false) :
    (∃ e, digitCount places = .error e) ↔ ∀ p : ℕ, places.toRat = p → twoTo 32 ≤ p := by
  constructor
  · rintro ⟨e, he⟩ p hp
    by_contra hlt
    rw [digitCount_eq_ok hp hsign (not_le.1 hlt)] at he
    cases he
  · intro hnone
    cases hcount : digitCount places with
    | error e => exact ⟨e, rfl⟩
    | ok p =>
      exact absurd (hnone p (toRat_of_digitCount hcount)) (not_le.2 (lt_of_digitCount hcount))

/-! ### Writing -/

/-- What comes of writing a number to fraction digits. -/
structure WrittenToPlaces (value precision : Decimal) (mode : RoundingMode)
    (outcome : Result String) : Prop where
  /-- A whole precision leaves the multiple of the last place that the mode demands. -/
  nearest : precision.negative = false → ∀ p : ℕ, precision.toRat = p → p < twoTo 32 →
    ∃ text r, outcome = .ok text ∧ numeralValue? text = some r ∧
      OnTicks mode value.toRat (1 / tenTo (min p 28)) r
  /-- A precision with a sign leaves the number. -/
  unlimited : precision.negative = true →
    ∃ text, outcome = .ok text ∧ numeralValue? text = some value.toRat
  /-- Nothing else fails than a precision that counts no digits ... -/
  refused : (∃ e, outcome = .error e) ↔
    precision.negative = false ∧ ∀ p : ℕ, precision.toRat = p → twoTo 32 ≤ p
  /-- ... which is a fault of the library. -/
  internal : ∀ e, outcome = .error e → ∃ message, e = .internal message

theorem toPrecision_decimalPlaces_eq {precision : Decimal} (hsign : precision.negative = false)
    (value : Decimal) (mode : RoundingMode) (padding : Padding) :
    value.toPrecision mode (some precision) .decimalPlaces padding
      = (digitCount precision >>= fun places =>
          .ok ((value.toPlaces mode places).padded padding places)) := by
  unfold toPrecision
  rw [filter_of_not_negative hsign]
  rfl

/-- Writing to fraction digits fails as counting them does. -/
theorem toPrecision_decimalPlaces_eq_error_iff {precision : Decimal}
    (hsign : precision.negative = false) {value : Decimal} {mode : RoundingMode} {padding : Padding}
    {e : Error} : value.toPrecision mode (some precision) .decimalPlaces padding = .error e ↔
      digitCount precision = .error e := by
  rw [toPrecision_decimalPlaces_eq hsign, bind_eq_error_iff]
  exact or_iff_left nofun

/-- **Fraction digits are right for every number**, in every form of the precision: the text spells
the multiple of the unit that the mode demands, whatever it carries or cuts. -/
theorem toPrecision_writtenToPlaces (value precision : Decimal) (mode : RoundingMode)
    (padding : Padding) : WrittenToPlaces value precision mode
      (value.toPrecision mode (some precision) .decimalPlaces padding) := by
  cases hsign : precision.negative with
  | true =>
    have hnot : precision.negative ≠ false := by rw [hsign]; decide
    have htext : value.toPrecision mode (some precision) .decimalPlaces padding
        = .ok value.plain := toPrecision_of_negative fun p hp => Option.some.inj hp ▸ hsign
    rw [htext]
    constructor
    case nearest => exact fun hfalse => absurd hfalse hnot
    case unlimited => exact fun _ => ⟨_, rfl, numeralValue?_plain value⟩
    case refused => exact iff_of_false nofun fun h => hnot h.1
    case internal => exact nofun
  | false =>
    constructor
    case nearest =>
      intro _ p hp hbits
      exact ⟨_, _, toPrecision_decimalPlaces hp hsign hbits value mode padding,
        numeralValue?_padded _ _ _, onTicks_roundPlaces mode (min p 28) value⟩
    case unlimited => exact fun htrue => absurd (hsign.symm.trans htrue) nofun
    case refused =>
      simp only [toPrecision_decimalPlaces_eq_error_iff hsign, hsign, true_and]
      exact digitCount_eq_error_iff hsign
    case internal =>
      intro e he
      exact internal_of_digitCount ((toPrecision_decimalPlaces_eq_error_iff hsign).1 he)

/-- **Zero with a sign is no precision**: the fraction is kept, where zero leaves a whole number. -/
theorem signed_zero_keeps_fraction : ∃ value precision : Decimal,
    ofText? "5.55" = some value ∧ ofText? "-0.4e-28" = some precision ∧
      precision.toRat = (0 : ℕ) ∧
      value.toPrecision .round (some precision) .decimalPlaces .none = .ok "5.55" ∧
      ¬ ∃ text r, value.toPrecision .round (some precision) .decimalPlaces .none = .ok text ∧
        numeralValue? text = some r ∧ OnTicks .round value.toRat (1 / tenTo (min 0 28)) r := by
  refine ⟨⟨false, 555, 2, by decide, by decide⟩, ⟨true, 0, 28, by decide, by decide⟩,
    by decide +kernel, by decide +kernel, ?_, rfl, ?_⟩
  · simp [toRat, mantissa, signed]
  · rintro ⟨text, r, htext, hr, hticks⟩
    obtain rfl := Except.ok.inj htext
    have hvalue : r = 111 / 20 := by
      rw [numeralValue?_plain, Option.some.injEq] at hr
      rw [← hr]
      have hunits : tenTo 2 = 100 := rfl
      simp only [toRat, mantissa, signed, hunits]
      norm_num
    -- a multiple of one is a whole number
    obtain ⟨k, hk⟩ := hticks.multiple
    rw [hvalue, Nat.zero_min, tenTo_zero, Nat.cast_one, div_one, mul_one] at hk
    have hwhole : (111 : ℤ) = 20 * k := by
      exact_mod_cast (by linarith : (111 : ℚ) = 20 * k)
    omega

/-- A negative tie behind a run of nines carries to the next power of ten. -/
example : ((ofPlain? "-9.9950").map fun value => value.toPrecision .round (ofPlain? "2.0")
    .decimalPlaces .none) = some (.ok "-10") := rfl

end Bourse.Decimal
