import Bourse.Proofs.Precision.Conventions

/-! # When a number has no text to a tick

Writing a number to a tick above zero fails only where a result has no room in a decimal: the
quotient, or the whole number of ticks that it is rounded to (`Overflows`). A tick of zero is
refused for every number, and one below zero is no tick at all.

* `exists_text_of_not_overflows`, `error_of_overflows`: a tick above zero;
* `toPrecision_of_zero`: a tick of zero. -/

namespace Bourse.Decimal

/-- The arithmetic of writing a number to a tick overflows. -/
inductive Overflows (mode : RoundingMode) (value tick : Decimal) : Prop
  | quotient : ¬ HasRoom (value.size / tick.size) → Overflows mode value tick
  | multiple {ticks : Decimal} : value.div? tick = some ticks →
      ¬ HasRoom ((ticks.roundPlaces mode.rule 0).size * tick.size) → Overflows mode value tick

variable {mode : RoundingMode} {value tick : Decimal}

theorem toTicks_of_overflows (htick : 0 < tick.toRat) (h : Overflows mode value tick) :
    ∃ detail, toTicks mode tick value = .error (.internal ("Overflow " ++ detail)) := by
  have hcoeff : tick.coefficient ≠ 0 := ((toRat_pos_iff tick).1 htick).2
  have hzero : ¬ tick.isZero = true := mt (isZero_iff tick).1 hcoeff
  unfold toTicks
  rw [if_neg hzero]
  cases h with
  | quotient hroom =>
    have hnone : value.div? tick = none := by
      rw [Option.eq_none_iff_forall_ne_some]
      exact fun ticks hticks => hroom ((exists_div?_iff hcoeff).1 ⟨ticks, hticks⟩)
    have htext : "Overflow dividing " = "Overflow " ++ "dividing " := rfl
    rw [hnone, htext]
    refine ⟨"dividing " ++ value.toText ++ " by tick " ++ tick.toText, ?_⟩
    simp only [String.append_assoc]
    rfl
  | @multiple ticks hdiv hroom =>
    have hnone : (ticks.roundPlaces mode.rule 0).mul? tick = none := by
      rw [Option.eq_none_iff_forall_ne_some]
      exact fun result hresult => hroom (exists_mul?_iff.1 ⟨result, hresult⟩)
    have htext : "Overflow scaling " = "Overflow " ++ "scaling " := rfl
    rw [hdiv, htext]
    refine ⟨"scaling " ++ (ticks.roundPlaces mode.rule 0).toText ++ " ticks of " ++ tick.toText, ?_⟩
    simp only [String.append_assoc]
    show Error.require ((ticks.roundPlaces mode.rule 0).mul? tick) _ = _
    rw [hnone]
    rfl

/-- **A number has a text** to a tick above zero if nothing overflows. -/
theorem exists_text_of_not_overflows (htick : 0 < tick.toRat) (h : ¬ Overflows mode value tick)
    (padding : Padding) :
    ∃ text, value.toPrecision mode (some tick) .tickSize padding = .ok text := by
  have hcoeff : tick.coefficient ≠ 0 := ((toRat_pos_iff tick).1 htick).2
  have hquotient : HasRoom (value.size / tick.size) := by
    by_contra hroom
    exact h (.quotient hroom)
  obtain ⟨ticks, hdiv⟩ := (exists_div?_iff hcoeff).2 hquotient
  have hmultiple : HasRoom ((ticks.roundPlaces mode.rule 0).size * tick.size) := by
    by_contra hroom
    exact h (.multiple hdiv hroom)
  obtain ⟨result, hmul⟩ := exists_mul?_iff.2 hmultiple
  refine ⟨result.padded padding tick.normalize.scale, ?_⟩
  rw [toPrecision_tickSize_eq htick, toTicks_eq_ok_iff.2 ⟨ticks, hdiv, hmul⟩]
  rfl

/-- Otherwise the failure is an overflow. -/
theorem error_of_overflows (htick : 0 < tick.toRat) (h : Overflows mode value tick)
    (padding : Padding) :
    ∃ detail, value.toPrecision mode (some tick) .tickSize padding =
      .error (.internal ("Overflow " ++ detail)) := by
  obtain ⟨detail, herror⟩ := toTicks_of_overflows htick h
  refine ⟨detail, ?_⟩
  rw [toPrecision_tickSize_eq htick, herror]
  rfl

/-- **A tick of zero** is refused, whatever the number is. -/
theorem toPrecision_of_zero (hzero : tick.isZero = true) (hsign : tick.negative = false)
    (padding : Padding) :
    value.toPrecision mode (some tick) .tickSize padding =
      .error (.internal "Tick size must be positive") := by
  unfold toPrecision
  rw [filter_of_not_negative hsign]
  show (toTicks mode tick value >>= _) = _
  unfold toTicks
  rw [if_pos hzero]
  rfl

end Bourse.Decimal
