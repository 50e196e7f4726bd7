import Bourse.Proofs.Decimal.Canonical
import Bourse.Proofs.Decimal.ReadBack
import Bourse.Proofs.Precision.Conventions
import Bourse.Proofs.Text.Blank

/-! # Written numbers can be read

Whatever a number is written to, the text is a numeral of one form: `ReadableAs` says which. The
ways of writing differ in the number that they come to and in the places that padding fills, and
have the last step in common, which is to pad the normal form of the number (`exists_padded`). What
the text looks like and how it reads is therefore shown once, for that step. -/

namespace Bourse

/-- A numeral has no characters but digits, a sign and a point. -/
theorem Numeral.mem_text {n : Numeral} {c : Char} (h : c ∈ n.text.toList) :
    c = '-' ∨ c = '.' ∨ c.isDigit = true := by
  simp only [text, String.toList_ofList, body, List.mem_append] at h
  rcases h with hsign | hwhole | hrest
  · cases hneg : n.negative <;> rw [hneg] at hsign
    · cases hsign
    · exact .inl (List.mem_singleton.1 hsign)
  · exact .inr (.inr (n.whole_isDigit c hwhole))
  · split at hrest
    · cases hrest
    · exact .inr ((List.mem_cons.1 hrest).imp_right fun hfraction =>
        n.isDigit c (List.mem_append_right _ hfraction))

theorem Numeral.trim_text (n : Numeral) : Text.trim n.text = n.text := by
  refine Text.trim_eq_self fun c hc => ?_
  rcases mem_text hc with rfl | rfl | hdigit
  · rfl
  · rfl
  · exact Text.not_isBlank_of_isDigit hdigit

namespace Decimal

variable {value : Decimal} {rounding : RoundingMode} {precision : Option Decimal}
  {mode : PrecisionMode} {padding : Padding} {s : String}

/-! ### Padding comes last -/

theorem padded_zero (padding : Padding) (d : Decimal) : d.padded padding 0 = d.plain :=
  if_pos (.inr rfl)

theorem exists_padded_of_toSignificant {digits : ℕ}
    (h : toSignificant rounding padding digits value = .ok s) :
    ∃ d places, ∀ other,
      toSignificant rounding other digits value = .ok (padded other places d) := by
  unfold toSignificant at h ⊢
  dsimp only at h ⊢
  by_cases hright : 0 ≤ (digits : ℤ) - value.leadingPower - 1
  · simp only [if_pos hright]
    exact ⟨_, _, fun _ => rfl⟩
  · -- left of the point there is nothing to pad
    simp only [if_neg hright] at h ⊢
    obtain ⟨scaled, -, hproduct⟩ := bind_eq_ok_iff.1 h
    obtain ⟨result, -, htext⟩ := bind_eq_ok_iff.1 hproduct
    cases htext
    refine ⟨result, 0, fun other => ?_⟩
    rw [padded_zero]
    exact h

/-- **Padding comes last**, and whether there is a text does not depend on it. -/
theorem exists_padded (h : value.toPrecision rounding precision mode padding = .ok s) :
    ∃ d places, ∀ other,
      value.toPrecision rounding precision mode other = .ok (padded other places d) := by
  unfold toPrecision at h ⊢
  cases hfilter : precision.filter fun p => !p.negative with
  | none => exact ⟨value, 0, fun other => by rw [padded_zero]⟩
  | some p =>
    rw [hfilter] at h
    cases mode with
    | tickSize =>
      obtain ⟨result, hresult, -⟩ := bind_eq_ok_iff.1 h
      exact ⟨result, p.normalize.scale, fun other => bind_eq_ok_iff.2 ⟨result, hresult, rfl⟩⟩
    | decimalPlaces =>
      obtain ⟨places, hplaces, -⟩ := bind_eq_ok_iff.1 h
      exact ⟨_, places, fun other => bind_eq_ok_iff.2 ⟨places, hplaces, rfl⟩⟩
    | significantDigits =>
      obtain ⟨digits, hdigits, hdone⟩ := bind_eq_ok_iff.1 h
      simp only [bind_eq_ok_iff]
      split at hdone
      · rename_i hnone
        refine ⟨zero, 0, fun other => ⟨digits, hdigits, ?_⟩⟩
        rw [if_pos hnone, padded_zero]
        rfl
      · rename_i hsome
        obtain ⟨d, places, hpadded⟩ := exists_padded_of_toSignificant hdone
        refine ⟨d, places, fun other => ⟨digits, hdigits, ?_⟩⟩
        rw [if_neg hsome]
        exact hpadded other

/-! ### What padding leaves -/

/-- Padding with zeros fills the places. -/
theorem shownPlaces_padded {d : Decimal} {places : ℕ} (h : d.normalize.scale ≤ places) :
    shownPlaces (d.padded .zeros places).toList = places := by
  rw [padded_eq_text, shownPlaces_text]
  show (d.normalize.numeral.fraction ++ List.replicate (places - d.normalize.scale) '0').length = _
  rw [List.length_append, length_fraction_numeral, List.length_replicate]
  omega

theorem scale_normalize_toPlaces_le (rounding : RoundingMode) (places : ℕ) (value : Decimal) :
    (value.toPlaces rounding places).normalize.scale ≤ places :=
  ((stripZeros_le _ _).1.trans (scale_roundPlaces_le _ _ _)).trans (min_le_left _ _)

/-! ### The form of a text -/

/-- The numeral `n` is what `value` is written as. -/
structure ReadableAs (value : Decimal) (rounding : RoundingMode) (precision : Option Decimal)
    (mode : PrecisionMode) (padding : Padding) (s : String) (n : Numeral) : Prop where
  text : s = n.text
  canonical : n.Canonical
  spells : numeralValue? s = some n.value
  stripped : padding = .none → n.fraction.getLast? ≠ some '0'
  /-- Padding makes no difference to the number. -/
  paddings : ∀ other, ∃ t, value.toPrecision rounding precision mode other = .ok t ∧
    numeralValue? t = some n.value
  /-- Fraction digits that are asked for are there. -/
  places : mode = .decimalPlaces → padding = .zeros → ∀ p, precision = some p → 0 < p.toRat →
    (n.fraction.length : ℚ) = p.toRat
  /-- Without a precision nothing is rounded. -/
  kept : (∀ p, precision = some p → p.negative = true) → n.value = value.toRat
  /-- Wherever the text stands in a document, the decimal there is the number. -/
  readBack : ∀ (document : Json) key, document.at? key = some (.str s) →
    ∃ d, document.getDecimal? key = some d ∧ d.toRat = n.value

theorem getDecimal?_text {document : Json} {key : Json.Key} {n : Numeral}
    (h : document.at? key = some (.str n.text)) : document.getDecimal? key = ofText? n.text := by
  have hget : document.get? key = some (.str n.text) := by
    rw [Json.get?, h]
    rfl
  rw [Json.getDecimal?, hget, Option.bind_some, Json.decimal?, n.trim_text]

theorem length_fraction_of_decimalPlaces {p : Decimal} {n : Numeral} (hp : 0 < p.toRat)
    (h : value.toPrecision rounding (some p) .decimalPlaces .zeros = .ok n.text) :
    (n.fraction.length : ℚ) = p.toRat := by
  unfold toPrecision at h
  rw [filter_of_not_negative ((toRat_pos_iff p).1 hp).1] at h
  obtain ⟨places, hplaces, htext⟩ := bind_eq_ok_iff.1 h
  have hshown := shownPlaces_padded (scale_normalize_toPlaces_le rounding places value)
  rw [Except.ok.inj htext, shownPlaces_text] at hshown
  rw [hshown, toRat_of_digitCount hplaces]

theorem toPrecision_of_negative (h : ∀ p, precision = some p → p.negative = true) :
    value.toPrecision rounding precision mode padding = .ok value.plain := by
  have hfilter : (precision.filter fun p => !p.negative) = none := by
    rw [Option.filter_eq_none_iff]
    intro p hp
    rw [h p hp]
    decide
  unfold toPrecision
  rw [hfilter]

/-- **Written numbers can be read**: under every precision, rounding and padding the text is a plain
numeral without needless zeros and signs in front, and reads as the number that it spells. -/
theorem toPrecision_is_readable
    (h : value.toPrecision rounding precision mode padding = .ok s) :
    ∃ n, ReadableAs value rounding precision mode padding s n := by
  obtain ⟨d, places, hpadded⟩ := exists_padded h
  have htext := Except.ok.inj (h.symm.trans (hpadded padding))
  have hvalue : (d.normalize.numeral.withZeros (d.zerosAdded padding places)).value = d.toRat := by
    rw [Numeral.value_withZeros, value_numeral, toRat_normalize]
  rw [padded_eq_text] at htext
  subst htext
  refine ⟨d.normalize.numeral.withZeros (d.zerosAdded padding places), ?_⟩
  constructor
  case text => rfl
  case canonical => exact d.canonical_normalize.withZeros _
  case spells => exact Numeral.numeralValue?_text _
  case stripped =>
    rintro rfl
    rw [zerosAdded, if_pos rfl, Numeral.withZeros_zero]
    exact d.getLast?_fraction_normalize
  case paddings =>
    intro other
    exact ⟨_, hpadded other, by rw [numeralValue?_padded, hvalue]⟩
  case places =>
    rintro rfl rfl p rfl hp
    exact length_fraction_of_decimalPlaces hp h
  case kept =>
    intro hnegative
    rw [toPrecision_of_negative hnegative] at h
    have hplain := numeralValue?_plain value
    rw [Except.ok.inj h, Numeral.numeralValue?_text] at hplain
    exact Option.some.inj hplain
  case readBack =>
    intro document key hat
    obtain ⟨e, he, hsame⟩ := exists_ofText?_withZeros d.normalize (d.zerosAdded padding places)
    rw [getDecimal?_text hat, hvalue]
    exact ⟨e, he, hsame.trans d.toRat_normalize⟩

/-- More places are shown than a decimal has. -/
theorem toPrecision_is_readable_thirty : ∃ value places : Decimal,
    ofPlain? "-1.995" = some value ∧ ofPlain? "30" = some places ∧
      value.toPrecision .round (some places) .decimalPlaces .zeros
        = .ok "-1.995000000000000000000000000000" ∧
      ∃ n, ReadableAs value .round (some places) .decimalPlaces .zeros
        "-1.995000000000000000000000000000" n := by
  refine ⟨⟨true, 1995, 3, by decide, by decide⟩, ⟨false, 30, 0, by decide, by decide⟩, rfl, rfl, ?_⟩
  generalize hvalue : (⟨true, 1995, 3, _, _⟩ : Decimal) = value
  generalize hplaces : (⟨false, 30, 0, _, _⟩ : Decimal) = places
  have htext : value.toPrecision .round (some places) .decimalPlaces .zeros
      = .ok "-1.995000000000000000000000000000" := by
    rw [← hvalue, ← hplaces]
    rfl
  exact ⟨htext, toPrecision_is_readable htext⟩

end Decimal

end Bourse
