import Bourse.Proofs.Precision.Readable
import Bourse.Proofs.Precision.Significant

/-! # Significant digits that are shown

`Text.significantDigits` counts the digits of a text from the first one that is not zero. For a
numeral they are as many as lie between its leading digit and its last place
(`Numeral.significantDigits_text`). Padding writes a number up to the last wanted place, which is
found from the number before it is rounded: the digits shown are the wanted ones, but for a carry
into a new leading digit, which is shown beside them (`toPrecision_showsDigits`). -/

namespace Bourse

/-! ### Counting digits -/

namespace Text

/-- How many digits a text shows from the first one on that is not zero. -/
def significantDigits (s : String) : ℕ :=
  ((s.toList.filter Char.isDigit).dropWhile (· == '0')).length

variable {ds : List Char}

/-- Zeros in front are worth nothing. -/
theorem ofDigitChars_dropWhile_zeros (ds : List Char) :
    Nat.ofDigitChars 10 (ds.dropWhile (· == '0')) 0 = Nat.ofDigitChars 10 ds 0 := by
  induction ds with
  | nil => rfl
  | cons c ds ih =>
    by_cases hc : c = '0'
    · subst hc
      rw [List.dropWhile_cons_of_pos rfl, ih, Nat.ofDigitChars_cons]
      rfl
    · rw [List.dropWhile_cons_of_neg (by simpa using hc)]

/-- A leading digit is worth at least one at its place. -/
theorem tenTo_le_ofDigitChars {c : Char} (hc : c.isDigit = true) (hzero : c ≠ '0')
    (ds : List Char) : tenTo ds.length ≤ Nat.ofDigitChars 10 (c :: ds) 0 := by
  have hpos : 1 ≤ 10 * 0 + (c.toNat - '0'.toNat) := by
    have hle := (Char.isDigit_iff_toNat.1 hc).1
    have hne : c.toNat ≠ '0'.toNat := fun h => hzero (Char.toNat_inj.1 h)
    omega
  rw [Nat.ofDigitChars_cons, Nat.ofDigitChars_eq_ofDigitChars_zero]
  have hplace := Nat.mul_le_mul_left (10 ^ ds.length) hpos
  have hten : tenTo ds.length = 10 ^ ds.length := rfl
  omega

/-- **Digits from the leading one on** are as many as the number needs. -/
theorem length_dropWhile_zeros (hds : ∀ c ∈ ds, c.isDigit = true) {k : ℕ}
    (hlow : tenTo k ≤ Nat.ofDigitChars 10 ds 0) (hhigh : Nat.ofDigitChars 10 ds 0 < tenTo (k + 1)) :
    (ds.dropWhile (· == '0')).length = k + 1 := by
  have hdigit : ∀ c ∈ ds.dropWhile (· == '0'), c.isDigit = true := fun c hc =>
    hds c (List.dropWhile_subset _ hc)
  have hhead := List.head?_dropWhile_not (· == '0') ds
  rw [← ofDigitChars_dropWhile_zeros] at hlow hhigh
  generalize ds.dropWhile (· == '0') = rest at hdigit hhead hlow hhigh ⊢
  cases rest with
  | nil =>
    have hpos := tenTo_pos k
    rw [Nat.ofDigitChars_nil] at hlow
    omega
  | cons c rest =>
    have hzero : c ≠ '0' := by simpa using hhead
    have hle := tenTo_le_ofDigitChars (hdigit c List.mem_cons_self) hzero rest
    have hlt := ofDigitChars_lt hdigit 0
    have hten : 10 ^ (c :: rest).length * (0 + 1) = tenTo (c :: rest).length := Nat.mul_one _
    have hshort : rest.length < k + 1 := by
      by_contra hge
      have := tenTo_le_tenTo (not_lt.1 hge)
      omega
    have hlong : k < (c :: rest).length := by
      by_contra hge
      have := tenTo_le_tenTo (not_lt.1 hge)
      omega
    rw [List.length_cons] at hlong ⊢
    omega

end Text

namespace Numeral

/-- Without sign and point the digits are left. -/
theorem filter_isDigit_text (n : Numeral) :
    n.text.toList.filter Char.isDigit = n.whole ++ n.fraction := by
  have hsign : (if n.negative then ['-'] else []).filter Char.isDigit = [] := by
    cases n.negative <;> rfl
  have hbody : n.body.filter Char.isDigit = n.whole ++ n.fraction := by
    have hall : (n.whole ++ n.fraction).filter Char.isDigit = n.whole ++ n.fraction :=
      List.filter_eq_self.2 n.isDigit
    unfold body
    split
    · rename_i hf
      rw [hf] at hall ⊢
      exact hall
    · rw [List.filter_append, List.filter_cons_of_neg (by decide), ← List.filter_append, hall]
  rw [text, String.toList_ofList, List.filter_append, hsign, hbody, List.nil_append]

theorem abs_value_mul_tenTo (n : Numeral) : |n.value| * tenTo n.fraction.length
    = (Nat.ofDigitChars 10 (n.whole ++ n.fraction) 0 : ℕ) := by
  have hnonneg : (0 : ℚ) ≤ (Nat.ofDigitChars 10 (n.whole ++ n.fraction) 0 : ℕ) /
      tenTo n.fraction.length := by positivity
  rw [value, Decimal.abs_withSign, abs_of_nonneg hnonneg, div_mul_cancel₀ _ (tenTo_rat_ne_zero _)]

/-- **The significant digits of a numeral** reach from its leading digit to its last place. -/
theorem significantDigits_text {n : Numeral} {k : ℕ}
    (hlow : (tenTo k : ℚ) ≤ |n.value| * tenTo n.fraction.length)
    (hhigh : |n.value| * tenTo n.fraction.length < tenTo (k + 1)) :
    Text.significantDigits n.text = k + 1 := by
  rw [abs_value_mul_tenTo] at hlow hhigh
  rw [Text.significantDigits, filter_isDigit_text]
  exact Text.length_dropWhile_zeros n.isDigit (by exact_mod_cast hlow) (by exact_mod_cast hhigh)

end Numeral

namespace Decimal

open Rounding

/-! ### Carries -/

/-- Rounding to `n` digits takes a number with its leading digit at `10 ^ m` up to the next power of
ten. -/
def Carries (mode : RoundingMode) (v : ℚ) (m : ℤ) (n : ℕ) : Prop :=
  mode = .round ∧ (10 : ℚ) ^ (m + 1) - 10 ^ (m + 1 - n) / 2 ≤ |v|

/-- A number is rounded to as many digits as its whole part has, or to the power of ten above. -/
theorem rounds_leading {mode : RoundingMode} {x : ℚ} {count k : ℕ}
    (h : Rounds mode.rule x count) (hlow : (tenTo k : ℚ) ≤ x) (hhigh : x < tenTo (k + 1)) :
    tenTo k ≤ count ∧ count ≤ tenTo (k + 1) ∧
      (count = tenTo (k + 1) ↔ mode = .round ∧ (tenTo (k + 1) : ℚ) - 1 / 2 ≤ x) := by
  have hge : tenTo k ≤ count := (rounds_natCast mode.rule _).mono h hlow
  have hle : count ≤ tenTo (k + 1) := h.mono (rounds_natCast mode.rule _) hhigh.le
  refine ⟨hge, hle, ?_⟩
  cases mode with
  | truncate =>
    obtain ⟨hcut, -⟩ := h
    constructor
    · rintro rfl
      exact absurd hcut (not_le.2 hhigh)
    · rintro ⟨hmode, -⟩
      cases hmode
  | round =>
    obtain ⟨hdown, hup⟩ := h
    constructor
    · rintro rfl
      exact ⟨rfl, hdown⟩
    · rintro ⟨-, hhalf⟩
      have hlt : (tenTo (k + 1) : ℚ) < count + 1 := by linarith
      exact le_antisymm hle (Nat.lt_succ_iff.1 (by exact_mod_cast hlt))

/-! ### What a padded text shows -/

/-- What the text of a number with its leading digit at `10 ^ m` shows of it. -/
structure ShowsDigits (mode : RoundingMode) (v : ℚ) (m : ℤ) (n : ℕ) (text : String) : Prop where
  /-- The number is the multiple of the last wanted place that the mode demands, and not zero. -/
  spells : ∃ r, numeralValue? text = some r ∧ r ≠ 0 ∧ OnTicks mode v (10 ^ (m + 1 - n)) r
  /-- The text ends at that place. -/
  places : (shownPlaces text.toList : ℤ) = n - m - 1
  exact : ¬ Carries mode v m n → Text.significantDigits text = n
  /-- A carry adds a digit in front and takes none away. -/
  carried : Carries mode v m n → Text.significantDigits text = n + 1 ∧
    ∃ r, numeralValue? text = some r ∧ |r| = 10 ^ (m + 1)

section
variable {value precision : Decimal} {m : ℤ} {n : ℕ}

/-- Padding a number that is rounded to `p` places writes all of them. -/
theorem exists_padded_roundPlaces (rule : Rounding) (p : ℕ) (value : Decimal) :
    ∃ t : Numeral, (value.roundPlaces rule p).padded .zeros p = t.text ∧ t.fraction.length = p ∧
      t.value = (value.roundPlaces rule p).toRat := by
  have hscale : (value.roundPlaces rule p).normalize.scale ≤ p :=
    (stripZeros_le _ _).1.trans (scale_roundPlaces_le rule p value)
  refine ⟨_, padded_eq_text .zeros p _, ?_, ?_⟩
  · rw [← shownPlaces_text, ← padded_eq_text]
    exact shownPlaces_padded hscale
  · rw [Numeral.value_withZeros, value_numeral, toRat_normalize]

/-- The last of `n` digits stands at the last of `p` places if the leading one stands `n - 1` in
front of it. -/
theorem showsDigits_of_numeral {mode : RoundingMode} {k p : ℕ} {t : Numeral}
    (hfraction : t.fraction.length = p) (hvalue : t.value = (value.roundPlaces mode.rule p).toRat)
    (hlow : (tenTo k : ℚ) ≤ |value.toRat| * tenTo p)
    (hhigh : |value.toRat| * tenTo p < tenTo (k + 1)) :
    ShowsDigits mode value.toRat ((k : ℤ) - p) (k + 1) t.text := by
  have hpos := tenTo_rat_pos p
  obtain ⟨count, hcount, hsize⟩ := exists_size_roundPlaces mode.rule p value
  rw [← abs_toRat] at hcount hsize
  obtain ⟨hge, hle, hcarry⟩ := rounds_leading hcount hlow hhigh
  have hunits : |t.value| * tenTo t.fraction.length = count := by rw [hfraction, hvalue, hsize]
  have hnonzero : t.value ≠ 0 := by
    intro h0
    rw [h0, abs_zero, zero_mul] at hunits
    have hcount0 : count = 0 := by exact_mod_cast hunits.symm
    have := tenTo_pos k
    omega
  -- the powers of ten of the statement, over the last place
  have hunit : (10 : ℚ) ^ ((k : ℤ) - p + 1 - (k + 1 : ℕ)) = 1 / tenTo p := by
    rw [show (k : ℤ) - p + 1 - (k + 1 : ℕ) = ((0 : ℕ) : ℤ) - p by push_cast; ring, ten_zpow_sub,
      tenTo_zero, Nat.cast_one]
  have hnext : (10 : ℚ) ^ ((k : ℤ) - p + 1) = tenTo (k + 1) / tenTo p := by
    rw [show (k : ℤ) - p + 1 = ((k + 1 : ℕ) : ℤ) - p by push_cast; ring, ten_zpow_sub]
  have hcarries : Carries mode value.toRat ((k : ℤ) - p) (k + 1) ↔ count = tenTo (k + 1) := by
    rw [hcarry, Carries, hunit, hnext, div_right_comm, ← sub_div, div_le_iff₀ hpos]
  constructor
  case spells =>
    refine ⟨t.value, t.numeralValue?_text, hnonzero, ?_⟩
    rw [hunit, hvalue]
    exact onTicks_roundPlaces mode p value
  case places =>
    rw [shownPlaces_text, hfraction]
    push_cast
    ring
  case exact =>
    intro hno
    have hlt : count < tenTo (k + 1) := lt_of_le_of_ne hle fun h => hno (hcarries.2 h)
    exact Numeral.significantDigits_text (by rw [hunits]; exact_mod_cast hge)
      (by rw [hunits]; exact_mod_cast hlt)
  case carried =>
    intro hyes
    have hcount := hcarries.1 hyes
    refine ⟨?_, t.value, t.numeralValue?_text, ?_⟩
    · have hlt : tenTo (k + 1) < tenTo (k + 1 + 1) := by
        have := tenTo_pos (k + 1)
        rw [tenTo_succ (k + 1)]
        omega
      exact Numeral.significantDigits_text (by rw [hunits, hcount])
        (by rw [hunits, hcount]; exact_mod_cast hlt)
    · rw [hnext, eq_div_iff hpos.ne', ← hfraction, hunits, hcount]

/-- **Padding shows the wanted digits**, from the leading one to the last wanted place, unless
rounding carries into a new one: then there is one more. -/
theorem toPrecision_showsDigits (hlow : (10 : ℚ) ^ m ≤ |value.toRat|)
    (hhigh : |value.toRat| < 10 ^ (m + 1)) (hprecision : precision.toRat = n) (hn : 1 ≤ n)
    (hbehind : m + 1 < n) (hplaces : (n : ℤ) ≤ m + 29) (mode : RoundingMode) :
    ∃ text, value.toPrecision mode (some precision) .significantDigits .zeros = .ok text ∧
      ShowsDigits mode value.toRat m n text := by
  have hpower := leadingPower_eq hlow hhigh
  have hlargest := value.leadingPower_add_scale_le
  obtain ⟨k, rfl⟩ : ∃ k, n = k + 1 := Nat.exists_eq_succ_of_ne_zero (by omega)
  obtain ⟨p, hp⟩ : ∃ p : ℕ, ((k + 1 : ℕ) : ℤ) - m - 1 = p := Int.eq_ofNat_of_zero_le (by omega)
  obtain rfl : m = (k : ℤ) - p := by omega
  have hp28 : p ≤ maxScale := by
    have : (p : ℤ) ≤ 28 := by omega
    exact_mod_cast this
  have hbits : k + 1 < twoTo 32 := lt_trans (by omega : k + 1 < 100) (by decide)
  obtain ⟨t, htext, hfraction, hvalue⟩ := exists_padded_roundPlaces mode.rule p value
  refine ⟨t.text, ?_, showsDigits_of_numeral hfraction hvalue ?_ ?_⟩
  · rw [toPrecision_eq_toSignificant mode .zeros (coefficient_ne_zero_of_le hlow) hprecision hn
      hbits, toSignificant_behind mode .zeros (hpower ▸ hp), min_eq_left hp28, htext]
  · rwa [ten_zpow_sub, div_le_iff₀ (tenTo_rat_pos p)] at hlow
  · rwa [show (k : ℤ) - p + 1 = ((k + 1 : ℕ) : ℤ) - p by push_cast; ring, ten_zpow_sub,
      lt_div_iff₀ (tenTo_rat_pos p)] at hhigh

end

/-- The last place that there is: 28 zeros behind the point of a whole number. -/
theorem toPrecision_showsDigits_of_whole : ∃ value precision : Decimal,
    ofPlain? "-123" = some value ∧ ofPlain? "31" = some precision ∧
      (10 : ℚ) ^ (2 : ℤ) ≤ |value.toRat| ∧ |value.toRat| < 10 ^ ((2 : ℤ) + 1) ∧
      precision.toRat = (31 : ℕ) ∧ 1 ≤ 31 ∧ (2 : ℤ) + 1 < (31 : ℕ) ∧ ((31 : ℕ) : ℤ) ≤ 2 + 29 ∧
      value.toPrecision .truncate (some precision) .significantDigits .zeros
        = .ok "-123.0000000000000000000000000000" ∧
      ShowsDigits .truncate value.toRat 2 31 "-123.0000000000000000000000000000" := by
  refine ⟨⟨true, 123, 0, by decide, by decide⟩, ⟨false, 31, 0, by decide, by decide⟩, rfl, rfl, ?_⟩
  generalize hvalue : (⟨true, 123, 0, _, _⟩ : Decimal) = value
  generalize hprecision : (⟨false, 31, 0, _, _⟩ : Decimal) = precision
  have hv : value.toRat = -123 := by
    rw [← hvalue]
    simp [toRat, mantissa, signed]
  have hp : precision.toRat = (31 : ℕ) := by
    rw [← hprecision]
    simp [toRat, mantissa, signed]
  have hlow : (10 : ℚ) ^ (2 : ℤ) ≤ |value.toRat| := by norm_num [hv]
  have hhigh : |value.toRat| < (10 : ℚ) ^ ((2 : ℤ) + 1) := by norm_num [hv]
  have htext : value.toPrecision .truncate (some precision) .significantDigits .zeros
      = .ok "-123.0000000000000000000000000000" := by
    rw [← hvalue, ← hprecision]
    rfl
  obtain ⟨text, hok, hshows⟩ := toPrecision_showsDigits hlow hhigh hp (by decide) (by decide)
    (by decide) .truncate
  rw [htext] at hok
  exact ⟨hlow, hhigh, hp, by decide, by decide, by decide, htext, Except.ok.inj hok ▸ hshows⟩

/-- **A carry shows a digit too many**: of two significant digits three are shown. -/
theorem carry_shows_third_digit : ∃ value precision : Decimal,
    ofPlain? "9.99" = some value ∧ ofPlain? "2" = some precision ∧
      (10 : ℚ) ^ (0 : ℤ) ≤ |value.toRat| ∧ |value.toRat| < 10 ^ ((0 : ℤ) + 1) ∧
      precision.toRat = (2 : ℕ) ∧
      value.toPrecision .round (some precision) .significantDigits .zeros = .ok "10.0" ∧
      Text.significantDigits "10.0" = 3 := by
  refine ⟨⟨false, 999, 2, by decide, by decide⟩, ⟨false, 2, 0, by decide, by decide⟩, rfl, rfl,
    ?_, ?_, ?_, rfl, by decide⟩
  all_goals norm_num [toRat, mantissa, signed, tenTo]

/-- So it does behind the point. -/
example : ((ofPlain? "0.0996").map fun value => value.toPrecision .round (ofPlain? "2")
    .significantDigits .zeros) = some (.ok "0.100") := rfl

end Decimal

end Bourse
