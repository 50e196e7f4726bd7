import Bourse.Json.Access
import Bourse.Proofs.Binary64.Reading
import Bourse.Proofs.Decimal.ReadBack

/-! # Integers in values

A text is read as an integer in one of two ways. Digits alone are read as the integer that they
spell, as long as 64 bits hold it. Any other numeral goes through the binary format: it is rounded
to the nearest number there, and what is taken is the whole part of that number (`int?_str`). This
is the whole part of the numeral wherever rounding keeps it (`int?_of_keeps`), and not everywhere
(`integer_after_rounding`).

An integer of 64 bits, signed or unsigned, is read as itself from a number and from its digits
(`integer_encodings_agree`). -/

namespace Bourse

open Binary64 (KeepsWholePart)

/-- What the reader of 64-bit integers makes of a numeral. -/
theorem Text.signed?_text (n : Scientific) :
    Text.signed? 64 n.text = if n.isPlain then int64Of? n.value else none := by
  rw [Text.signed?, n.integer?_text]
  split
  · rename_i hplain
    rw [n.value_of_isPlain hplain, int64Of?, towardZero_intCast]
    generalize Decimal.signed n.sign.isNegative n.coefficient = i
    rw [Option.filter_some]
    refine if_congr ?_ rfl rfl
    rw [Bool.and_eq_true, decide_eq_true_eq, decide_eq_true_eq]
    rfl
  · rfl

namespace Json

/-! ### Numerals -/

section
variable (n : Scientific) {before after : List Char}
  (hbefore : ∀ c ∈ before, Text.isBlank c = true) (hafter : ∀ c ∈ after, Text.isBlank c = true)
include hbefore hafter

/-- **The two ways to read a numeral.** -/
theorem int?_str : (str (String.ofList (before ++ n.text ++ after))).int?
    = (if n.isPlain then int64Of? n.value else none).or
        ((Binary64.ofRat n.value).finite?.bind fun x => x.int64?) := by
  have htrim := n.trim_text hbefore hafter
  have hread := Binary64.ofText?_text n
  rw [int?, htrim, hread, String.toList_ofList, Text.signed?_text]
  exact congrArg _ (Binary64.bind_int64?_ofDecimal _ _ _)

theorem int?_of_keeps
    (h : n.isPlain = true ∧ IsInt64 (towardZero n.value) ∨ KeepsWholePart n.value) :
    (str (String.ofList (before ++ n.text ++ after))).int? = int64Of? n.value := by
  rw [int?_str n hbefore hafter]
  rcases h with ⟨hplain, hrange⟩ | hkeeps
  · rw [if_pos hplain, int64Of?, if_pos hrange, Option.some_or]
  · rw [Binary64.bind_int64?_of_keeps (Binary64.isRoundingOf_ofRat _) hkeeps]
    split
    · exact Option.or_self
    · rfl

/-- **Reading a numeral as an integer**, with white space around it. If it is an integer of 64 bits
in plain digits, or if rounding to the binary format keeps its whole part, the result is the whole
part where 64 bits hold it, and nothing otherwise. All but the plain integers give the whole part of
the nearest binary number instead. -/
theorem integer_of_numeral :
    (n.isPlain = true ∧ IsInt64 (towardZero n.value) ∨ KeepsWholePart n.value →
      (str (String.ofList (before ++ n.text ++ after))).int? = int64Of? n.value) ∧
    (¬ (n.isPlain = true ∧ IsInt64 (towardZero n.value)) →
      (Binary64.ofRat n.value).IsRoundingOf n.value ∧
        (str (String.ofList (before ++ n.text ++ after))).int?
          = ((Binary64.ofRat n.value).finite?.map Binary64.toRat).bind int64Of?) := by
  refine ⟨int?_of_keeps n hbefore hafter, fun hother => ⟨Binary64.isRoundingOf_ofRat _, ?_⟩⟩
  have hfast : (if n.isPlain then int64Of? n.value else none) = none := by
    split
    · rename_i hplain
      exact if_neg fun hrange => hother ⟨hplain, hrange⟩
    · rfl
  rw [int?_str n hbefore hafter, hfast, Option.none_or, Option.bind_map]
  congr 1
  funext x
  exact x.int64?_eq

end

/-- The number `-3.7` with a sign, a point and an exponent. -/
def signedNumeral : Scientific :=
  ⟨.minus, ['3', '7'], some ['0'],
    some ⟨'e', .minus, ['1'], .inl rfl, by decide, List.all_eq_true.1 rfl⟩,
    by decide, List.all_eq_true.1 rfl⟩

theorem integer_of_signedNumeral :
    (∀ c ∈ [' '], Text.isBlank c = true) ∧ (∀ c ∈ ['\n'], Text.isBlank c = true) ∧
      KeepsWholePart signedNumeral.value ∧ (str " -37.0e-1\n").int? = some (-3) := by
  have hspace : ∀ c ∈ [' '], Text.isBlank c = true := List.all_eq_true.1 rfl
  have hline : ∀ c ∈ ['\n'], Text.isBlank c = true := List.all_eq_true.1 rfl
  have hvalue : signedNumeral.value = -37 / 10 := by decide +kernel
  have hkeeps : KeepsWholePart signedNumeral.value := by
    have hfloor : ⌊|(-37 / 10 : ℚ)|⌋ = 3 := by decide +kernel
    rw [hvalue]
    refine .apart (by norm_num) ?_
    rw [hfloor]
    norm_num
  have htext : String.ofList ([' '] ++ signedNumeral.text ++ ['\n']) = " -37.0e-1\n" := by
    decide +kernel
  have hwhole : int64Of? signedNumeral.value = some (-3) := by decide +kernel
  obtain ⟨hkept, -⟩ := integer_of_numeral signedNumeral hspace hline
  rw [htext, hwhole] at hkept
  exact ⟨hspace, hline, hkeeps, hkept (.inr hkeeps)⟩

/-- The number `2 ^ 53 + 1` with a point. -/
def pointedOdd : Scientific :=
  ⟨.absent, "9007199254740993".toList, some ['0'], none, by decide, List.all_eq_true.1 rfl⟩

/-- A number less than one by the last of its twenty places. -/
def almostOne : Scientific :=
  ⟨.absent, ['0'], some "99999999999999999999".toList, none, by decide, List.all_eq_true.1 rfl⟩

/-- The integer before the least one of 64 bits. -/
def belowLeast : Scientific :=
  ⟨.minus, "9223372036854775809".toList, none, none, by decide, List.all_eq_true.1 rfl⟩

/-- **Rounding first loses whole parts**: those of odd numbers from `2 ^ 53` on, of numbers just
below a whole number and of the first integers out of range. -/
theorem integer_after_rounding :
    ((str (String.ofList pointedOdd.text)).int? = some 9007199254740992 ∧
        int64Of? pointedOdd.value = some 9007199254740993) ∧
      ((str (String.ofList almostOne.text)).int? = some 1 ∧ int64Of? almostOne.value = some 0) ∧
      ((str (String.ofList belowLeast.text)).int? = some (-9223372036854775808) ∧
        int64Of? belowLeast.value = none) := by
  decide +kernel

/-! ### Integers -/

theorem get?_of_at? {v x : Json} {key : Key} (h : v.at? key = some x) (hx : x.isNull = false) :
    v.get? key = some x := by
  rw [get?, h, Option.filter_some, hx]
  rfl

section
variable (w : WordInt)

/-- Rounding does nothing to the integers that have to be read, and keeps the others too large. -/
theorem isInt64_or_keeps : IsInt64 w.val ∨ KeepsWholePart w.val := by
  by_cases hfits : w.val < 9223372036854775808
  · exact .inl ⟨w.in_range.1, hfits⟩
  · refine .inr (.above ?_)
    norm_num
    exact_mod_cast not_lt.1 hfits

theorem int64Of?_val :
    int64Of? w.val = if w.val < 9223372036854775808 then some w.val else none := by
  rw [int64Of?, towardZero_intCast]
  exact if_congr (and_iff_right w.in_range.1) rfl rfl

/-- **The 64-bit integer of a number.** -/
theorem int?_num : (num (.int w)).int? = int64Of? w.val := by
  have hrounded : ((JsonNumber.int w).binary?.bind fun x => x.int64?)
      = (Binary64.ofInt w.val).finite?.bind fun x => x.int64? := rfl
  rw [int?, JsonNumber.int64?, hrounded, ← int64Of?_val]
  rcases isInt64_or_keeps w with hfits | hkeeps
  · rw [int64Of?_intCast hfits, Option.some_or]
  · rw [Binary64.bind_int64?_of_keeps (Binary64.isRoundingOf_ofInt _) hkeeps, Option.or_self]

/-- **The 64-bit integer of digits.** -/
theorem int?_digits {before after : List Char} (hbefore : ∀ c ∈ before, Text.isBlank c = true)
    (hafter : ∀ c ∈ after, Text.isBlank c = true) :
    (str (String.ofList (before ++ Text.numeral w.val ++ after))).int? = int64Of? w.val := by
  have hread := int?_of_keeps (Scientific.ofInt w.val) hbefore hafter
  rw [Scientific.text_ofInt, Scientific.value_ofInt, towardZero_intCast] at hread
  exact hread ((isInt64_or_keeps w).imp_left fun hfits => ⟨rfl, hfits⟩)

theorem natAbs_val_lt : w.val.natAbs < twoTo 96 := by
  have hrange := w.in_range
  have hlimit : 18446744073709551616 < twoTo 96 := by decide
  omega

/-- **The decimal of a number.** -/
theorem decimal?_num : (num (.int w)).decimal? = Decimal.ofInt? w.val := by
  obtain ⟨d, hd, htext, -, -⟩ := Decimal.exists_ofInt? (natAbs_val_lt w)
  rw [decimal?]
  by_cases hfits : w.val < 9223372036854775808
  · have hint : (JsonNumber.int w).int64? = some w.val := if_pos hfits
    rw [hint]
  · have hint : (JsonNumber.int w).int64? = none := if_neg hfits
    rw [hint, hd]
    exact congrArg (Option.or · _) htext

variable {number text padded : Json} {key key' key'' : Key} {before after : List Char}

/-- **An integer is read the same** from a number and from its digits, wherever they stand: as a
64-bit integer exactly if it is one, as a decimal always, both also with white space around the
digits, and as the text of its digits. -/
theorem integer_encodings_agree (hnumber : number.at? key = some (num (.int w)))
    (htext : text.at? key' = some (str (String.ofList (Text.numeral w.val))))
    (hpadded : padded.at? key''
      = some (str (String.ofList (before ++ Text.numeral w.val ++ after))))
    (hbefore : ∀ c ∈ before, Text.isBlank c = true)
    (hafter : ∀ c ∈ after, Text.isBlank c = true) :
    let fitting := if w.val < 9223372036854775808 then some w.val else none
    (number.getInt? key = fitting ∧ text.getInt? key' = fitting ∧ padded.getInt? key'' = fitting) ∧
      (∃ d : Decimal, d.toRat = w.val ∧ d.scale = 0 ∧ number.getDecimal? key = some d ∧
        text.getDecimal? key' = some d ∧ padded.getDecimal? key'' = some d) ∧
      number.getText? key = some (String.ofList (Text.numeral w.val)) ∧
      text.getText? key' = some (String.ofList (Text.numeral w.val)) := by
  have hnone : ∀ c ∈ ([] : List Char), Text.isBlank c = true := fun c hc => by cases hc
  have hnumber' := get?_of_at? hnumber rfl
  have htext' := get?_of_at? htext rfl
  have hpadded' := get?_of_at? hpadded rfl
  have htrim := (Scientific.ofInt w.val).trim_text hbefore hafter
  have htrim' := (Scientific.ofInt w.val).trim_text hnone hnone
  have hint := int?_digits w hnone hnone
  rw [Scientific.text_ofInt] at htrim htrim'
  rw [List.nil_append, List.append_nil] at htrim' hint
  refine ⟨?_, ?_, ?_, ?_⟩
  · rw [getInt?, getInt?, getInt?, hnumber', htext', hpadded', Option.bind_some, Option.bind_some,
      Option.bind_some, int?_num, hint, int?_digits w hbefore hafter, int64Of?_val]
    exact ⟨rfl, rfl, rfl⟩
  · obtain ⟨d, hd, hdigits, hvalue, hscale⟩ := Decimal.exists_ofInt? (natAbs_val_lt w)
    refine ⟨d, hvalue, hscale, ?_⟩
    rw [getDecimal?, getDecimal?, getDecimal?, hnumber', htext', hpadded', Option.bind_some,
      Option.bind_some, Option.bind_some, decimal?_num, hd, decimal?, decimal?, htrim, htrim']
    exact ⟨rfl, hdigits, hdigits⟩
  · rw [getText?, hnumber']
    rfl
  · rw [getText?, htext']
    rfl

end

/-- The first integer that only an unsigned word holds. -/
def firstUnsigned : WordInt := ⟨9223372036854775808, by decide⟩

theorem encodings_of_firstUnsigned :
    let number := obj [("x", num (.int firstUnsigned))]
    let text := arr [str "9223372036854775808"]
    let padded := obj [("x", str "\t9223372036854775808 ")]
    (number.getInt? "x" = none ∧ text.getInt? (.index 0) = none ∧ padded.getInt? "x" = none) ∧
      (∃ d : Decimal, d.toRat = 9223372036854775808 ∧ d.scale = 0 ∧
        number.getDecimal? "x" = some d ∧ text.getDecimal? (.index 0) = some d ∧
        padded.getDecimal? "x" = some d) ∧
      number.getText? "x" = some "9223372036854775808" ∧
      text.getText? (.index 0) = some "9223372036854775808" := by
  have hdigits : String.ofList (Text.numeral firstUnsigned.val) = "9223372036854775808" := by
    decide +kernel
  have hblanks : String.ofList (['\t'] ++ Text.numeral firstUnsigned.val ++ [' '])
      = "\t9223372036854775808 " := by
    decide +kernel
  have hnumber : (obj [("x", num (.int firstUnsigned))]).at? "x"
      = some (num (.int firstUnsigned)) := rfl
  have htext : (arr [str "9223372036854775808"]).at? (.index 0)
      = some (str (String.ofList (Text.numeral firstUnsigned.val))) := by
    rw [hdigits]
    rfl
  have hpadded : (obj [("x", str "\t9223372036854775808 ")]).at? "x"
      = some (str (String.ofList (['\t'] ++ Text.numeral firstUnsigned.val ++ [' ']))) := by
    rw [hblanks]
    rfl
  have hread := integer_encodings_agree firstUnsigned hnumber htext hpadded
    (List.all_eq_true.1 rfl) (List.all_eq_true.1 rfl)
  rwa [hdigits] at hread

end Json

end Bourse
