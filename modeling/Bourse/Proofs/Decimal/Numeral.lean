import Bourse.Precision
import Bourse.Proofs.Decimal.Value
import Bourse.Proofs.Text.Cut

/-! # The number that a text spells

A plain numeral is a sign, digits, and perhaps a point with more digits. `Numeral` keeps these parts
with the number that they spell, and `numeralValue?` reads a text, so that what a formatter writes
can be compared with what it was given without trusting the formatter.

* `numeralValue?_text`: the text of a numeral has its value and no other;
* `numeralValue?_plain`, `numeralValue?_padded`: a decimal is written as the number that it is,
  with and without padding. -/

namespace Bourse

/-- The parts of a plain numeral. -/
structure Numeral where
  negative : Bool
  whole : List Char
  fraction : List Char
  whole_ne_nil : whole ≠ []
  isDigit : ∀ c ∈ whole ++ fraction, c.isDigit = true

namespace Numeral

/-- The numeral without its sign. -/
def body (n : Numeral) : List Char :=
  n.whole ++ if n.fraction = [] then [] else '.' :: n.fraction

/-- The numeral as it is written. -/
def text (n : Numeral) : String :=
  String.ofList ((if n.negative then ['-'] else []) ++ n.body)

/-- The number that the numeral spells. -/
def value (n : Numeral) : ℚ :=
  Decimal.withSign n.negative
    (Nat.ofDigitChars 10 (n.whole ++ n.fraction) 0 / tenTo n.fraction.length)

/-- The numeral with zeros behind its last fraction digit. -/
def withZeros (n : Numeral) (count : ℕ) : Numeral where
  negative := n.negative
  whole := n.whole
  fraction := n.fraction ++ List.replicate count '0'
  whole_ne_nil := n.whole_ne_nil
  isDigit := by
    intro c hc
    rw [← List.append_assoc, List.mem_append, List.mem_replicate] at hc
    rcases hc with hc | ⟨-, rfl⟩
    · exact n.isDigit c hc
    · rfl

/-- **Zeros behind the point do not change the number.** -/
theorem value_withZeros (n : Numeral) (count : ℕ) : (n.withZeros count).value = n.value := by
  unfold value withZeros
  rw [← List.append_assoc, Text.ofDigitChars_append_zeros, List.length_append,
    List.length_replicate, Nat.add_comm, tenTo_add]
  push_cast
  rw [mul_div_mul_left _ _ (tenTo_rat_ne_zero count)]

theorem withZeros_zero (n : Numeral) : n.withZeros 0 = n := by
  cases n
  simp [withZeros]

/-- How the zeros are written: behind a point, which is new if there was none. -/
theorem text_withZeros (n : Numeral) {count : ℕ} (h : count ≠ 0) :
    (n.withZeros count).text = n.text ++ String.ofList
      ((if n.fraction.length = 0 then ['.'] else []) ++ List.replicate count '0') := by
  have hne : n.fraction ++ List.replicate count '0' ≠ [] := by simp [h]
  unfold text body withZeros
  rw [← String.ofList_append, if_neg hne]
  congr 1
  by_cases hf : n.fraction = []
  · simp [hf]
  · simp [hf]

end Numeral

/-! ### Reading -/

/-- The number that digits spell, with at most one point between them. -/
def pointedValue? (cs : List Char) : Option ℚ :=
  match Text.splitOnce '.' cs with
  | some (whole, fraction) =>
    if whole = [] ∨ fraction = [] then none
    else (Text.natural? (whole ++ fraction)).map fun (n : ℕ) => (n : ℚ) / tenTo fraction.length
  | none => (Text.natural? cs).map fun (n : ℕ) => (n : ℚ)

/-- The number that a plain numeral spells. -/
def numeralValue? (s : String) : Option ℚ :=
  match s.toList with
  | '-' :: cs => (pointedValue? cs).map fun x => -x
  | cs => pointedValue? cs

theorem natural?_eq_some {cs : List Char} (hne : cs ≠ []) (h : ∀ c ∈ cs, c.isDigit = true) :
    Text.natural? cs = some (Nat.ofDigitChars 10 cs 0) := by
  rw [Text.natural?, if_pos ⟨hne, List.all_eq_true.2 h⟩]

theorem not_mem_of_isDigit {cs : List Char} {c : Char} (h : ∀ d ∈ cs, d.isDigit = true)
    (hc : c.isDigit = false) : c ∉ cs := by
  intro hmem
  rw [h c hmem] at hc
  cases hc

section
variable (n : Numeral)

theorem Numeral.whole_isDigit : ∀ c ∈ n.whole, c.isDigit = true := fun c hc =>
  n.isDigit c (List.mem_append_left _ hc)

theorem Numeral.pointedValue?_body : pointedValue? n.body
    = some ((Nat.ofDigitChars 10 (n.whole ++ n.fraction) 0 : ℚ) / tenTo n.fraction.length) := by
  have hpoint : '.' ∉ n.whole := not_mem_of_isDigit n.whole_isDigit (by decide)
  unfold pointedValue? body
  by_cases hf : n.fraction = []
  · rw [if_pos hf, List.append_nil, Text.splitOnce_eq_none hpoint]
    show (Text.natural? n.whole).map _ = _
    rw [natural?_eq_some n.whole_ne_nil n.whole_isDigit, hf]
    simp
  · rw [if_neg hf, Text.splitOnce_append n.fraction hpoint]
    show (if n.whole = [] ∨ n.fraction = [] then none else _) = _
    rw [if_neg (not_or.2 ⟨n.whole_ne_nil, hf⟩),
      natural?_eq_some (by simp [n.whole_ne_nil]) n.isDigit]
    rfl

theorem Numeral.body_head : ∀ cs, n.body ≠ '-' :: cs := by
  intro cs h
  obtain ⟨c, rest, hw⟩ := List.exists_cons_of_ne_nil n.whole_ne_nil
  have hc := n.whole_isDigit c (hw ▸ List.mem_cons_self)
  rw [body, hw, List.cons_append, List.cons.injEq] at h
  rw [h.1] at hc
  exact absurd hc (by decide)

/-- **A numeral reads as its value.** -/
theorem Numeral.numeralValue?_text : numeralValue? n.text = some n.value := by
  have hbody := n.pointedValue?_body
  unfold numeralValue? text value
  rw [String.toList_ofList]
  cases n.negative with
  | false =>
    rw [if_neg (by decide), List.nil_append]
    split
    · rename_i cs hcs
      exact absurd hcs (n.body_head cs)
    · exact hbody
  | true =>
    rw [if_pos rfl, List.singleton_append]
    show (pointedValue? n.body).map _ = _
    rw [hbody]
    rfl

end

namespace Decimal

/-! ### What a decimal is written as -/

/-- The digits of a decimal, cut at its point. -/
def numeral (d : Decimal) : Numeral where
  negative := d.negative
  whole :=
    let ds := Text.paddedDigits (d.scale + 1) d.coefficient
    ds.take (ds.length - d.scale)
  fraction :=
    let ds := Text.paddedDigits (d.scale + 1) d.coefficient
    ds.drop (ds.length - d.scale)
  whole_ne_nil := by
    have := Text.length_paddedDigits (d.scale + 1) d.coefficient
    rw [ne_eq, List.take_eq_nil_iff, not_or]
    exact ⟨by omega, fun h => by rw [h] at this; simp at this⟩
  isDigit := by
    intro c hc
    rw [List.take_append_drop] at hc
    exact Text.isDigit_of_mem_paddedDigits hc

theorem length_fraction_numeral (d : Decimal) : d.numeral.fraction.length = d.scale := by
  have := Text.length_paddedDigits (d.scale + 1) d.coefficient
  show (List.drop _ _).length = _
  rw [List.length_drop]
  omega

theorem whole_append_fraction_numeral (d : Decimal) :
    d.numeral.whole ++ d.numeral.fraction = Text.paddedDigits (d.scale + 1) d.coefficient :=
  List.take_append_drop _ _

theorem toText_eq_text (d : Decimal) : d.toText = d.numeral.text := by
  unfold toText Numeral.text Numeral.body
  congr 2
  have hlen := d.length_fraction_numeral
  unfold pointed
  by_cases hs : d.scale = 0
  · have hnil : d.numeral.fraction = [] := List.length_eq_zero_iff.1 (hlen.trans hs)
    rw [if_pos hs, if_pos hnil, List.append_nil, ← whole_append_fraction_numeral, hnil,
      List.append_nil]
  · have hne : d.numeral.fraction ≠ [] := fun h => hs (by rw [← hlen, h]; rfl)
    rw [if_neg hs, if_neg hne]
    rfl

theorem value_numeral (d : Decimal) : d.numeral.value = d.toRat := by
  unfold Numeral.value
  rw [whole_append_fraction_numeral, length_fraction_numeral, Text.ofDigitChars_paddedDigits,
    toRat_eq]
  rfl

/-- **The plain text of a decimal spells its number.** -/
theorem numeralValue?_plain (d : Decimal) : numeralValue? d.plain = some d.toRat := by
  rw [plain, toText_eq_text, Numeral.numeralValue?_text, value_numeral, toRat_normalize]

/-! ### Padding -/

theorem shownPlaces_text (n : Numeral) : shownPlaces n.text.toList = n.fraction.length := by
  have hwhole : '.' ∉ n.whole := not_mem_of_isDigit n.whole_isDigit (by decide)
  have hpoint : '.' ∉ (if n.negative then ['-'] else []) ++ n.whole := by
    rw [List.mem_append, not_or]
    exact ⟨by cases n.negative <;> decide, hwhole⟩
  unfold shownPlaces Numeral.text Numeral.body
  rw [String.toList_ofList, ← List.append_assoc]
  by_cases hf : n.fraction = []
  · rw [if_pos hf, List.append_nil, Text.splitOnce_eq_none hpoint, hf]
    rfl
  · rw [if_neg hf, Text.splitOnce_append n.fraction hpoint]

/-- How many zeros padding puts behind a decimal. -/
def zerosAdded (padding : Padding) (places : ℕ) (d : Decimal) : ℕ :=
  if padding = .none then 0 else places - d.normalize.scale

/-- **What padding writes**: the numeral of the normal form, with zeros behind it. -/
theorem padded_eq_text (padding : Padding) (places : ℕ) (d : Decimal) :
    d.padded padding places
      = (d.normalize.numeral.withZeros (d.zerosAdded padding places)).text := by
  have hplain : d.plain = d.normalize.numeral.text := toText_eq_text _
  have hlen := d.normalize.length_fraction_numeral
  unfold padded zerosAdded
  dsimp only
  generalize d.normalize.numeral = n at hplain hlen ⊢
  rw [hplain, shownPlaces_text, hlen]
  by_cases hpadding : padding = .none
  · rw [if_pos (.inl hpadding), if_pos hpadding, Numeral.withZeros_zero]
  · rw [if_neg hpadding]
    by_cases hlt : d.normalize.scale < places
    · rw [if_neg (by simp only [hpadding, false_or]; omega), if_pos hlt, ← hlen,
        n.text_withZeros (by omega)]
    · have hzero : places - d.normalize.scale = 0 := by omega
      rw [if_neg hlt, hzero, Numeral.withZeros_zero, ite_self]

/-- **Padding does not change the number.** -/
theorem numeralValue?_padded (padding : Padding) (places : ℕ) (d : Decimal) :
    numeralValue? (d.padded padding places) = some d.toRat := by
  rw [padded_eq_text, Numeral.numeralValue?_text, Numeral.value_withZeros, value_numeral,
    toRat_normalize]

end Decimal

end Bourse
