import Bourse.Proofs.Decimal.Numeral
import Bourse.Proofs.Text.Blank

/-! # Numerals with an exponent

A number is written as an optional sign, digits with at most one point before, between or behind
them, and an optional exponent. `Scientific` keeps these parts with the number that they spell.

* `trim_text`: white space around a numeral is all that trimming removes;
* `integer?_text`: to the reader of integers a numeral is its number if it has neither point nor
  exponent, and nothing otherwise;
* `value_eq_mantissa`: the exponent scales what the digits before it spell;
* `text_of_behindPoint`: the point stands between the whole digits and all that follows;
* `ofInt`: every integer has a numeral, the one that is printed (`text_ofInt`, `value_ofInt`). -/

namespace Bourse

/-! ### Parts -/

/-- What may stand in front of digits. -/
inductive Sign where
  | absent
  | plus
  | minus
  deriving DecidableEq

namespace Sign

def text : Sign → List Char
  | absent => []
  | plus => ['+']
  | minus => ['-']

def isNegative : Sign → Bool
  | minus => true
  | _ => false

theorem not_isBlank_of_mem {s : Sign} {c : Char} (h : c ∈ s.text) : Text.isBlank c = false := by
  cases s with
  | absent => cases h
  | plus | minus =>
    rw [List.mem_singleton.1 h]
    decide

/-- The sign of an integer is read first. -/
theorem integer?_append (s : Sign) {c : Char} (rest : List Char) (hminus : c ≠ '-')
    (hplus : c ≠ '+') : Text.integer? (s.text ++ c :: rest)
      = (Text.natural? (c :: rest)).map fun m => Decimal.signed s.isNegative m := by
  cases s with
  | absent =>
    rw [text, List.nil_append, Text.integer?]
    · rfl
    · rintro cs ⟨rfl, rfl⟩
      exact hminus rfl
    · rintro cs ⟨rfl, rfl⟩
      exact hplus rfl
  | plus => rfl
  | minus =>
    rw [text, List.singleton_append, Text.integer?]
    cases Text.natural? (c :: rest) <;> rfl

end Sign

/-- A power of ten behind a number. -/
structure Exponent where
  mark : Char
  sign : Sign
  digits : List Char
  isMark : mark = 'e' ∨ mark = 'E'
  digits_ne_nil : digits ≠ []
  isDigit : ∀ c ∈ digits, c.isDigit = true

namespace Exponent

variable (e : Exponent)

def text : List Char := e.mark :: (e.sign.text ++ e.digits)

def value : ℤ := Decimal.signed e.sign.isNegative (Nat.ofDigitChars 10 e.digits 0)

theorem mark_isDigit : e.mark.isDigit = false := by
  rcases e.isMark with h | h <;> rw [h] <;> rfl

theorem not_isBlank_of_mem {c : Char} (h : c ∈ e.text) : Text.isBlank c = false := by
  rw [text, List.mem_cons, List.mem_append] at h
  rcases h with rfl | h | h
  · rcases e.isMark with hmark | hmark <;> rw [hmark] <;> rfl
  · exact Sign.not_isBlank_of_mem h
  · exact Text.not_isBlank_of_isDigit (e.isDigit c h)

/-- The exponent behind its mark reads as its value. -/
theorem integer?_tail :
    Text.integer? (e.sign.text ++ e.digits) = some e.value := by
  obtain ⟨c, ds, hds⟩ := List.exists_cons_of_ne_nil e.digits_ne_nil
  have hdigit := e.isDigit c (hds ▸ List.mem_cons_self)
  have hminus : c ≠ '-' := by
    rintro rfl
    cases hdigit
  have hplus : c ≠ '+' := by
    rintro rfl
    cases hdigit
  have hread : Text.natural? (c :: ds) = some (Nat.ofDigitChars 10 e.digits 0) := by
    rw [← hds]
    exact natural?_eq_some e.digits_ne_nil e.isDigit
  rw [hds, e.sign.integer?_append ds hminus hplus, hread]
  rfl

end Exponent

/-- The parts of a numeral. There is a digit before the point or behind it. -/
structure Scientific where
  sign : Sign
  whole : List Char
  /-- The digits behind the point, if there is a point. -/
  fraction : Option (List Char)
  exponent : Option Exponent
  digits_ne_nil : whole ++ fraction.getD [] ≠ []
  isDigit : ∀ c ∈ whole ++ fraction.getD [], c.isDigit = true

namespace Scientific

/-- The numeral behind the digits before its point. -/
def tail (n : Scientific) : List Char :=
  n.fraction.elim [] (fun ds => '.' :: ds) ++ n.exponent.elim [] Exponent.text

/-- The numeral as it is written. -/
def text (n : Scientific) : List Char := n.sign.text ++ (n.whole ++ n.tail)

/-- The number without its sign and its point. -/
def coefficient (n : Scientific) : ℕ := Nat.ofDigitChars 10 (n.whole ++ n.fraction.getD []) 0

/-- The power of ten that puts the point in its place. -/
def power (n : Scientific) : ℤ := n.exponent.elim 0 Exponent.value - (n.fraction.getD []).length

/-- The number that the numeral spells. -/
def value (n : Scientific) : ℚ :=
  Decimal.withSign n.sign.isNegative (n.coefficient * (10 : ℚ) ^ n.power)

/-- Whether the numeral has neither point nor exponent. -/
def isPlain (n : Scientific) : Bool := n.fraction.isNone && n.exponent.isNone

section
variable (n : Scientific)

theorem whole_isDigit : ∀ c ∈ n.whole, c.isDigit = true := fun c hc =>
  n.isDigit c (List.mem_append_left _ hc)

theorem fraction_isDigit : ∀ c ∈ n.fraction.getD [], c.isDigit = true := fun c hc =>
  n.isDigit c (List.mem_append_right _ hc)

theorem isPlain_iff : n.isPlain = true ↔ n.fraction = none ∧ n.exponent = none := by
  rw [isPlain, Bool.and_eq_true, Option.isNone_iff_eq_none, Option.isNone_iff_eq_none]

/-! ### White space -/

theorem not_isBlank_of_mem {c : Char} (h : c ∈ n.text) : Text.isBlank c = false := by
  have hfraction := n.fraction_isDigit
  rw [text, List.mem_append, List.mem_append, tail, List.mem_append] at h
  rcases h with h | h | h | h
  · exact Sign.not_isBlank_of_mem h
  · exact Text.not_isBlank_of_isDigit (n.whole_isDigit c h)
  · cases hf : n.fraction with
    | none =>
      rw [hf] at h
      cases h
    | some ds =>
      rw [hf] at h hfraction
      rcases List.mem_cons.1 h with rfl | h
      · rfl
      · exact Text.not_isBlank_of_isDigit (hfraction c h)
  · cases he : n.exponent with
    | none =>
      rw [he] at h
      cases h
    | some e =>
      rw [he] at h
      exact e.not_isBlank_of_mem h

/-- **White space around a numeral** is all that is removed. -/
theorem trim_text {before after : List Char} (hbefore : ∀ c ∈ before, Text.isBlank c = true)
    (hafter : ∀ c ∈ after, Text.isBlank c = true) :
    Text.trim (String.ofList (before ++ n.text ++ after)) = String.ofList n.text :=
  Text.trim_surrounded hbefore (fun _ => n.not_isBlank_of_mem) hafter

/-! ### Reading integers -/

/-- What a numeral begins with behind its sign, and so with no sign or letter. -/
theorem head_ne {c d : Char} (hc : c.isDigit = true ∨ c = '.') (hd : d.isDigit = false)
    (hpoint : d ≠ '.') : c ≠ d := by
  rintro rfl
  rcases hc with hc | hc
  · rw [hc] at hd
    cases hd
  · exact hpoint hc

/-- Behind its sign a numeral begins with a digit or with its point. -/
theorem exists_whole_tail_eq_cons :
    ∃ c rest, n.whole ++ n.tail = c :: rest ∧ (c.isDigit = true ∨ c = '.') := by
  have hne := n.digits_ne_nil
  have hdigit := n.whole_isDigit
  cases hw : n.whole with
  | cons c rest => exact ⟨c, rest ++ n.tail, rfl, .inl (hdigit c (hw ▸ List.mem_cons_self))⟩
  | nil =>
    cases hf : n.fraction with
    | none =>
      rw [hw, hf] at hne
      exact absurd rfl hne
    | some ds =>
      have htail : n.tail = '.' :: (ds ++ n.exponent.elim [] Exponent.text) := by
        rw [tail, hf]
        rfl
      exact ⟨'.', _, htail, .inr rfl⟩

/-- With a point or an exponent there is more than digits. -/
theorem exists_mem_tail (h : n.isPlain = false) : ∃ c ∈ n.tail, c.isDigit = false := by
  cases hf : n.fraction with
  | some ds => exact ⟨'.', by simp [tail, hf], rfl⟩
  | none =>
    cases he : n.exponent with
    | some e => exact ⟨e.mark, by simp [tail, he, Exponent.text], e.mark_isDigit⟩
    | none =>
      rw [n.isPlain_iff.2 ⟨hf, he⟩] at h
      cases h

/-- **Reading a numeral as an integer.** -/
theorem integer?_text : Text.integer? n.text
    = if n.isPlain then some (Decimal.signed n.sign.isNegative n.coefficient) else none := by
  obtain ⟨c, rest, hcons, hc⟩ := n.exists_whole_tail_eq_cons
  rw [text, hcons, n.sign.integer?_append rest (head_ne hc rfl (by decide))
    (head_ne hc rfl (by decide)), ← hcons]
  split
  · rename_i hplain
    obtain ⟨hfraction, hexponent⟩ := n.isPlain_iff.1 hplain
    have hne := n.digits_ne_nil
    have hdigit := n.isDigit
    rw [hfraction] at hne hdigit
    rw [coefficient, tail, hfraction, hexponent]
    exact congrArg _ (natural?_eq_some hne hdigit)
  · rename_i hplain
    obtain ⟨d, hd, hnot⟩ := n.exists_mem_tail (Bool.eq_false_iff.2 hplain)
    rw [Text.natural?, if_neg]
    · rfl
    · rintro ⟨-, hall⟩
      rw [List.all_eq_true.1 hall d (List.mem_append_right _ hd)] at hnot
      cases hnot

/-- Without a point and an exponent the number is whole. -/
theorem value_of_isPlain (h : n.isPlain = true) :
    n.value = (Decimal.signed n.sign.isNegative n.coefficient : ℤ) := by
  obtain ⟨hfraction, hexponent⟩ := n.isPlain_iff.1 h
  rw [value, power, hfraction, hexponent, Decimal.signed, Decimal.withSign]
  split <;> simp

end

/-! ### The mantissa -/

/-- The numeral without its exponent. -/
def mantissa (n : Scientific) : Scientific := { n with exponent := none }

theorem value_eq_mantissa (n : Scientific) : n.value
    = n.mantissa.value * (10 : ℚ) ^ n.exponent.elim 0 Exponent.value := by
  have hpower : n.power = n.mantissa.power + n.exponent.elim 0 Exponent.value := by
    unfold power
    show _ = (0 : ℤ) - (n.fraction.getD []).length + _
    ring
  unfold value
  rw [hpower, zpow_add₀ (by norm_num), ← mul_assoc]
  show Decimal.withSign n.sign.isNegative _ = Decimal.withSign n.sign.isNegative _ * _
  unfold Decimal.withSign
  split
  · rw [neg_mul]
    rfl
  · rfl

theorem text_eq_append (n : Scientific) :
    n.text = n.mantissa.text ++ n.exponent.elim [] Exponent.text := by
  simp only [text, tail, mantissa, Option.elim_none, List.append_nil, List.append_assoc]

theorem mem_mantissa_text (n : Scientific) {c : Char} (h : c ∈ n.mantissa.text) :
    c = '+' ∨ c = '-' ∨ c = '.' ∨ c.isDigit = true := by
  have hfraction := n.fraction_isDigit
  simp only [text, tail, mantissa, Option.elim_none, List.append_nil, List.mem_append] at h
  rcases h with h | h | h
  · cases hs : n.sign <;> rw [hs] at h <;> simp [Sign.text] at h <;> simp [h]
  · simp [n.whole_isDigit c h]
  · cases hf : n.fraction with
    | none =>
      rw [hf] at h
      cases h
    | some ds =>
      rw [hf] at h hfraction
      rcases List.mem_cons.1 h with rfl | h
      · simp
      · simp [hfraction c h]

theorem not_isExponentMark_of_mem (n : Scientific) {c : Char} (h : c ∈ n.mantissa.text) :
    Decimal.isExponentMark c = false := by
  rcases n.mem_mantissa_text h with rfl | rfl | rfl | hdigit
  · rfl
  · rfl
  · rfl
  · by_contra hmark
    rw [Bool.not_eq_false, Decimal.isExponentMark, Bool.or_eq_true, beq_iff_eq, beq_iff_eq] at hmark
    rcases hmark with rfl | rfl <;> exact absurd hdigit (by decide)

/-- The characters of a numeral take one byte each. -/
theorem toNat_lt_of_mem_text (n : Scientific) {c : Char} (h : c ∈ n.text) : c.toNat < 128 := by
  have hdigit : ∀ d : Char, d.isDigit = true → d.toNat < 128 := by
    intro d hd
    have hle := (Char.isDigit_iff_toNat.1 hd).2
    have h9 : '9'.toNat = 57 := rfl
    omega
  rw [n.text_eq_append, List.mem_append] at h
  rcases h with h | h
  · rcases n.mem_mantissa_text h with rfl | rfl | rfl | hc
    · decide
    · decide
    · decide
    · exact hdigit c hc
  · cases he : n.exponent with
    | none =>
      rw [he] at h
      cases h
    | some e =>
      rw [he] at h
      rcases List.mem_cons.1 h with rfl | h
      · rcases e.isMark with hmark | hmark <;> rw [hmark] <;> decide
      · rcases List.mem_append.1 h with h | h
        · cases hs : e.sign <;> rw [hs] at h <;> simp [Sign.text] at h <;> subst h <;> decide
        · exact hdigit c (e.isDigit c h)

/-- What stands behind the point of a numeral, its exponent included. -/
def behindPoint (n : Scientific) : Option (List Char) :=
  n.fraction.map fun ds => ds ++ n.exponent.elim [] Exponent.text

theorem text_of_behindPoint {n : Scientific} {rest : List Char} (h : n.behindPoint = some rest) :
    n.text = (n.sign.text ++ n.whole) ++ '.' :: rest := by
  obtain ⟨ds, hds, rfl⟩ := Option.map_eq_some_iff.1 h
  rw [text, tail, hds, Option.elim_some, List.append_assoc]
  rfl

theorem point_not_mem_front (n : Scientific) : '.' ∉ n.sign.text ++ n.whole := by
  rw [List.mem_append, not_or]
  exact ⟨by cases n.sign <;> decide, not_mem_of_isDigit n.whole_isDigit (by decide)⟩

/-- Without digits behind a point there is no point. -/
theorem point_not_mem_text {n : Scientific} (h : n.behindPoint = none) : '.' ∉ n.text := by
  have hfraction : n.fraction = none := Option.map_eq_none_iff.1 h
  have hexponent : '.' ∉ n.exponent.elim [] Exponent.text := by
    cases n.exponent with
    | none => simp
    | some e =>
      rw [Option.elim_some, Exponent.text, List.mem_cons, List.mem_append, not_or, not_or]
      refine ⟨?_, by cases e.sign <;> decide, not_mem_of_isDigit e.isDigit (by decide)⟩
      rcases e.isMark with hmark | hmark <;> rw [hmark] <;> decide
  rw [text, tail, hfraction, Option.elim_none, List.nil_append, ← List.append_assoc,
    List.mem_append, not_or]
  exact ⟨n.point_not_mem_front, hexponent⟩

/-! ### Integers -/

/-- The numeral of an integer. -/
def ofInt (i : ℤ) : Scientific where
  sign := if i < 0 then .minus else .absent
  whole := Text.digits i.natAbs
  fraction := none
  exponent := none
  digits_ne_nil := by
    rw [Option.getD_none, List.append_nil]
    exact Text.digits_ne_nil _
  isDigit := by
    intro c hc
    rw [Option.getD_none, List.append_nil] at hc
    exact Text.isDigit_of_mem_digits hc

theorem text_ofInt (i : ℤ) : (ofInt i).text = Text.numeral i := by
  rw [text, ofInt, tail, Text.numeral]
  split <;> simp [Sign.text]

theorem value_ofInt (i : ℤ) : (ofInt i).value = i := by
  have hcoefficient : (ofInt i).coefficient = i.natAbs := by
    show Nat.ofDigitChars 10 (Text.digits i.natAbs ++ []) 0 = _
    rw [List.append_nil]
    exact Nat.ofDigitChars_ten_toDigits
  have hsign : (ofInt i).sign.isNegative = decide (i < 0) := by
    rw [ofInt]
    split_ifs with hneg
    · exact (decide_eq_true hneg).symm
    · exact (decide_eq_false hneg).symm
  rw [value_of_isPlain _ rfl, hcoefficient, hsign, Decimal.signed_natAbs]

end Scientific

end Bourse
