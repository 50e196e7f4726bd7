import Bourse.Proofs.Binary64.WholePart
import Bourse.Proofs.Text.Scientific

/-! # Reading binary numbers

A numeral is cut into its parts (`ofText?_text`) and read as the rounding of the number that it
spells (`isRoundingOf_ofDecimal`). Where the exponent is far beyond the format this is settled
without forming any power of ten: what is too small is nearest to zero and what is too large is
infinite (`ofDecimal_cases`). -/

namespace Bourse

/-! ### Parts of a numeral -/

namespace Scientific

variable (n : Scientific)

theorem exponentTail_head : ∀ c ∈ (n.exponent.elim [] Exponent.text).head?, c.isDigit = false := by
  cases n.exponent with
  | none => exact fun _ h => by cases h
  | some e =>
    rintro c ⟨rfl⟩
    exact e.mark_isDigit

theorem tail_head : ∀ c ∈ n.tail.head?, c.isDigit = false := by
  rw [tail]
  cases n.fraction with
  | none => exact n.exponentTail_head
  | some ds =>
    rintro c ⟨rfl⟩
    rfl

end Scientific

namespace Binary64

theorem takeSign_append (s : Sign) {c : Char} (rest : List Char) (hminus : c ≠ '-')
    (hplus : c ≠ '+') : takeSign (s.text ++ c :: rest) = (s.isNegative, c :: rest) := by
  cases s with
  | absent => simp [Sign.text, Sign.isNegative, takeSign, hminus, hplus]
  | plus | minus => rfl

/-- The power of an exponent is read as an integer. -/
theorem integer?_exponent (e : Exponent) :
    Text.integer? (e.sign.text ++ e.digits) = some e.value := by
  have hnatural := natural?_eq_some e.digits_ne_nil e.isDigit
  obtain ⟨c, rest, hcons⟩ := List.exists_cons_of_ne_nil e.digits_ne_nil
  have hc : c.isDigit = true := e.isDigit c (hcons ▸ List.mem_cons_self)
  rw [hcons, e.sign.integer?_append rest (by rintro rfl; cases hc) (by rintro rfl; cases hc),
    ← hcons, hnatural]
  rfl

/-- The parts of a numeral without its sign. -/
theorem scientific?_body (n : Scientific) :
    scientific? (n.whole ++ n.tail) = some (n.coefficient, n.power) := by
  have hnatural : Text.natural? (n.whole ++ n.fraction.getD []) = some n.coefficient :=
    natural?_eq_some n.digits_ne_nil n.isDigit
  have hfraction := n.fraction_isDigit
  have hhead := n.exponentTail_head
  unfold scientific?
  rw [Text.takeWhile_digits_append n.whole_isDigit n.tail_head,
    Text.dropWhile_digits_append n.whole_isDigit n.tail_head, Scientific.tail, Scientific.power]
  generalize n.coefficient = m at hnatural ⊢
  generalize n.fraction = fraction at hnatural hfraction ⊢
  cases fraction with
  | none =>
    rw [Option.getD_none, List.append_nil] at hnatural
    cases n.exponent with
    | none => simp [hnatural]
    | some e =>
      have hpower := integer?_exponent e
      rcases e.isMark with hmark | hmark
      · simp [Exponent.text, hmark, hpower, hnatural]
      · simp [Exponent.text, hmark, hpower, hnatural]
  | some ds =>
    rw [Option.getD_some] at hnatural hfraction
    simp only [Option.elim_some, List.cons_append, Text.takeWhile_digits_append hfraction hhead,
      Text.dropWhile_digits_append hfraction hhead, hnatural]
    cases n.exponent with
    | none => simp
    | some e =>
      have hpower := integer?_exponent e
      have hmark := e.isMark
      simp [Exponent.text, hmark, hpower]

/-- What a numeral may begin with has no lower case. -/
theorem toLower_of_isDigit {c : Char} (h : c.isDigit = true) : c.toLower = c := by
  have hrange := Char.isDigit_iff_toNat.1 h
  have hnine : '9'.toNat = 57 := rfl
  have hupper : ¬ ('A'.val ≤ c.val ∧ c.val ≤ 'Z'.val) := by
    rintro ⟨hle, -⟩
    rw [UInt32.le_iff_toNat_le] at hle
    have hfirst : 'A'.val.toNat = 65 := rfl
    have hvalue : c.val.toNat = c.toNat := rfl
    omega
  exact dif_neg hupper

/-- **A numeral** is read by its parts. -/
theorem ofText?_text (n : Scientific) : ofText? (String.ofList n.text)
    = some (ofDecimal n.sign.isNegative n.coefficient n.power) := by
  obtain ⟨c, rest, hcons, hc⟩ := n.exists_whole_tail_eq_cons
  have hlower : c.toLower = c := hc.elim toLower_of_isDigit (by rintro rfl; rfl)
  have hi : c ≠ 'i' := Scientific.head_ne hc rfl (by decide)
  have hn : c ≠ 'n' := Scientific.head_ne hc rfl (by decide)
  unfold ofText?
  rw [String.toList_ofList, Scientific.text, hcons, takeSign_append _ _
    (Scientific.head_ne hc rfl (by decide)) (Scientific.head_ne hc rfl (by decide))]
  dsimp only
  rw [if_neg (by simp [hlower, hi]), if_neg (by simp [hlower, hn]), ← hcons, scientific?_body]
  rfl

/-! ### The number that is read -/

variable {negative : Bool} {m : ℕ} {e : ℤ}

/-- A number lies between the powers of ten around its first digit. -/
theorem ten_zpow_le_mul (hm : m ≠ 0) :
    (10 : ℚ) ^ ((Text.digits m).length + e - 1) ≤ m * (10 : ℚ) ^ e := by
  obtain ⟨k, hk⟩ : ∃ k, (Text.digits m).length = k + 1 :=
    Nat.exists_eq_succ_of_ne_zero (List.length_pos_iff.2 (Text.digits_ne_nil m)).ne'
  have hexponent : ((Text.digits m).length : ℤ) + e - 1 = k + e := by
    rw [hk]
    push_cast
    ring
  have hdigits : ((10 : ℚ) ^ k) ≤ m := by
    rw [← tenTo_rat]
    exact_mod_cast Text.tenTo_le_of_length_digits hm hk
  rw [hexponent, zpow_add₀ (by norm_num), zpow_natCast]
  exact mul_le_mul_of_nonneg_right hdigits (ten_zpow_pos e).le

theorem mul_lt_ten_zpow (m : ℕ) (e : ℤ) :
    m * (10 : ℚ) ^ e < (10 : ℚ) ^ ((Text.digits m).length + e) := by
  have hdigits : (m : ℚ) < (10 : ℚ) ^ (Text.digits m).length := by
    rw [← tenTo_rat]
    exact_mod_cast Text.lt_tenTo_length_digits m
  rw [zpow_add₀ (by norm_num), zpow_natCast]
  exact mul_lt_mul_of_pos_right hdigits (ten_zpow_pos e)

/-- **What a numeral may be read as without its digits**: below `10 ^ -330` as zero, from
`10 ^ 310` on as infinite; everything between is rounded. -/
theorem ofDecimal_cases (negative : Bool) (m : ℕ) (e : ℤ) :
    (ofDecimal negative m e = .finite { zero with negative } ∧
        m * (10 : ℚ) ^ e < (10 : ℚ) ^ (-330 : ℤ)) ∨
      (ofDecimal negative m e = .infinite negative ∧ (10 : ℚ) ^ (310 : ℤ) ≤ m * (10 : ℚ) ^ e) ∨
      (0 < m ∧ ofDecimal negative m e
        = ofRatio negative (m * tenTo e.toNat) (tenTo (-e).toNat)) := by
  unfold ofDecimal
  dsimp only
  by_cases hzero : m = 0
  · refine .inl ⟨if_pos (.inl hzero), ?_⟩
    rw [hzero, Nat.cast_zero, zero_mul]
    exact ten_zpow_pos _
  by_cases hlow : ((Text.digits m).length : ℤ) + e < -330
  · exact .inl ⟨if_pos (.inr hlow), (mul_lt_ten_zpow m e).trans_le (ten_zpow_le hlow.le)⟩
  rw [if_neg (not_or.2 ⟨hzero, hlow⟩)]
  by_cases hhigh : 310 < ((Text.digits m).length : ℤ) + e
  · rw [if_pos hhigh]
    exact .inr (.inl ⟨rfl, (ten_zpow_le (by omega)).trans (ten_zpow_le_mul hzero)⟩)
  · rw [if_neg hhigh]
    exact .inr (.inr ⟨Nat.pos_of_ne_zero hzero, rfl⟩)

/-- The ratio that is rounded is the number. -/
theorem ratio_eq_mul (m : ℕ) (e : ℤ) :
    ((m * tenTo e.toNat : ℕ) : ℚ) / (tenTo (-e).toNat : ℕ) = m * (10 : ℚ) ^ e := by
  rw [Nat.cast_mul, mul_div_assoc, tenTo_div_tenTo]

/-- **A numeral is read as the rounding** of the number that it spells. -/
theorem isRoundingOf_ofDecimal (negative : Bool) (m : ℕ) (e : ℤ) :
    (ofDecimal negative m e).IsRoundingOf
      (Decimal.withSign negative (m * (10 : ℚ) ^ e)) := by
  have hnonneg : 0 ≤ m * (10 : ℚ) ^ e := mul_nonneg (Nat.cast_nonneg m) (ten_zpow_pos e).le
  rcases ofDecimal_cases negative m e with ⟨hread, htiny⟩ | ⟨hread, hhuge⟩ | ⟨-, hread⟩
  · have hleast : (10 : ℚ) ^ (-330 : ℤ) ≤ (2 : ℚ) ^ (-1075 : ℤ) := by
      have hpower : 2 ^ 1075 ≤ 10 ^ 330 := by decide +kernel
      rw [zpow_neg, zpow_neg]
      exact inv_anti₀ (two_zpow_pos _) (by exact_mod_cast hpower)
    rw [hread]
    refine .finite (isNearest_zero negative ?_)
    rw [Decimal.abs_withSign, abs_of_nonneg hnonneg]
    exact htiny.le.trans hleast
  · have hlarge : overflow ≤ (10 : ℚ) ^ (310 : ℤ) := by
      have hpower : 2 ^ 1024 ≤ 10 ^ 310 := by decide +kernel
      calc overflow ≤ (2 : ℚ) ^ (54 : ℤ) * (2 : ℚ) ^ (970 : ℤ) :=
            mul_le_mul_of_nonneg_right (by norm_num) (two_zpow_pos _).le
        _ = (2 : ℚ) ^ (1024 : ℤ) := (zpow_add₀ (by norm_num) 54 970).symm
        _ ≤ (10 : ℚ) ^ (310 : ℤ) := by exact_mod_cast hpower
    rw [hread]
    exact isRoundingOf_infinite negative (hlarge.trans hhuge)
  · rw [hread, ← ratio_eq_mul]
    exact isRoundingOf_ofRatio negative _ (tenTo_pos _)

/-- The whole part of what a numeral is read as is that of the rounded number. -/
theorem bind_int64?_ofDecimal (negative : Bool) (m : ℕ) (e : ℤ) :
    ((ofDecimal negative m e).finite?.bind fun x => x.int64?)
      = (ofRat (Decimal.withSign negative (m * (10 : ℚ) ^ e))).finite?.bind fun x => x.int64? := by
  have hnonneg : 0 ≤ m * (10 : ℚ) ^ e := mul_nonneg (Nat.cast_nonneg m) (ten_zpow_pos e).le
  have habs : |Decimal.withSign negative (m * (10 : ℚ) ^ e)| = m * (10 : ℚ) ^ e := by
    rw [Decimal.abs_withSign, abs_of_nonneg hnonneg]
  have hsame := fun hkeeps =>
    (bind_int64?_of_keeps (isRoundingOf_ofDecimal negative m e) hkeeps).trans
      (bind_int64?_of_keeps (isRoundingOf_ofRat _) hkeeps).symm
  rcases ofDecimal_cases negative m e with ⟨-, htiny⟩ | ⟨-, hhuge⟩ | ⟨hpos, hratio⟩
  · refine hsame (.of_lt_half ?_)
    calc _ = m * (10 : ℚ) ^ e := habs
      _ < (10 : ℚ) ^ (-330 : ℤ) := htiny
      _ ≤ (10 : ℚ) ^ (-1 : ℤ) := ten_zpow_le (by norm_num)
      _ ≤ 1 / 2 := by norm_num
  · refine hsame (.of_large ?_)
    calc (2 : ℚ) ^ 64 ≤ (10 : ℚ) ^ (20 : ℤ) := by norm_num
      _ ≤ (10 : ℚ) ^ (310 : ℤ) := ten_zpow_le (by norm_num)
      _ ≤ m * (10 : ℚ) ^ e := hhuge
      _ = _ := habs.symm
  · rw [hratio, ← ratio_eq_mul,
      ofRat_eq_ofRatio negative (Nat.mul_pos hpos (tenTo_pos _)) (tenTo_pos _)]

end Binary64

end Bourse
