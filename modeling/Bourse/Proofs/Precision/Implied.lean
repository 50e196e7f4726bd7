import Bourse.Proofs.Text.Scientific
import Bourse.Proofs.Text.Utf8
import Mathlib.Order.Bounds.Basic

/-! # The places that a text implies

A number needs `k` fraction digits if it is whole behind `k` places and no fewer (`NeedsPlaces`).
A step that a venue sends as text implies its fraction digits: a plain numeral those that its number
needs (`Scientific.needsPlaces_value`), since the zeros at its end are not counted. For a numeral
with an exponent only the exponent counts, which is right where the digits before it spell a whole
number without a zero at its end (`needsPlaces_div_iff`). `ImpliesPlaces` says what each kind of
text implies. -/

namespace Bourse

/-! ### Places that a number needs -/

/-- With `k` fraction digits and no fewer the number can be written. -/
def NeedsPlaces (x : ℚ) (k : ℕ) : Prop := IsLeast {j : ℕ | ∃ z : ℤ, x * tenTo j = z} k

/-- **A whole number behind `k` places** needs all of them if there is no zero at its end. -/
theorem needsPlaces_div_iff (x : ℚ) (k : ℕ) : NeedsPlaces (x / tenTo k) k ↔
    (∃ z : ℤ, x = z) ∧ (k = 0 ∨ ¬ ∃ z : ℤ, x = 10 * z) := by
  have hk : x / tenTo k * tenTo k = x := div_mul_cancel₀ _ (tenTo_rat_ne_zero k)
  constructor
  · rintro ⟨⟨z, hz⟩, hleast⟩
    refine ⟨⟨z, hk ▸ hz⟩, or_iff_not_imp_left.2 fun hpos => ?_⟩
    rintro ⟨w, hw⟩
    -- one place less would do
    obtain ⟨j, rfl⟩ := Nat.exists_eq_succ_of_ne_zero hpos
    have hfewer : x / tenTo (j + 1) * tenTo j = w := by
      rw [hw, tenTo_succ, div_mul_eq_mul_div,
        div_eq_iff (by exact_mod_cast (tenTo_pos (j + 1)).ne')]
      push_cast
      ring
    have := hleast ⟨w, hfewer⟩
    omega
  · rintro ⟨⟨z, hz⟩, hlast⟩
    refine ⟨⟨z, hk.trans hz⟩, ?_⟩
    rintro j ⟨w, hw⟩
    by_contra hlt
    rw [not_le] at hlt
    obtain ⟨i, rfl⟩ := Nat.exists_eq_add_of_lt hlt
    rcases hlast with h0 | hten
    · omega
    · refine hten ⟨w * tenTo i, ?_⟩
      have hplaces : (tenTo (j + i + 1) : ℚ) = tenTo j * (tenTo i * 10) := by
        rw [Nat.add_assoc, tenTo_add, tenTo_succ]
        push_cast
        rfl
      generalize x / tenTo (j + i + 1) = q at hk hw
      rw [← hk, hplaces]
      push_cast
      rw [← hw]
      ring

/-! ### The exponent of a text -/

/-- What follows the first mark of an exponent. -/
def exponentPart (cs : List Char) : List Char :=
  (cs.dropWhile fun c => !Decimal.isExponentMark c).drop 1

theorem exponentPart_append {before : List Char} {mark : Char} (power : List Char)
    (hbefore : ∀ c ∈ before, Decimal.isExponentMark c = false)
    (hmark : Decimal.isExponentMark mark = true) :
    exponentPart (before ++ mark :: power) = power := by
  have hpos : ∀ c ∈ before, (!Decimal.isExponentMark c) = true := fun c hc => by
    rw [hbefore c hc]
    rfl
  rw [exponentPart, List.dropWhile_append_of_pos hpos,
    List.dropWhile_cons_of_neg (by rw [hmark]; decide), List.drop_one, List.tail_cons]

theorem exponentPart_eq_nil {cs : List Char}
    (h : ∀ c ∈ cs, Decimal.isExponentMark c = false) : exponentPart cs = [] := by
  have hnone : cs.dropWhile (fun c => !Decimal.isExponentMark c) = [] := by
    rw [List.dropWhile_eq_nil_iff]
    intro c hc
    rw [h c hc]
    rfl
  rw [exponentPart, hnone]
  rfl

/-- Whether a number has 32 bits with a sign. -/
def FitsWord (i : ℤ) : Prop := -2147483648 ≤ i ∧ i < 2147483648

theorem signed?_eq_some_iff {cs : List Char} {e : ℤ} :
    Text.signed? 32 cs = some e ↔ Text.integer? cs = some e ∧ FitsWord e := by
  have htwo : ((twoTo (32 - 1) : ℕ) : ℤ) = 2147483648 := rfl
  rw [Text.signed?, Option.filter_eq_some_iff, htwo, Bool.and_eq_true, decide_eq_true_eq,
    decide_eq_true_eq, FitsWord]

theorem fitsWord_bmod (i : ℤ) : FitsWord (Int.bmod i (twoTo 32)) := by
  have htwo : ((twoTo 32 : ℕ) : ℤ) = 4294967296 := rfl
  unfold FitsWord Int.bmod
  rw [htwo]
  dsimp only
  split <;> omega

theorem bmod_of_fitsWord {i : ℤ} (h : FitsWord i) : Int.bmod i (twoTo 32) = i := by
  have htwo : ((twoTo 32 : ℕ) : ℤ) = 4294967296 := rfl
  unfold FitsWord at h
  unfold Int.bmod
  rw [htwo]
  dsimp only
  split <;> omega

theorem impliedPlaces_of_exponent {s : String} {e : ℤ}
    (h : Text.signed? 32 (exponentPart s.toList) = some e) :
    impliedPlaces s = Int.bmod (-e) (twoTo 32) := by
  unfold exponentPart at h
  unfold impliedPlaces
  dsimp only
  rw [h]

/-- The digits behind a point but for the zeros at their end. -/
def strippedDigits (ds : List Char) : List Char := Text.dropEnd (· == '0') ds

theorem strippedDigits_append (ds : List Char) :
    ∃ j, ds = strippedDigits ds ++ List.replicate j '0' := by
  have hzeros : ∀ c ∈ ds.rtakeWhile (· == '0'), c = '0' := fun c hc =>
    by simpa using List.mem_rtakeWhile_imp hc
  refine ⟨(ds.rtakeWhile (· == '0')).length, ?_⟩
  rw [← List.eq_replicate_of_mem hzeros]
  exact List.rdropWhile_append_rtakeWhile.symm

theorem getLast?_strippedDigits (ds : List Char) : (strippedDigits ds).getLast? ≠ some '0' :=
  fun h => absurd (Text.getLast?_dropEnd h) (by decide)

/-- A last digit that is not zero is what a division by ten leaves. -/
theorem ofDigitChars_concat_mod {c : Char} (hc : c.isDigit = true) (hzero : c ≠ '0')
    (ds : List Char) : Nat.ofDigitChars 10 (ds ++ [c]) 0 % 10 ≠ 0 := by
  have hlast : Nat.ofDigitChars 10 (ds ++ [c]) 0
      = 10 * Nat.ofDigitChars 10 ds 0 + (c.toNat - '0'.toNat) := by
    rw [Nat.ofDigitChars_append]
    rfl
  have hne : c.toNat ≠ '0'.toNat := fun h => hzero (Char.toNat_inj.1 h)
  have hrange := Char.isDigit_iff_toNat.1 hc
  have h0 : '0'.toNat = 48 := rfl
  have h9 : '9'.toNat = 57 := rfl
  omega

/-- The zeros at the end of a numeral leave its digits and its places together. -/
theorem Scientific.value_eq_stripped (n : Scientific) (h : n.exponent = none) :
    n.value = (Decimal.signed n.sign.isNegative
      (Nat.ofDigitChars 10 (n.whole ++ strippedDigits (n.fraction.getD [])) 0) : ℤ)
        / tenTo (strippedDigits (n.fraction.getD [])).length := by
  obtain ⟨j, hj⟩ := strippedDigits_append (n.fraction.getD [])
  generalize strippedDigits (n.fraction.getD []) = ds at hj ⊢
  have hpower : n.power = ((0 : ℕ) : ℤ) - (j + ds.length : ℕ) := by
    rw [Scientific.power, h, hj, List.length_append, List.length_replicate]
    simp [add_comm]
  have hcoefficient : n.coefficient = tenTo j * Nat.ofDigitChars 10 (n.whole ++ ds) 0 := by
    rw [Scientific.coefficient, hj, ← List.append_assoc, Text.ofDigitChars_append_zeros]
  have hj0 := tenTo_rat_ne_zero j
  have hlen := tenTo_rat_ne_zero ds.length
  rw [Scientific.value, hpower, hcoefficient, ten_zpow_sub, tenTo_zero, Nat.cast_one, tenTo_add]
  generalize Nat.ofDigitChars 10 (n.whole ++ ds) 0 = digits
  unfold Decimal.withSign Decimal.signed
  split <;> push_cast <;> field_simp

/-- **A plain numeral needs its fraction digits** but for the zeros at their end. -/
theorem Scientific.needsPlaces_value (n : Scientific) (h : n.exponent = none) :
    NeedsPlaces n.value (strippedDigits (n.fraction.getD [])).length := by
  obtain ⟨j, hj⟩ := strippedDigits_append (n.fraction.getD [])
  have hlast := getLast?_strippedDigits (n.fraction.getD [])
  rw [n.value_eq_stripped h, needsPlaces_div_iff]
  generalize strippedDigits (n.fraction.getD []) = ds at hj hlast ⊢
  refine ⟨⟨_, rfl⟩, or_iff_not_imp_left.2 fun hne => ?_⟩
  rintro ⟨z, hz⟩
  obtain ⟨init, c, rfl⟩ := (List.eq_nil_or_concat' ds).resolve_left fun h0 => hne (h0 ▸ rfl)
  have hc : c.isDigit = true := n.isDigit c (by rw [hj]; simp)
  have hzero : c ≠ '0' := fun h0 => hlast (by rw [List.getLast?_concat, h0])
  have hmod := ofDigitChars_concat_mod hc hzero (n.whole ++ init)
  have hten : Decimal.signed n.sign.isNegative
      (Nat.ofDigitChars 10 (n.whole ++ (init ++ [c])) 0) = 10 * z := by exact_mod_cast hz
  have habs := congrArg Int.natAbs hten
  rw [Decimal.natAbs_signed, ← List.append_assoc] at habs
  omega

/-! ### Texts without an exponent that is read -/

theorem Scientific.splitOnce_text_of_none {n : Scientific} (h : n.behindPoint = none) :
    Text.splitOnce '.' (Text.dropEnd (· == '0') n.text) = none := by
  have hpoint := n.point_not_mem_text h
  refine Text.splitOnce_eq_none fun hmem => hpoint ?_
  exact (Text.dropEnd_prefix _ _).subset hmem

theorem Scientific.splitOnce_text_of_some {n : Scientific} {rest : List Char}
    (h : n.behindPoint = some rest) :
    Text.splitOnce '.' (Text.dropEnd (· == '0') n.text)
      = some (n.sign.text ++ n.whole, strippedDigits rest) := by
  rw [n.text_of_behindPoint h, Text.dropEnd_append_cons (by decide),
    Text.splitOnce_append _ n.point_not_mem_front]
  rfl

/-- **Where no exponent is read**, what stands behind the point is counted. -/
theorem impliedPlaces_of_unread (n : Scientific)
    (h : Text.signed? 32 (exponentPart n.text) = none) :
    impliedPlaces (String.ofList n.text)
      = n.behindPoint.elim 0 fun rest => Int.bmod (strippedDigits rest).length (twoTo 32) := by
  unfold exponentPart at h
  unfold impliedPlaces
  dsimp only
  rw [String.toList_ofList, h]
  dsimp only
  cases hrest : n.behindPoint with
  | none =>
    rw [n.splitOnce_text_of_none hrest]
    rfl
  | some rest =>
    have hascii : ∀ c ∈ strippedDigits rest, c.toNat < 128 := by
      intro c hc
      have hmem := (Text.dropEnd_prefix _ _).subset hc
      refine n.toNat_lt_of_mem_text ?_
      rw [n.text_of_behindPoint hrest]
      exact List.mem_append_right _ (List.mem_cons_of_mem _ hmem)
    rw [n.splitOnce_text_of_some hrest]
    dsimp only
    rw [Text.byteLength_eq_length hascii, Option.elim_some]

/-- **A plain numeral implies the places that it needs**, if they can be counted in 32 bits. -/
theorem impliedPlaces_of_plain {n : Scientific} (h : n.exponent = none)
    (hshort : (n.fraction.getD []).length < twoTo 31) :
    impliedPlaces (String.ofList n.text) = (strippedDigits (n.fraction.getD [])).length := by
  have hnone : exponentPart n.text = [] := by
    refine exponentPart_eq_nil fun c hc => n.not_isExponentMark_of_mem ?_
    rwa [n.text_eq_append, h, Option.elim_none, List.append_nil] at hc
  have hunread : Text.signed? 32 (exponentPart n.text) = none := by
    rw [hnone]
    rfl
  rw [impliedPlaces_of_unread n hunread, Scientific.behindPoint, h]
  cases hf : n.fraction with
  | none => rfl
  | some ds =>
    rw [hf, Option.getD_some] at hshort
    have htwo : twoTo 31 = 2147483648 := rfl
    have hle : (strippedDigits ds).length ≤ ds.length := (Text.dropEnd_prefix _ _).length_le
    rw [Option.map_some, Option.elim_some, Option.elim_none, List.append_nil, Option.getD_some]
    exact bmod_of_fitsWord ⟨by omega, by omega⟩

/-! ### What a text implies -/

/-- What the places say that a text implies. -/
structure ImpliesPlaces (s : String) (answer : ℤ) : Prop where
  fits : FitsWord answer
  /-- An exponent that is read is negated; only the lowest one has no negative and stays. -/
  negated : ∀ before mark power e, s.toList = before ++ mark :: power →
    (∀ c ∈ before, Decimal.isExponentMark c = false) → Decimal.isExponentMark mark = true →
    Text.signed? 32 power = some e →
    (e ≠ -2147483648 → answer = -e) ∧ (e = -2147483648 → answer = e)
  /-- Without an exponent the places are those that the number needs. -/
  plain : ∀ n : Scientific, s = String.ofList n.text → n.exponent = none →
    (n.fraction.getD []).length < twoTo 31 → ∃ k : ℕ, answer = k ∧ NeedsPlaces n.value k
  /-- With one that is not above zero they are if the digits before it spell a whole number, and
  not one with a zero at its end that the exponent would move behind the point. -/
  scaled : ∀ (n : Scientific) e, s = String.ofList n.text → n.exponent = some e →
    -2147483648 < e.value → e.value ≤ 0 → ∃ k : ℕ, answer = k ∧ e.value = -(k : ℤ) ∧
      (NeedsPlaces n.value k ↔ (∃ z : ℤ, n.mantissa.value = z) ∧
        (k = 0 ∨ ¬ ∃ z : ℤ, n.mantissa.value = 10 * z))
  /-- An exponent that is too long is taken for digits behind the point. -/
  unread : ∀ (n : Scientific) e, s = String.ofList n.text → n.exponent = some e →
    ¬ FitsWord e.value → answer = n.behindPoint.elim 0 fun rest =>
      Int.bmod (strippedDigits rest).length (twoTo 32)

theorem fitsWord_impliedPlaces (s : String) : FitsWord (impliedPlaces s) := by
  unfold impliedPlaces
  dsimp only
  split
  · exact fitsWord_bmod _
  · split
    · exact fitsWord_bmod _
    · exact ⟨by decide, by decide⟩

theorem impliedPlaces_of_read {s : String} {e : ℤ}
    (h : Text.signed? 32 (exponentPart s.toList) = some e) :
    (e ≠ -2147483648 → impliedPlaces s = -e) ∧ (e = -2147483648 → impliedPlaces s = e) := by
  obtain ⟨-, hlow, hhigh⟩ := signed?_eq_some_iff.1 h
  rw [impliedPlaces_of_exponent h]
  constructor
  · intro hne
    exact bmod_of_fitsWord ⟨by omega, by omega⟩
  · rintro rfl
    decide

theorem Scientific.exponentPart_text {n : Scientific} {e : Exponent} (h : n.exponent = some e) :
    exponentPart n.text = e.sign.text ++ e.digits := by
  have hmark : Decimal.isExponentMark e.mark = true := by
    rcases e.isMark with hm | hm <;> rw [hm] <;> rfl
  rw [n.text_eq_append, h]
  exact exponentPart_append _ (fun c => n.not_isExponentMark_of_mem) hmark

/-- **Implied places are those that the number needs, for plain numerals.** An exponent alone
decides otherwise, whatever the digits before it are, so that the places are right exactly for whole
mantissas without a zero at their end. The only exponent whose negative overflows is the lowest. -/
theorem impliesPlaces_impliedPlaces (s : String) : ImpliesPlaces s (impliedPlaces s) := by
  constructor
  case fits => exact fitsWord_impliedPlaces s
  case negated =>
    intro before mark power e hs hbefore hmark he
    refine impliedPlaces_of_read ?_
    rw [hs, exponentPart_append power hbefore hmark, he]
  case plain =>
    rintro n rfl hn hshort
    exact ⟨_, impliedPlaces_of_plain hn hshort, n.needsPlaces_value hn⟩
  case scaled =>
    rintro n e rfl hn hlow hhigh
    obtain ⟨k, hk⟩ := Int.eq_ofNat_of_zero_le (neg_nonneg.2 hhigh)
    have hread : Text.signed? 32 (exponentPart n.text) = some e.value := by
      rw [n.exponentPart_text hn]
      exact signed?_eq_some_iff.2 ⟨e.integer?_tail, by omega, by omega⟩
    have hanswer := (impliedPlaces_of_read (s := String.ofList n.text) (e := e.value)
      (by rwa [String.toList_ofList])).1 (by omega)
    refine ⟨k, hanswer.trans hk, by omega, ?_⟩
    have hvalue : n.value = n.mantissa.value / tenTo k := by
      rw [n.value_eq_mantissa, hn, Option.elim_some, show e.value = ((0 : ℕ) : ℤ) - k by omega,
        ten_zpow_sub, tenTo_zero, Nat.cast_one, mul_one_div]
    rw [hvalue]
    exact needsPlaces_div_iff _ _
  case unread =>
    rintro n e rfl hn hlong
    refine impliedPlaces_of_unread n (Option.eq_none_iff_forall_ne_some.2 fun i hi => hlong ?_)
    rw [n.exponentPart_text hn] at hi
    obtain ⟨hvalue, hfits⟩ := signed?_eq_some_iff.1 hi
    rw [e.integer?_tail, Option.some.injEq] at hvalue
    exact hvalue ▸ hfits

/-- **The digits before an exponent are ignored**: `1.5e-7` has eight fraction digits. -/
theorem mantissa_is_ignored : ∃ n : Scientific, String.ofList n.text = "1.5e-7" ∧
    (∃ e, n.exponent = some e ∧ e.value = -7) ∧ NeedsPlaces n.value 8 ∧
      impliedPlaces "1.5e-7" = 7 := by
  refine ⟨⟨.absent, ['1'], some ['5'], some ⟨'e', .minus, ['7'], .inl rfl, List.cons_ne_nil _ _,
    List.all_eq_true.1 rfl⟩, List.cons_ne_nil _ _, List.all_eq_true.1 rfl⟩, rfl, ⟨_, rfl, rfl⟩, ?_,
    by decide⟩
  have hscaled : ((15 : ℕ) : ℚ) * 10 ^ (-7 - 1 : ℤ) = (15 : ℤ) / tenTo 8 := by norm_num [tenTo]
  show NeedsPlaces ((15 : ℕ) * 10 ^ (-7 - 1 : ℤ)) 8
  rw [hscaled, needsPlaces_div_iff]
  refine ⟨⟨15, rfl⟩, .inr ?_⟩
  rintro ⟨z, hz⟩
  have hten : (15 : ℤ) = 10 * z := by exact_mod_cast hz
  omega

end Bourse
