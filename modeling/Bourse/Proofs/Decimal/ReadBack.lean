import Bourse.Decimal.Text
import Bourse.Proofs.Decimal.Normal
import Bourse.Proofs.Decimal.Numeral

/-! # Decimals read back

The full text of a decimal reads as the decimal itself, with the same digits behind the point. Only
a zero loses its sign, since reading a plain numeral gives none to zero (`settled`), and so the
value is the same.

* `scanFrom_whole`, `scanFrom_fraction`: reading digits before and behind the point, by induction on
  them; no digit of a decimal is beyond the capacity, since the number so far never exceeds the
  whole;
* `ofText?_toText`: the text reads as the settled decimal, and the numeral of an integer as that
  integer (`exists_ofInt?`);
* `scanFrom_zeros`: zeros behind the last digit are read as far as there is room and passed over
  from there on, so that they do not change the number (`exists_ofText?_withZeros`). -/

namespace Bourse

namespace Decimal

/-! ### Zeros without sign -/

/-- The decimal without the sign of a zero. -/
def settled (d : Decimal) : Decimal := { d with negative := d.negative && d.coefficient != 0 }

theorem toRat_settled (d : Decimal) : d.settled.toRat = d.toRat := by
  rw [toRat_eq, toRat_eq]
  have hsize : d.settled.size = d.size := rfl
  rw [hsize]
  by_cases hzero : d.coefficient = 0
  · have hnone : d.size = 0 := (size_eq_zero_iff d).2 hzero
    rw [hnone]
    simp [withSign]
  · have hsome : (d.coefficient != 0) = true := by simp [hzero]
    show withSign (d.negative && d.coefficient != 0) d.size = _
    rw [hsome, Bool.and_true]

theorem make?_settled (d : Decimal) : make? d.negative d.coefficient d.scale = some d.settled := by
  unfold make?
  rw [dif_pos ⟨d.coefficient_lt, d.scale_le⟩]
  rfl

/-! ### Reading digits -/

theorem le_ofDigitChars (cs : List Char) (n : ℕ) : n ≤ Nat.ofDigitChars 10 cs n := by
  induction cs generalizing n with
  | nil => exact le_refl n
  | cons c cs ih =>
    rw [Nat.ofDigitChars_cons]
    have := ih (10 * n + (c.toNat - '0'.toNat))
    omega

/-- One digit, if there is room for it. -/
theorem scanFrom_digit {st : Scan} {c : Char} (hfull : st.isFull = false) (hc : c.isDigit = true)
    (hlt : 10 * st.coefficient + (c.toNat - '0'.toNat) < limit) (cs : List Char) :
    scanFrom st (c :: cs) = scanFrom
      { coefficient := 10 * st.coefficient + (c.toNat - '0'.toNat)
        scale := if st.point then st.scale + 1 else 0
        point := st.point
        digit := true } cs := by
  have hdigit : Text.digit? c = some (c.toNat - '0'.toNat) := by rw [Text.digit?, if_pos hc]
  have hnext : st.coefficient * 10 + (c.toNat - '0'.toNat)
      = 10 * st.coefficient + (c.toNat - '0'.toNat) := by rw [Nat.mul_comm]
  rw [scanFrom, hfull, hdigit]
  simp only [Bool.false_eq_true, if_false, hnext]
  rw [if_pos hlt]

/-- **The digits before the point.** -/
theorem scanFrom_whole {cs : List Char} (rest : List Char) {n : ℕ} (digit : Bool)
    (hcs : ∀ c ∈ cs, c.isDigit = true) (hlt : Nat.ofDigitChars 10 cs n < limit) :
    scanFrom ⟨n, 0, false, digit⟩ (cs ++ rest)
      = scanFrom ⟨Nat.ofDigitChars 10 cs n, 0, false, digit || !cs.isEmpty⟩ rest := by
  induction cs generalizing n digit with
  | nil => simp
  | cons c cs ih =>
    rw [Nat.ofDigitChars_cons] at hlt ⊢
    have hroom := lt_of_le_of_lt (le_ofDigitChars cs _) hlt
    rw [List.cons_append, scanFrom_digit rfl (hcs c List.mem_cons_self) hroom]
    have hnext := ih true (fun d hd => hcs d (List.mem_cons_of_mem _ hd)) hlt
    simpa using hnext

/-- **The digits behind the point**, of which there are no more than a decimal can hold. -/
theorem scanFrom_fraction {cs : List Char} (rest : List Char) {n s : ℕ}
    (hcs : ∀ c ∈ cs, c.isDigit = true) (hlt : Nat.ofDigitChars 10 cs n < limit)
    (hs : s + cs.length ≤ maxScale) :
    scanFrom ⟨n, s, true, true⟩ (cs ++ rest)
      = scanFrom ⟨Nat.ofDigitChars 10 cs n, s + cs.length, true, true⟩ rest := by
  induction cs generalizing n s with
  | nil => simp
  | cons c cs ih =>
    rw [List.length_cons] at hs ⊢
    rw [Nat.ofDigitChars_cons] at hlt ⊢
    have hroom := lt_of_le_of_lt (le_ofDigitChars cs _) hlt
    have hfull : Scan.isFull ⟨n, s, true, true⟩ = false := by
      have hshort : ¬ maxScale ≤ s := by omega
      simp [Scan.isFull, hshort]
    rw [List.cons_append, scanFrom_digit hfull (hcs c List.mem_cons_self) hroom]
    have hnext := ih (s := s + 1) (fun d hd => hcs d (List.mem_cons_of_mem _ hd)) hlt (by omega)
    rw [if_pos rfl, hnext]
    congr 2
    omega

/-- **Zeros behind the last digit** do not change the number, whether they have room or not. -/
theorem scanFrom_zeros (k : ℕ) {n s : ℕ} (hn : n < limit) (hs : s ≤ maxScale) :
    ∃ c t, scanFrom ⟨n, s, true, true⟩ (List.replicate k '0') = some (c, t) ∧ c < limit ∧
      t ≤ maxScale ∧ c * tenTo s = n * tenTo t := by
  induction k generalizing n s with
  | zero => exact ⟨n, s, rfl, hn, hs, rfl⟩
  | succ k ih =>
    -- a zero without room ends the numeral, since it rounds nothing up
    have hfinish : Scan.finish ⟨n, s, true, true⟩ (List.replicate (k + 1) '0') = some (n, s) := by
      have hall : (List.replicate (k + 1) '0').all (fun c => c.isDigit || c == '_') = true := by
        rw [List.all_eq_true]
        intro c hc
        rw [(List.mem_replicate.1 hc).2]
        rfl
      unfold Scan.finish
      rw [if_pos hall, List.replicate_succ]
      simp [Text.digit?, Scan.roundOff]
    rw [List.replicate_succ] at hfinish ⊢
    by_cases hfull : Scan.isFull ⟨n, s, true, true⟩ = true
    · rw [scanFrom, if_pos hfull, hfinish]
      exact ⟨n, s, rfl, hn, hs, rfl⟩
    · have hshort : s + 1 ≤ maxScale := by
        simpa [Scan.isFull] using hfull
      by_cases hroom : 10 * n < limit
      · rw [Bool.not_eq_true] at hfull
        have hzero : '0'.isDigit = true := rfl
        rw [scanFrom_digit hfull hzero hroom]
        obtain ⟨c, t, hscan, hc, ht, hvalue⟩ := ih hroom hshort
        refine ⟨c, t, hscan, hc, ht, ?_⟩
        rw [tenTo_succ] at hvalue
        nlinarith
      · have hdigit : Text.digit? '0' = some 0 := rfl
        have hroom' : ¬ n * 10 + 0 < limit := by omega
        rw [scanFrom, if_neg hfull, hdigit]
        dsimp only
        rw [if_neg hroom', if_pos rfl, hfinish]
        exact ⟨n, s, rfl, hn, hs, rfl⟩

/-! ### Reading texts -/

section
variable (d : Decimal)

theorem ofDigitChars_numeral :
    Nat.ofDigitChars 10 d.numeral.fraction (Nat.ofDigitChars 10 d.numeral.whole 0)
      = d.coefficient := by
  rw [← Nat.ofDigitChars_append, whole_append_fraction_numeral, Text.ofDigitChars_paddedDigits]

theorem scanFrom_whole_numeral (rest : List Char) :
    scanFrom ⟨0, 0, false, false⟩ (d.numeral.whole ++ rest)
      = scanFrom ⟨Nat.ofDigitChars 10 d.numeral.whole 0, 0, false, true⟩ rest := by
  have hle : Nat.ofDigitChars 10 d.numeral.whole 0 ≤ d.coefficient :=
    d.ofDigitChars_numeral ▸ le_ofDigitChars d.numeral.fraction _
  have hne : (!d.numeral.whole.isEmpty) = true := by simp [d.numeral.whole_ne_nil]
  rw [scanFrom_whole rest false d.numeral.whole_isDigit (lt_of_le_of_lt hle d.coefficient_lt), hne,
    Bool.or_true]

/-- All digits of a decimal have room, whatever follows them. -/
theorem scanFrom_numeral (rest : List Char) :
    scanFrom ⟨0, 0, false, false⟩ (d.numeral.whole ++ '.' :: (d.numeral.fraction ++ rest))
      = scanFrom ⟨d.coefficient, d.scale, true, true⟩ rest := by
  have hlen := d.length_fraction_numeral
  have hvalue := d.ofDigitChars_numeral
  have hdigits : ∀ c ∈ d.numeral.fraction, c.isDigit = true := fun c hc =>
    d.numeral.isDigit c (List.mem_append_right _ hc)
  have hfraction := scanFrom_fraction rest (s := 0) hdigits
    (lt_of_eq_of_lt hvalue d.coefficient_lt) (by rw [hlen, Nat.zero_add]; exact d.scale_le)
  rw [hvalue, hlen, Nat.zero_add] at hfraction
  rw [scanFrom_whole_numeral, ← hfraction, scanFrom]
  simp [Scan.isFull, Text.digit?]

theorem scanFrom_body :
    scanFrom ⟨0, 0, false, false⟩ d.numeral.body = some (d.coefficient, d.scale) := by
  unfold Numeral.body
  by_cases hnil : d.numeral.fraction = []
  · have hlen := d.length_fraction_numeral
    have hvalue := d.ofDigitChars_numeral
    rw [hnil] at hlen hvalue
    rw [if_pos hnil, scanFrom_whole_numeral, scanFrom, if_pos rfl, ← hlen, ← hvalue]
    rfl
  · have hscan := d.scanFrom_numeral []
    rw [List.append_nil] at hscan
    rw [if_neg hnil, hscan]
    rfl

/-- **Padding is read as the number behind it.** -/
theorem scanFrom_withZeros (count : ℕ) :
    ∃ c t, scanFrom ⟨0, 0, false, false⟩ (d.numeral.withZeros count).body = some (c, t) ∧
      c < limit ∧ t ≤ maxScale ∧ c * tenTo d.scale = d.coefficient * tenTo t := by
  cases count with
  | zero =>
    rw [Numeral.withZeros_zero, scanFrom_body]
    exact ⟨_, _, rfl, d.coefficient_lt, d.scale_le, rfl⟩
  | succ count =>
    have hne : (d.numeral.withZeros (count + 1)).fraction ≠ [] := by simp [Numeral.withZeros]
    unfold Numeral.body
    rw [if_neg hne]
    show ∃ c t, scanFrom _ (d.numeral.whole ++ '.' :: (d.numeral.fraction ++ _)) = _ ∧ _
    rw [scanFrom_numeral]
    exact scanFrom_zeros (count + 1) d.coefficient_lt d.scale_le

end

/-- A numeral without its sign begins with a digit. -/
theorem exists_body_eq_cons (n : Numeral) : ∃ c rest, n.body = c :: rest ∧ c.isDigit = true := by
  obtain ⟨c, rest, hwhole⟩ := List.exists_cons_of_ne_nil n.whole_ne_nil
  have hc : c.isDigit = true := n.whole_isDigit c (by rw [hwhole]; exact List.mem_cons_self)
  refine ⟨c, rest ++ if n.fraction = [] then [] else '.' :: n.fraction, ?_, hc⟩
  rw [Numeral.body, hwhole, List.cons_append]

/-- The sign of a numeral is read first. -/
theorem ofPlain?_text (n : Numeral) : ofPlain? n.text = ofScan? n.negative n.body := by
  rw [ofPlain?, Numeral.text, String.toList_ofList]
  cases n.negative with
  | true => rfl
  | false =>
    obtain ⟨c, rest, hbody, hc⟩ := exists_body_eq_cons n
    have hminus : c ≠ '-' := by
      rintro rfl
      cases hc
    have hplus : c ≠ '+' := by
      rintro rfl
      cases hc
    rw [hbody]
    simp [hminus, hplus]

theorem ofPlain?_toText (d : Decimal) : ofPlain? d.toText = some d.settled := by
  rw [toText_eq_text, ofPlain?_text, ← make?_settled, ofScan?, scanFrom_body]
  rfl

/-- **The full text of a decimal reads as the decimal**, but for the sign of a zero. -/
theorem ofText?_toText (d : Decimal) : ofText? d.toText = some d.settled := by
  rw [ofText?, ofPlain?_toText]
  rfl

/-- The decimal of an integer has its sign and its size, and no fraction digits. -/
theorem ofInt?_eq_some_iff {i : ℤ} {d : Decimal} :
    ofInt? i = some d ↔ d.negative = decide (i < 0) ∧ d.coefficient = i.natAbs ∧ d.scale = 0 := by
  have hsign : (decide (i < 0) && i.natAbs != 0) = decide (i < 0) := by
    by_cases hneg : i < 0
    · have hne : (i.natAbs != 0) = true := by simpa using hneg.ne
      rw [hne, Bool.and_true]
    · simp [hneg]
  constructor
  · intro h
    obtain ⟨hcoefficient, hscale, hnegative, -, -⟩ := make?_eq_some h
    exact ⟨hnegative.trans hsign, hcoefficient, hscale⟩
  · obtain ⟨negative, coefficient, scale, hlt, hle⟩ := d
    rintro ⟨rfl, rfl, rfl⟩
    unfold ofInt? make?
    rw [dif_pos ⟨hlt, hle⟩]
    simp only [hsign]

/-- **Whole numbers**: an integer with room is a decimal without fraction digits, whose text is its
numeral and reads back. -/
theorem exists_ofInt? {i : ℤ} (h : i.natAbs < twoTo 96) :
    ∃ d, ofInt? i = some d ∧ ofText? (String.ofList (Text.numeral i)) = some d ∧ d.toRat = i ∧
      d.scale = 0 := by
  obtain ⟨d, hd⟩ : ∃ d, ofInt? i = some d := ⟨_, dif_pos ⟨h, Nat.zero_le _⟩⟩
  obtain ⟨hnegative, hcoefficient, hscale⟩ := ofInt?_eq_some_iff.1 hd
  have hsettled : d.settled = d := by
    have hmake := make?_settled d
    rw [hnegative, hcoefficient, hscale] at hmake
    exact Option.some.inj (hmake.symm.trans hd)
  have htext : d.toText = String.ofList (Text.numeral i) := by
    have hpadded : Text.paddedDigits (0 + 1) i.natAbs = Text.digits i.natAbs := by
      have hlen := List.length_pos_iff.2 (Text.digits_ne_nil i.natAbs)
      rw [Text.paddedDigits, Nat.sub_eq_zero_of_le hlen, List.replicate_zero, List.nil_append]
    rw [toText, hnegative, hscale, hcoefficient, Text.numeral, pointed, if_pos rfl, hpadded]
    by_cases hneg : i < 0
    · simp [hneg]
    · simp [hneg]
  refine ⟨d, hd, ?_, ?_, hscale⟩
  · rw [← htext, ofText?_toText, hsettled]
  · rw [toRat, mantissa, hnegative, hcoefficient, signed_natAbs, hscale, tenTo_zero, Nat.cast_one,
      div_one]

/-- **A decimal with zeros behind it reads as its number**, also where there are more zeros than a
decimal can hold. -/
theorem exists_ofText?_withZeros (d : Decimal) (count : ℕ) :
    ∃ e, ofText? (d.numeral.withZeros count).text = some e ∧ e.toRat = d.toRat := by
  obtain ⟨c, t, hscan, hc, ht, hvalue⟩ := d.scanFrom_withZeros count
  obtain ⟨e, he⟩ : ∃ e, make? d.negative c t = some e := ⟨_, dif_pos ⟨hc, ht⟩⟩
  have hread : ofPlain? (d.numeral.withZeros count).text = some e := by
    rw [ofPlain?_text, ofScan?, hscan]
    exact he
  refine ⟨e, by rw [ofText?, hread, Option.some_or], ?_⟩
  obtain ⟨hcoeff, hscale, -⟩ := make?_eq_some he
  have hsize : e.size = d.size := by
    rw [size, size, hcoeff, hscale,
      div_eq_div_iff (tenTo_rat_ne_zero t) (tenTo_rat_ne_zero d.scale)]
    exact_mod_cast hvalue
  rw [toRat_make he, hsize, toRat_eq]

end Decimal

end Bourse
