import Bourse.Proofs.Decimal.Value

/-! # Rounding to the last place

Products and quotients of decimals are rounded to the last of their places at which the coefficient
still has 96 bits. `LastPlace cap x s c` says so of a number `x`: at `s`, the last such place up to
`cap`, it has the coefficient `c`, halves going to the even neighbour.

* `lastPlace_of_nearest?`, `lastPlace_of_fit?`: the two searches find that place;
* `LastPlace.unique`: there is one such place and one coefficient;
* `LastPlace.exact`: a number that some place shows exactly is not rounded;
* `LastPlace.le_next`: one place further on, the coefficient would have had more than 96 bits;
* `exists_div?_iff`, `exists_mul?_iff`: there is a quotient or a product exactly if the whole number
  that it rounds to has 96 bits;
* `exists_div?_of_toRat_eq`, `exists_mul?_of_toRat_eq`: one that is a decimal exists and is
  exact. -/

namespace Bourse.Decimal

open Rounding

/-- The rounding of `x` to the last place that has room. -/
structure LastPlace (cap : ℕ) (x : ℚ) (s c : ℕ) : Prop where
  le : s ≤ cap
  fits : c < twoTo 96
  rounds : Rounds .halfEven (x * tenTo s) c
  full : ∀ s' c', s < s' → s' ≤ cap → Rounds .halfEven (x * tenTo s') c' → twoTo 96 ≤ c'

section
variable {cap s c s' n : ℕ} {x : ℚ} (h : LastPlace cap x s c)
include h

/-- **Numbers that fit are kept**: what some place shows exactly is not rounded. -/
theorem LastPlace.exact (hs : s' ≤ cap) (hn : n < twoTo 96) (hx : x * tenTo s' = n) :
    x * tenTo s = c := by
  rcases Nat.lt_or_ge s s' with hlt | hge
  · -- a place beyond the last one would have had room
    have := h.full s' n hlt hs (hx ▸ rounds_natCast .halfEven n)
    omega
  · have hwhole : x * tenTo s = (n * tenTo (s - s') : ℕ) := by
      rw [← tenTo_rat_sub_mul hge, mul_left_comm, hx]
      push_cast
      ring
    have hc := h.rounds
    rw [hwhole] at hc ⊢
    exact_mod_cast (rounds_natCast .halfEven _).unique hc

/-- The coefficient is off by at most a half. -/
theorem LastPlace.abs_sub_le : |x * tenTo s - c| ≤ 1 / 2 := h.rounds.1

/-- There is one last place. -/
theorem LastPlace.unique {c' : ℕ} (h' : LastPlace cap x s' c') : s = s' ∧ c = c' := by
  rcases Nat.lt_trichotomy s s' with hlt | rfl | hgt
  · have := h.full s' c' hlt h'.le h'.rounds
    have := h'.fits
    omega
  · exact ⟨rfl, h.rounds.unique h'.rounds⟩
  · have := h'.full s c hgt h.le h.rounds
    have := h.fits
    omega

/-- One place further on there was no room. -/
theorem LastPlace.le_next (h0 : 0 ≤ x) (hs : s < cap) :
    (twoTo 96 : ℚ) - 1 / 2 ≤ x * tenTo (s + 1) := by
  obtain ⟨c', hc'⟩ := exists_rounds .halfEven (mul_nonneg h0 (tenTo_rat_pos (s + 1)).le)
  have hbig : (twoTo 96 : ℚ) ≤ c' := by
    exact_mod_cast h.full (s + 1) c' (Nat.lt_succ_self s) hs hc'
  have := abs_le.1 hc'.1
  linarith

end

/-! ### The searches -/

/-- A search through a range ends at the first hit. -/
theorem findSome?_range {α : Type} {f : ℕ → Option α} {n : ℕ} {a : α}
    (h : (List.range n).findSome? f = some a) : ∃ k < n, f k = some a ∧ ∀ j < k, f j = none := by
  induction n with
  | zero => cases h
  | succ n ih =>
    rw [List.range_succ, List.findSome?_append] at h
    cases hr : (List.range n).findSome? f with
    | some b =>
      rw [hr] at h
      obtain ⟨k, hk, hfk, hbefore⟩ := ih (hr.trans h)
      exact ⟨k, by omega, hfk, hbefore⟩
    | none =>
      rw [hr] at h
      refine ⟨n, Nat.lt_succ_self n, by simpa using h, fun j hj => ?_⟩
      exact List.findSome?_eq_none_iff.1 hr j (List.mem_range.2 hj)

/-- **The search for a quotient** ends at the last place. -/
theorem lastPlace_of_nearest? {negative : Bool} {num den : ℕ} {d : Decimal} (hden : 0 < den)
    (h : nearest? negative num den = some d) :
    LastPlace 28 (num / den) d.scale d.coefficient ∧ d.toRat = withSign negative d.size := by
  obtain ⟨k, hk, hmake, hbefore⟩ := findSome?_range h
  obtain ⟨hc, hs, -, hfits, -⟩ := make?_eq_some hmake
  -- what is rounded at a place
  have hrounds : ∀ s, Rounds .halfEven (num / den * tenTo s)
      (Rounding.halfEven.divide (num * tenTo s) den) := fun s => by
    have := rounds_divide .halfEven (num * tenTo s) hden
    rwa [Nat.cast_mul, mul_div_right_comm] at this
  refine ⟨⟨d.scale_le, d.coefficient_lt, ?_, fun s' c' hlt hle hc' => ?_⟩, toRat_make hmake⟩
  · rw [hc, hs]
    exact hrounds _
  · have hnone := hbefore (28 - s') (by unfold maxScale at hs hk; omega)
    have hback : maxScale - (28 - s') = s' := by unfold maxScale; omega
    rw [hback] at hnone
    rw [hc'.unique (hrounds s')]
    exact make?_eq_none hnone hle

/-- **The search for a product or a sum** ends at the last place. -/
theorem lastPlace_of_fit? {i : ℤ} {scale : ℕ} {d : Decimal} (h : fit? i scale = some d) :
    LastPlace (min scale 28) (i.natAbs / tenTo scale) d.scale d.coefficient ∧
      d.toRat = withSign (decide (i < 0)) d.size := by
  obtain ⟨k, hk, hmake, hbefore⟩ := findSome?_range h
  obtain ⟨hc, hs, -, -, hle28⟩ := make?_eq_some hmake
  have hrounds : ∀ j ≤ scale, Rounds .halfEven (i.natAbs / tenTo scale * tenTo (scale - j))
      (Rounding.halfEven.divide i.natAbs (tenTo j)) := fun j hj => by
    have hq : (i.natAbs : ℚ) / tenTo scale * tenTo (scale - j) = i.natAbs / tenTo j := by
      have : (tenTo scale : ℚ) = tenTo j * tenTo (scale - j) := by
        rw [mul_comm, tenTo_rat_sub_mul hj]
      rw [this, div_mul_eq_mul_div, mul_div_mul_right _ _ (tenTo_rat_ne_zero _)]
    rw [hq]
    exact rounds_divide .halfEven _ (tenTo_pos j)
  refine ⟨⟨by omega, d.coefficient_lt, ?_, fun s' c' hlt hle hc' => ?_⟩, toRat_make hmake⟩
  · rw [hc, hs]
    exact hrounds k (by omega)
  · have hnone := hbefore (scale - s') (by omega)
    have hround := hrounds (scale - s') (Nat.sub_le _ _)
    have hback : scale - (scale - s') = s' := by omega
    rw [hback] at hnone hround
    rw [hc'.unique hround]
    exact make?_eq_none hnone (by omega)

/-! ### Products and quotients of decimals -/

theorem coefficients_div_eq (a b : Decimal) :
    ((a.coefficient * tenTo b.scale : ℕ) : ℚ) / (b.coefficient * tenTo a.scale : ℕ)
      = a.size / b.size := by
  rw [size, size, div_div_div_eq]
  push_cast
  ring

theorem mantissas_mul_eq (a b : Decimal) :
    ((a.mantissa * b.mantissa).natAbs : ℚ) / tenTo (a.scale + b.scale) = a.size * b.size := by
  rw [Int.natAbs_mul, natAbs_mantissa, natAbs_mantissa, tenTo_add, size, size, div_mul_div_comm]
  push_cast
  rfl

/-- The quotient of two decimals. -/
theorem lastPlace_of_div? {a b d : Decimal} (h : a.div? b = some d) :
    ∃ s c, LastPlace 28 (a.size / b.size) s c ∧ d.size = c / tenTo s ∧
      d.toRat = withSign (a.negative != b.negative) d.size := by
  unfold div? at h
  split at h
  · cases h
  · rename_i hb
    obtain ⟨e, he, rfl⟩ := Option.map_eq_some_iff.1 h
    have hb0 : b.coefficient ≠ 0 := fun h0 => hb ((isZero_iff b).2 h0)
    have hden : 0 < b.coefficient * tenTo a.scale :=
      Nat.mul_pos (Nat.pos_of_ne_zero hb0) (tenTo_pos _)
    obtain ⟨hlast, hsign⟩ := lastPlace_of_nearest? hden he
    rw [coefficients_div_eq] at hlast
    refine ⟨e.scale, e.coefficient, hlast, ?_, ?_⟩
    · rw [size_normalize]
      rfl
    · rw [toRat_normalize, size_normalize, hsign]

theorem mantissa_mul_neg_iff {a b : Decimal} (ha : a.coefficient ≠ 0) (hb : b.coefficient ≠ 0) :
    decide (a.mantissa * b.mantissa < 0) = (a.negative != b.negative) := by
  have hpos : (0 : ℤ) < a.coefficient * b.coefficient :=
    mul_pos (by exact_mod_cast Nat.pos_of_ne_zero ha) (by exact_mod_cast Nat.pos_of_ne_zero hb)
  unfold mantissa signed
  cases a.negative <;> cases b.negative <;> simp <;> omega

/-- The product of two decimals. -/
theorem lastPlace_of_mul? {a b d : Decimal} (h : a.mul? b = some d) :
    (a.size * b.size = 0 ∧ d.toRat = 0) ∨
      (LastPlace (min (a.scale + b.scale) 28) (a.size * b.size) d.scale d.coefficient ∧
        d.toRat = withSign (a.negative != b.negative) d.size) := by
  unfold mul? at h
  split at h
  · rename_i hz
    rw [Option.some.injEq] at h
    rw [Bool.or_eq_true, isZero_iff, isZero_iff, ← size_eq_zero_iff, ← size_eq_zero_iff] at hz
    refine .inl ⟨mul_eq_zero.2 hz, ?_⟩
    rw [← h]
    simp [toRat, mantissa, signed, zero]
  · rename_i hz
    rw [Bool.or_eq_true, isZero_iff, isZero_iff, not_or] at hz
    obtain ⟨hlast, hsign⟩ := lastPlace_of_fit? h
    rw [mantissa_mul_neg_iff hz.1 hz.2] at hsign
    rw [mantissas_mul_eq] at hlast
    exact .inr ⟨hlast, hsign⟩

/-! ### When there is a result -/

/-- A number has room if its rounding to a whole number has. -/
def HasRoom (x : ℚ) : Prop := ∃ n, n < twoTo 96 ∧ Rounds .halfEven x n

theorem LastPlace.hasRoom {cap s c : ℕ} {x : ℚ} (h : LastPlace cap x s c) (h0 : 0 ≤ x) :
    HasRoom x := by
  obtain ⟨n, hn⟩ := exists_rounds .halfEven h0
  have hone : (1 : ℚ) ≤ tenTo s := by exact_mod_cast tenTo_pos s
  have hle : n ≤ c := hn.mono h.rounds (le_mul_of_one_le_right h0 hone)
  exact ⟨n, lt_of_le_of_lt hle h.fits, hn⟩

theorem hasRoom_of_le {x : ℚ} {n : ℕ} (h0 : 0 ≤ x) (hn : n < twoTo 96) (h : x ≤ n) :
    HasRoom x := by
  obtain ⟨m, hm⟩ := exists_rounds .halfEven h0
  exact ⟨m, lt_of_le_of_lt (hm.mono (rounds_natCast .halfEven n) h) hn, hm⟩

theorem hasRoom_of_le_max {x : ℚ} (h0 : 0 ≤ x) (h : x ≤ twoTo 96 - 1) : HasRoom x := by
  refine hasRoom_of_le h0 (n := twoTo 96 - 1) (by decide) ?_
  rwa [Nat.cast_sub (twoTo_pos 96), Nat.cast_one]

/-- A whole number is its own rounding. -/
theorem hasRoom_natCast_iff {n : ℕ} : HasRoom n ↔ n < twoTo 96 := by
  constructor
  · rintro ⟨m, hm, hrounds⟩
    rwa [(rounds_natCast .halfEven n).unique hrounds]
  · exact fun h => ⟨n, h, rounds_natCast .halfEven n⟩

/-- A search that could end at the last scale is successful. -/
theorem exists_of_make? {f : ℕ → Option Decimal} {n : ℕ} (h : f n ≠ none) :
    ∃ d, (List.range (n + 1)).findSome? f = some d := by
  rw [← Option.ne_none_iff_exists', ne_eq, List.findSome?_eq_none_iff]
  exact fun hnone => h (hnone n (List.mem_range.2 (Nat.lt_succ_self n)))

/-- **There is a quotient** if it has room. -/
theorem exists_nearest?_iff {negative : Bool} {num den : ℕ} (hden : 0 < den) :
    (∃ d, nearest? negative num den = some d) ↔ HasRoom (num / den) := by
  constructor
  · rintro ⟨d, hd⟩
    exact (lastPlace_of_nearest? hden hd).1.hasRoom (by positivity)
  · rintro ⟨n, hn, hrounds⟩
    refine exists_of_make? fun hnone => ?_
    have hbig := make?_eq_none hnone (Nat.sub_le _ _)
    rw [Nat.sub_self, tenTo_zero, Nat.mul_one, (rounds_divide .halfEven num hden).unique hrounds]
      at hbig
    omega

/-- **There is a product or a sum** if it has room. -/
theorem exists_fit?_iff {i : ℤ} {scale : ℕ} :
    (∃ d, fit? i scale = some d) ↔ HasRoom (i.natAbs / tenTo scale) := by
  constructor
  · rintro ⟨d, hd⟩
    exact (lastPlace_of_fit? hd).1.hasRoom (div_nonneg (Nat.cast_nonneg _) (Nat.cast_nonneg _))
  · rintro ⟨n, hn, hrounds⟩
    refine exists_of_make? fun hnone => ?_
    have hbig := make?_eq_none hnone (by omega)
    rw [(rounds_divide .halfEven i.natAbs (tenTo_pos scale)).unique hrounds] at hbig
    omega

/-- **There is a quotient of two decimals** if it has room. -/
theorem exists_div?_iff {a b : Decimal} (hb : b.coefficient ≠ 0) :
    (∃ d, a.div? b = some d) ↔ HasRoom (a.size / b.size) := by
  have hden : 0 < b.coefficient * tenTo a.scale :=
    Nat.mul_pos (Nat.pos_of_ne_zero hb) (tenTo_pos _)
  unfold div?
  rw [if_neg (mt (isZero_iff b).1 hb), ← coefficients_div_eq, ← exists_nearest?_iff hden]
  constructor
  · rintro ⟨d, hd⟩
    obtain ⟨e, he, -⟩ := Option.map_eq_some_iff.1 hd
    exact ⟨e, he⟩
  · rintro ⟨e, he⟩
    exact ⟨_, Option.map_eq_some_iff.2 ⟨e, he, rfl⟩⟩

/-- **There is a product of two decimals** if it has room. -/
theorem exists_mul?_iff {a b : Decimal} :
    (∃ d, a.mul? b = some d) ↔ HasRoom (a.size * b.size) := by
  unfold mul?
  split
  · rename_i hz
    rw [Bool.or_eq_true, isZero_iff, isZero_iff, ← size_eq_zero_iff, ← size_eq_zero_iff,
      ← mul_eq_zero] at hz
    refine iff_of_true ⟨zero, rfl⟩ ⟨0, twoTo_pos 96, ?_⟩
    rw [hz]
    exact_mod_cast rounds_natCast .halfEven 0
  · rw [exists_fit?_iff, mantissas_mul_eq]

/-! ### Results that are decimals -/

theorem hasRoom_size (d : Decimal) : HasRoom d.size := hasRoom_of_le_max d.size_nonneg d.size_le

/-- **A number that a decimal shows is not rounded**, also if the decimal has more places than are
searched, provided that the number is whole at the last of these. -/
theorem LastPlace.exact_of_size {cap s c n : ℕ} {x : ℚ} {d : Decimal}
    (h : LastPlace (min cap 28) x s c) (hwhole : x * tenTo cap = n) (hd : d.size = x) :
    (c : ℚ) / tenTo s = x := by
  rw [div_eq_iff (tenTo_rat_ne_zero s)]
  rcases Nat.le_total d.scale cap with hle | hle
  · have hx : x * tenTo d.scale = d.coefficient := by rw [← hd, size_mul_tenTo]
    exact (h.exact (le_min hle d.scale_le) d.coefficient_lt hx).symm
  · have hcoeff : n * tenTo (d.scale - cap) = d.coefficient := by
      have : d.size * tenTo d.scale = (d.coefficient : ℚ) := d.size_mul_tenTo
      rw [hd, ← tenTo_rat_sub_mul hle, mul_left_comm, hwhole] at this
      rw [mul_comm]
      exact_mod_cast this
    have hlt : n < twoTo 96 :=
      lt_of_le_of_lt (Nat.le_mul_of_pos_right _ (tenTo_pos _)) (hcoeff ▸ d.coefficient_lt)
    exact (h.exact (le_min le_rfl (hle.trans d.scale_le)) hlt hwhole).symm

section
variable {a b d : Decimal}

theorem toRat_div (a b : Decimal) :
    a.toRat / b.toRat = withSign (a.negative != b.negative) (a.size / b.size) := by
  rw [toRat_eq, toRat_eq]
  cases a.negative <;> cases b.negative <;> simp [withSign, neg_div, div_neg]

theorem toRat_mul (a b : Decimal) :
    a.toRat * b.toRat = withSign (a.negative != b.negative) (a.size * b.size) := by
  rw [toRat_eq, toRat_eq]
  cases a.negative <;> cases b.negative <;> simp [withSign]

/-- **A quotient that is a decimal is exact.** -/
theorem exists_div?_of_toRat_eq (hb : b.coefficient ≠ 0) (hd : d.toRat = a.toRat / b.toRat) :
    ∃ q, a.div? b = some q ∧ q.toRat = d.toRat := by
  have hsize : d.size = a.size / b.size := by
    rw [← abs_toRat, hd, abs_div, abs_toRat, abs_toRat]
  obtain ⟨q, hq⟩ := (exists_div?_iff hb).2 (hsize ▸ d.hasRoom_size)
  obtain ⟨s, c, hlast, hqsize, hsign⟩ := lastPlace_of_div? hq
  have hexact := hlast.exact d.scale_le d.coefficient_lt (by rw [← hsize, size_mul_tenTo])
  refine ⟨q, hq, ?_⟩
  rw [hsign, hqsize, ← hexact, mul_div_cancel_right₀ _ (tenTo_rat_ne_zero s), hd, toRat_div]

/-- **A product that is a decimal is exact.** -/
theorem exists_mul?_of_toRat_eq (hd : d.toRat = a.toRat * b.toRat) :
    ∃ r, a.mul? b = some r ∧ r.toRat = d.toRat := by
  have hsize : d.size = a.size * b.size := by
    rw [← abs_toRat, hd, abs_mul, abs_toRat, abs_toRat]
  obtain ⟨r, hr⟩ := exists_mul?_iff.2 (hsize ▸ d.hasRoom_size)
  refine ⟨r, hr, ?_⟩
  rw [hd, toRat_mul]
  rcases lastPlace_of_mul? hr with ⟨hzero, hr0⟩ | ⟨hlast, hsign⟩
  · rw [hr0, hzero]
    simp [withSign]
  · have hwhole : a.size * b.size * tenTo (a.scale + b.scale)
        = (a.coefficient * b.coefficient : ℕ) := by
      rw [tenTo_add]
      push_cast
      rw [mul_mul_mul_comm, size_mul_tenTo, size_mul_tenTo]
    rw [hsign]
    congr 1
    exact hlast.exact_of_size hwhole hsize

end

end Bourse.Decimal
