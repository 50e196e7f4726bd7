import Bourse.Proofs.Text.Blank
import Bourse.Proofs.Text.Digits
import Bourse.Proofs.Time.Calendar
import Bourse.Time.Iso8601

/-! # Timestamps read back

A timestamp reads back as the instant that it was rendered from. A year of four digits is read by
the strict form (`strict_stamp`); any other year has a sign, which the strict form refuses, and is
read by the loose one, once the `Z` has been taken off (`loose_stamp`, `dropEnd_stamp`). Timestamps
with years of four digits are ordered as the instants are, since their fields have one width
(`stamp_lt`). -/

namespace Bourse.Iso8601

open Text Reader

variable {α : Type} {m n w ms : ℕ} {c : Char} {r s rest : List Char} {d e : Date}

/-! ### Fields -/

theorem blanks_of_not_isBlank (h : isBlank c = false) (rest : List Char) :
    blanks (c :: rest) = some ((), c :: rest) := by
  simp [blanks, dropStart, h]

theorem number_two (h : n < 100) : number 2 2 (paddedDigits 2 n ++ rest) = some (n, rest) :=
  number_paddedDigits (by decide) h le_rfl le_rfl (.inl rfl)

theorem looseField_two (h : n < 100) : looseField (paddedDigits 2 n ++ rest) = some (n, rest) := by
  obtain ⟨c, ds, hcons, hc⟩ := exists_paddedDigits_eq_cons 2 n
  have hread : number 1 2 (paddedDigits 2 n ++ rest) = some (n, rest) :=
    number_paddedDigits (by decide) h (by decide) le_rfl (.inl rfl)
  rw [hcons, List.cons_append] at hread ⊢
  rw [looseField, bind_of_eq_some (blanks_of_not_isBlank (not_isBlank_of_isDigit hc) _)]
  exact hread

theorem fractionPart_three (h : n < 1000) (hrest : ∀ c ∈ rest.head?, c.isDigit = false) :
    fractionPart ('.' :: (paddedDigits 3 n ++ rest)) = some (n, rest) := by
  have hlen : (paddedDigits 3 n).length = 3 := length_paddedDigits_eq (by decide) h
  have hcount : counted 1 9 (paddedDigits 3 n ++ rest) = some ((n, 3), rest) := by
    rw [counted_append (fun c => isDigit_of_mem_paddedDigits) (by omega) (by omega) (.inr hrest),
      ofDigitChars_paddedDigits, hlen]
  have hdone : takeWhile Char.isDigit rest = some ([], rest) := by
    cases rest with
    | nil => rfl
    | cons c rest => simp [Reader.takeWhile, hrest c rfl]
  have hmillis : n * tenTo (9 - 3) / 1000000 = n := Nat.mul_div_cancel n (by decide)
  have hfraction : fraction (paddedDigits 3 n ++ rest) = some (n, rest) := by
    rw [fraction, bind_of_eq_some hcount]
    dsimp only
    rw [bind_of_eq_some hdone, hmillis]
    rfl
  have hpoint : accept (· == '.') ('.' :: (paddedDigits 3 n ++ rest))
      = some (true, paddedDigits 3 n ++ rest) := rfl
  rw [fractionPart, bind_of_eq_some hpoint]
  exact hfraction

theorem looseYear_signed (y : ℤ) (rest : List Char) :
    looseYear ((if y < 0 then '-' else '+') :: (paddedDigits 4 y.natAbs ++ '-' :: rest))
      = some (y, '-' :: rest) := by
  have hread : anyNumber (paddedDigits 4 y.natAbs ++ '-' :: rest) = some (y.natAbs, '-' :: rest) :=
    anyNumber_paddedDigits 4 y.natAbs (by simp)
  set digits := paddedDigits 4 y.natAbs ++ '-' :: rest
  rw [looseYear]
  split
  · have hminus : accept (· == '-') ('-' :: digits) = some (true, digits) := rfl
    have hy : -(y.natAbs : ℤ) = y := by omega
    rw [bind_of_eq_some (blanks_of_not_isBlank (by decide) _), bind_of_eq_some hminus, if_pos rfl,
      bind_of_eq_some hread, hy]
    rfl
  · have hminus : accept (· == '-') ('+' :: digits) = some (false, '+' :: digits) := rfl
    have hplus : accept (· == '+') ('+' :: digits) = some (true, digits) := rfl
    have hy : (y.natAbs : ℤ) = y := by omega
    rw [bind_of_eq_some (blanks_of_not_isBlank (by decide) _), bind_of_eq_some hminus,
      if_neg (by decide), bind_of_eq_some hplus, if_pos rfl, bind_of_eq_some hread, hy]
    rfl

/-! ### The text of a timestamp -/

/-- The time of day, and what follows it. -/
def clock (ms : ℕ) (rest : List Char) : List Char :=
  paddedDigits 2 (ms / 1000 / 3600) ++ ':' :: (paddedDigits 2 (ms / 1000 / 60 % 60) ++ ':' ::
    (paddedDigits 2 (ms / 1000 % 60) ++ '.' :: (paddedDigits 3 (ms % 1000) ++ rest)))

/-- The date and the time of day, and what follows them. -/
def stamp (d : Date) (ms : ℕ) (rest : List Char) : List Char :=
  yearText d.year ++ '-' :: (paddedDigits 2 d.month ++ '-' :: (paddedDigits 2 d.day ++ 'T' ::
    clock ms rest))

theorem stamp_eq (d : Date) (ms : ℕ) (rest : List Char) :
    dateText d ++ 'T' :: (timeText ms ++ rest) = stamp d ms rest := by
  simp [dateText, timeText, stamp, clock]

theorem yearText_of_le {y : ℤ} (h : 0 ≤ y ∧ y ≤ 9999) : yearText y = paddedDigits 4 y.natAbs :=
  if_pos h

theorem yearText_of_not_le {y : ℤ} (h : ¬ (0 ≤ y ∧ y ≤ 9999)) :
    yearText y = (if y < 0 then '-' else '+') :: paddedDigits 4 y.natAbs :=
  if_neg h

/-! ### Reading one -/

theorem at?_clock (d : Date) (hms : ms < 86400000) :
    Instant.at? d (ms / 1000 / 3600) (ms / 1000 / 60 % 60) (ms / 1000 % 60) (ms % 1000) 0
      = some (d.number * dayLength + ms) := by
  have hsum : (((ms / 1000 / 3600 * 60 + ms / 1000 / 60 % 60) * 60 + ms / 1000 % 60 : ℕ) : ℤ)
      * 1000 + (ms % 1000 : ℕ) = ms := by omega
  rw [Instant.at?, if_pos (by omega), zero_mul, sub_zero, add_assoc, hsum]

theorem lift_some (x : α) (cs : List Char) : (liftM (some x) : Reader α) cs = some (x, cs) := rfl

section
variable (hd : d.Valid) (hrange : Date.inRange d.year = true) (hms : ms < 86400000)
include hd hrange hms

/-- **The strict form** reads years of four digits. -/
theorem strict_stamp (h : 0 ≤ d.year ∧ d.year ≤ 9999) :
    strict (stamp d ms ['Z']) = some (d.number * dayLength + ms, []) := by
  have hyear : ∀ rest, number 4 4 (paddedDigits 4 d.year.natAbs ++ rest)
      = some (d.year.natAbs, rest) := fun rest =>
    number_paddedDigits (by decide) (by omega) le_rfl le_rfl (.inl rfl)
  have hT : ∀ rest, satisfy (fun c => c == 'T' || c == 't' || c == ' ') ('T' :: rest)
      = some ('T', rest) := fun _ => rfl
  have hZ : offset ['Z'] = some (0, []) := rfl
  have hdate : Date.make? (d.year.natAbs : ℤ) d.month d.day = some d := by
    rw [Int.natAbs_of_nonneg h.1]
    exact Date.make?_of_valid hd hrange
  rw [stamp, yearText_of_le h, strict, clock, bind_of_eq_some (hyear _),
    bind_of_eq_some (char_cons _ _), bind_of_eq_some (number_two hd.month_lt),
    bind_of_eq_some (char_cons _ _), bind_of_eq_some (number_two hd.day_lt),
    bind_of_eq_some (hT _),
    bind_of_eq_some (number_two (by omega)), bind_of_eq_some (char_cons _ _),
    bind_of_eq_some (number_two (by omega)), bind_of_eq_some (char_cons _ _),
    bind_of_eq_some (number_two (by omega)),
    bind_of_eq_some (fractionPart_three (by omega) (by simp)), bind_of_eq_some hZ, hdate,
    bind_of_eq_some (lift_some _ _), at?_clock d hms]
  rfl

/-- **The loose form** reads years with a sign. -/
theorem loose_stamp (h : ¬ (0 ≤ d.year ∧ d.year ≤ 9999)) :
    loose (char 'T') (stamp d ms []) = some (d.number * dayLength + ms, []) := by
  rw [stamp, yearText_of_not_le h, loose, clock, List.cons_append,
    bind_of_eq_some (looseYear_signed d.year _), bind_of_eq_some (char_cons _ _),
    bind_of_eq_some (looseField_two hd.month_lt), bind_of_eq_some (char_cons _ _),
    bind_of_eq_some (looseField_two hd.day_lt), bind_of_eq_some (char_cons _ _),
    bind_of_eq_some (looseField_two (by omega)), bind_of_eq_some (char_cons _ _),
    bind_of_eq_some (looseField_two (by omega)), bind_of_eq_some (char_cons _ _),
    bind_of_eq_some (looseField_two (by omega)),
    bind_of_eq_some (fractionPart_three (by omega) (by simp)), Date.make?_of_valid hd hrange,
    bind_of_eq_some (lift_some _ _), at?_clock d hms]
  rfl

end

/-- The strict form refuses a sign. -/
theorem strict_of_not_le (h : ¬ (0 ≤ d.year ∧ d.year ≤ 9999)) (ms : ℕ) (rest : List Char) :
    strict (stamp d ms rest) = none := by
  have hsign : (if d.year < 0 then '-' else '+').isDigit = false := by
    split <;> rfl
  rw [stamp, yearText_of_not_le h, List.cons_append]
  show ((counted 4 4 _).bind _).bind _ = none
  rw [counted_of_not_isDigit (by decide) 4 hsign]
  rfl

/-! ### Its ends -/

theorem exists_stamp_eq_cons (d : Date) (ms : ℕ) (rest : List Char) :
    ∃ a cs, stamp d ms rest = a :: cs ∧ isBlank a = false := by
  by_cases h : 0 ≤ d.year ∧ d.year ≤ 9999
  · obtain ⟨a, cs, hcons, ha⟩ := exists_paddedDigits_eq_cons 4 d.year.natAbs
    rw [stamp, yearText_of_le h, hcons]
    exact ⟨a, _, rfl, not_isBlank_of_isDigit ha⟩
  · rw [stamp, yearText_of_not_le h]
    exact ⟨_, _, rfl, by split <;> decide⟩

theorem exists_stamp_eq_append (d : Date) (ms : ℕ) :
    ∃ body c, c.isDigit = true ∧ ∀ rest, stamp d ms rest = body ++ [c] ++ rest := by
  obtain ⟨ds, c, hconcat, hc⟩ := exists_paddedDigits_eq_concat 3 (ms % 1000)
  refine ⟨yearText d.year ++ '-' :: (paddedDigits 2 d.month ++ '-' :: (paddedDigits 2 d.day ++
    'T' :: (paddedDigits 2 (ms / 1000 / 3600) ++ ':' :: (paddedDigits 2 (ms / 1000 / 60 % 60) ++
      ':' :: (paddedDigits 2 (ms / 1000 % 60) ++ '.' :: ds))))), c, hc, fun rest => ?_⟩
  rw [stamp, clock, hconcat]
  simp

/-- The mark of universal time is taken off, and nothing else. -/
theorem dropEnd_stamp (d : Date) (ms : ℕ) :
    dropEnd (· == 'Z') (stamp d ms ['Z']) = stamp d ms [] := by
  obtain ⟨body, c, hc, hstamp⟩ := exists_stamp_eq_append d ms
  have hZ : (c == 'Z') = false := by
    rw [beq_eq_false_iff_ne]
    rintro rfl
    cases hc
  rw [hstamp, hstamp, List.append_nil, List.append_assoc, List.singleton_append,
    dropEnd_append_cons (p := (· == 'Z')) hZ]
  rfl

/-- There is no white space at its ends. -/
theorem trim_stamp (d : Date) (ms : ℕ) :
    (trim (String.ofList (stamp d ms ['Z']))).toList = stamp d ms ['Z'] := by
  obtain ⟨a, cs, hcons, ha⟩ := exists_stamp_eq_cons d ms ['Z']
  obtain ⟨body, c, -, hstamp⟩ := exists_stamp_eq_append d ms
  have hZ : isBlank 'Z' = false := by decide
  have hstart : dropStart isBlank (stamp d ms ['Z']) = stamp d ms ['Z'] := by
    rw [hcons, dropStart, List.dropWhile_cons_of_neg (by simp [ha])]
  rw [trim, String.toList_ofList, String.toList_ofList, hstart, hstamp, dropEnd_append_cons hZ]
  rfl

/-! ### Its order -/

theorem field_lt (hw : 0 < w) (hn : n < 10 ^ w) (h : m < n ∨ m = n ∧ r < s) :
    paddedDigits w m ++ c :: r < paddedDigits w n ++ c :: s := by
  refine paddedDigits_append_lt hw hn (h.imp_right fun hrest => ⟨hrest.1, ?_⟩)
  exact List.cons_lt_cons_iff.2 (.inr ⟨rfl, hrest.2⟩)

theorem clock_lt (h : m < n) (hn : n < 86400000) (r s : List Char) : clock m r < clock n s := by
  have hfields : m / 1000 / 3600 < n / 1000 / 3600 ∨ m / 1000 / 3600 = n / 1000 / 3600 ∧
      (m / 1000 / 60 % 60 < n / 1000 / 60 % 60 ∨ m / 1000 / 60 % 60 = n / 1000 / 60 % 60 ∧
        (m / 1000 % 60 < n / 1000 % 60 ∨ m / 1000 % 60 = n / 1000 % 60 ∧
          m % 1000 < n % 1000)) := by omega
  unfold clock
  refine field_lt (by decide) (by omega) (hfields.imp_right (And.imp_right fun hminutes => ?_))
  refine field_lt (by decide) (by omega) (hminutes.imp_right (And.imp_right fun hseconds => ?_))
  refine field_lt (by decide) (by omega) (hseconds.imp_right (And.imp_right fun hmillis => ?_))
  exact paddedDigits_append_lt (by decide) (by omega) (.inl hmillis)

/-- **Later dates and times** have greater texts. -/
theorem stamp_lt (he : e.Valid) (hdy : 0 ≤ d.year ∧ d.year ≤ 9999)
    (hey : 0 ≤ e.year ∧ e.year ≤ 9999) (hn : n < 86400000) (h : d.Before e ∨ d = e ∧ m < n)
    (r s : List Char) : stamp d m r < stamp e n s := by
  have hmonth := he.month_lt
  have hday := he.day_lt
  have hfields : d.year.natAbs < e.year.natAbs ∨ d.year.natAbs = e.year.natAbs ∧
      (d.month < e.month ∨ d.month = e.month ∧ (d.day < e.day ∨ d.day = e.day ∧ m < n)) := by
    rcases h with hbefore | ⟨rfl, hlt⟩
    · unfold Date.Before at hbefore
      omega
    · omega
  unfold stamp
  rw [yearText_of_le hdy, yearText_of_le hey]
  refine field_lt (by decide) (by omega) (hfields.imp_right (And.imp_right fun hmonths => ?_))
  refine field_lt (by decide) (by omega) (hmonths.imp_right (And.imp_right fun hdays => ?_))
  refine field_lt (by decide) (by omega) (hdays.imp_right (And.imp_right fun hlt => ?_))
  exact clock_lt hlt hn r s

theorem length_stamp (hd : d.Valid) (h : 0 ≤ d.year ∧ d.year ≤ 9999) (hms : ms < 86400000) :
    (stamp d ms ['Z']).length = 24 := by
  have hyear : (paddedDigits 4 d.year.natAbs).length = 4 :=
    length_paddedDigits_eq (by decide) (by omega)
  have htwo : ∀ k < 100, (paddedDigits 2 k).length = 2 := fun k hk =>
    length_paddedDigits_eq (by decide) hk
  have hmillis : (paddedDigits 3 (ms % 1000)).length = 3 :=
    length_paddedDigits_eq (by decide) (by omega)
  unfold stamp clock
  rw [yearText_of_le h]
  simp only [List.length_append, List.length_cons, List.length_nil]
  rw [hyear, htwo _ hd.month_lt, htwo _ hd.day_lt, htwo _ (by omega), htwo _ (by omega),
    htwo _ (by omega), hmillis]

/-! ### Instants -/

/-- The date of an instant. -/
def dateOf (t : Instant) : Date := Date.ofNumber (t / dayLength)

/-- The time of day of an instant in milliseconds. -/
def millisOf (t : Instant) : ℕ := (t % dayLength).toNat

theorem valid_dateOf (t : Instant) : (dateOf t).Valid := Date.valid_ofNumber _

theorem millisOf_lt (t : Instant) : millisOf t < 86400000 := by
  have hlo : 0 ≤ t % 86400000 := Int.emod_nonneg t (by decide)
  have hhi : t % 86400000 < 86400000 := Int.emod_lt_of_pos t (by decide)
  show (t % 86400000).toNat < 86400000
  omega

theorem number_dateOf (t : Instant) : (dateOf t).number * dayLength + millisOf t = t := by
  have hlo : 0 ≤ t % dayLength := Int.emod_nonneg t (by decide)
  rw [dateOf, Date.number_ofNumber, millisOf, Int.toNat_of_nonneg hlo]
  exact Int.ediv_mul_add_emod t dayLength

/-- Later instants have later dates, or the same date and later times. -/
theorem before_or_lt {t u : Instant} (h : t < u) :
    (dateOf t).Before (dateOf u) ∨ dateOf t = dateOf u ∧ millisOf t < millisOf u := by
  have ht := number_dateOf t
  have hu := number_dateOf u
  rcases lt_or_ge (t / dayLength) (u / dayLength) with hlt | hge
  · exact .inl (Date.before_ofNumber hlt)
  · have hle : t / dayLength ≤ u / dayLength := Int.ediv_le_ediv (by decide) h.le
    have heq : dateOf t = dateOf u := by rw [dateOf, dateOf, le_antisymm hle hge]
    rw [heq] at ht
    have hmillis : (millisOf t : ℤ) < millisOf u := by linarith
    exact .inr ⟨heq, by exact_mod_cast hmillis⟩

theorem render?_eq (t : Instant) : render? t = if Date.inRange (dateOf t).year = true then
    some (String.ofList (stamp (dateOf t) (millisOf t) ['Z'])) else none := by
  rw [← stamp_eq]
  rfl

theorem render?_of_le {t : Instant} (h : 0 ≤ (dateOf t).year ∧ (dateOf t).year ≤ 9999) :
    render? t = some (String.ofList (stamp (dateOf t) (millisOf t) ['Z'])) := by
  rw [render?_eq, if_pos]
  simp only [Date.inRange, Bool.and_eq_true, decide_eq_true_eq]
  omega

/-- **What is rendered reads back.** -/
theorem parse?_of_render? {t : Instant} {s : String} (h : render? t = some s) :
    parse? s = some t := by
  rw [render?_eq] at h
  split at h
  · rename_i hrange
    obtain rfl := Option.some.inj h
    rw [parse?, trim_stamp, dropEnd_stamp]
    by_cases hyear : 0 ≤ (dateOf t).year ∧ (dateOf t).year ≤ 9999
    · have hread := strict_stamp (valid_dateOf t) hrange (millisOf_lt t) hyear
      rw [readAll, hread, number_dateOf]
      rfl
    · have hread := loose_stamp (valid_dateOf t) hrange (millisOf_lt t) hyear
      rw [readAll, strict_of_not_le hyear, readAll, hread, number_dateOf]
      rfl
  · cases h

/-- **Timestamps survive.** What is rendered reads back as the same instant, and of two instants in
years of four digits the earlier one has the smaller text, of the same length. -/
theorem timestamps_survive :
    (∀ (t : Instant) (s : String), render? t = some s → parse? s = some t) ∧
    (∀ t u : Instant, t < u → (0 ≤ (dateOf t).year ∧ (dateOf t).year ≤ 9999) →
      (0 ≤ (dateOf u).year ∧ (dateOf u).year ≤ 9999) →
      ∃ a b : String, render? t = some a ∧ render? u = some b ∧ a.length = 24 ∧ b.length = 24 ∧
        a < b) := by
  have hlength : ∀ t : Instant, (0 ≤ (dateOf t).year ∧ (dateOf t).year ≤ 9999) →
      (String.ofList (stamp (dateOf t) (millisOf t) ['Z'])).length = 24 := by
    intro t h
    rw [String.length_ofList, length_stamp (valid_dateOf t) h (millisOf_lt t)]
  refine ⟨fun t s => parse?_of_render?, fun t u htu ht hu => ?_⟩
  refine ⟨_, _, render?_of_le ht, render?_of_le hu, hlength t ht, hlength u hu, ?_⟩
  rw [String.lt_iff, String.toList_ofList, String.toList_ofList]
  exact stamp_lt (valid_dateOf u) ht hu (millisOf_lt u) (before_or_lt htu) ['Z'] ['Z']

/-- The last millisecond before the year zero, and those around the beginning of a leap day. -/
theorem timestamps_survive_at_ends :
    render? (-62167219200001) = some "-0001-12-31T23:59:59.999Z" ∧
    parse? "-0001-12-31T23:59:59.999Z" = some (-62167219200001) ∧
    (951782399999 : Instant) < 951782400000 ∧
    (0 ≤ (dateOf 951782399999).year ∧ (dateOf 951782399999).year ≤ 9999) ∧
    (0 ≤ (dateOf 951782400000).year ∧ (dateOf 951782400000).year ≤ 9999) ∧
    ∃ a b : String, render? 951782399999 = some a ∧ render? 951782400000 = some b ∧
      a.length = 24 ∧ b.length = 24 ∧ a < b := by
  have htext : render? (-62167219200001) = some "-0001-12-31T23:59:59.999Z" := by rfl
  have hlt : (951782399999 : Instant) < 951782400000 := by decide
  have ht : 0 ≤ (dateOf 951782399999).year ∧ (dateOf 951782399999).year ≤ 9999 := by decide
  have hu : 0 ≤ (dateOf 951782400000).year ∧ (dateOf 951782400000).year ≤ 9999 := by decide
  exact ⟨htext, timestamps_survive.1 _ _ htext, hlt, ht, hu, timestamps_survive.2 _ _ hlt ht hu⟩

end Bourse.Iso8601
