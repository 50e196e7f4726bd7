import Bourse.Time.Calendar
import Mathlib.Tactic

/-! # Days and dates

The days are numbered, and numbers and dates of the calendar determine each other. The year is taken
to begin in March, so that a leap day is the last day of its year, and a day is found in its era of
400 years by the century, four years of it, one of these and the day of the year (`EraDay`). Both
conversions are read off this.

* `ofNumber_number`, `number_ofNumber`: from a date to its number and back, and the other way round;
* `ofNumber_zero`, `ofNumber_add_one`: zero is the number of the first of January 1970, and the next
  number that of the day after;
* `before_ofNumber`: later numbers are those of later dates. -/

namespace Bourse.Date

/-! ### Months -/

theorem isLeapYear_iff (y : ℤ) : isLeapYear y = true ↔ y % 4 = 0 ∧ (y % 100 ≠ 0 ∨ y % 400 = 0) := by
  simp [isLeapYear]

/-- The months but February come in the lengths of a rounded line, counted from March. -/
theorem daysInMonth_of_ne_two (y : ℤ) {m : ℕ} (h0 : 1 ≤ m) (h1 : m ≤ 12) (h : m ≠ 2) :
    (daysInMonth y m : ℤ)
      = (153 * (((m + 9) % 12 : ℕ) + 1) + 2) / 5 - (153 * ((m + 9) % 12 : ℕ) + 2) / 5 := by
  interval_cases m <;> first | exact absurd rfl h | rfl

theorem daysInMonth_two (y : ℤ) : daysInMonth y 2 = if isLeapYear y = true then 29 else 28 := rfl

theorem daysInMonth_range (y : ℤ) (m : ℕ) : 28 ≤ daysInMonth y m ∧ daysInMonth y m ≤ 31 := by
  unfold daysInMonth
  split
  · split <;> decide
  all_goals decide

theorem daysInMonth_pos (y : ℤ) (m : ℕ) : 1 ≤ daysInMonth y m :=
  le_trans (by decide) (daysInMonth_range y m).1

/-! ### Dates of the calendar -/

/-- Dates that the calendar has. -/
structure Valid (d : Date) : Prop where
  month_pos : 1 ≤ d.month
  month_le : d.month ≤ 12
  day_pos : 1 ≤ d.day
  day_le : d.day ≤ daysInMonth d.year d.month

theorem Valid.month_lt {d : Date} (h : d.Valid) : d.month < 100 := h.month_le.trans_lt (by decide)

theorem Valid.day_lt {d : Date} (h : d.Valid) : d.day < 100 :=
  (h.day_le.trans (daysInMonth_range _ _).2).trans_lt (by decide)

theorem make?_of_valid {d : Date} (h : d.Valid) (hrange : inRange d.year = true) :
    make? d.year d.month d.day = some d := by
  obtain ⟨hm1, hm12, hd1, hdle⟩ := h
  simp [make?, hrange, hm1, hm12, hd1, hdle]

/-- The days before a date, in a year that begins in March: they fall into its month, and there are
no more than 365 of them, as many only on a leap day. -/
theorem Valid.dayOfYear {d : Date} (h : d.Valid) {k doy : ℤ}
    (hk : (((d.month + 9) % 12 : ℕ) : ℤ) = k) (hdoy : doy = (153 * k + 2) / 5 + d.day - 1) :
    (5 * doy + 2) / 153 = k ∧
      (doy ≤ 364 ∨ doy = 365 ∧ d.month = 2 ∧ isLeapYear d.year = true) := by
  obtain ⟨y, m, d⟩ := d
  obtain ⟨hm1, hm12, hd1, hdle⟩ := h
  dsimp only at *
  by_cases hfebruary : m = 2
  · subst hfebruary
    have hlength : d ≤ 28 ∨ d = 29 ∧ isLeapYear y = true := by
      rw [daysInMonth_two] at hdle
      split at hdle
      · exact (Nat.lt_or_ge 28 d).symm.imp id fun hlt => ⟨by omega, ‹_›⟩
      · exact .inl hdle
    rcases hlength with hle | ⟨rfl, hleap⟩
    · exact ⟨by omega, .inl (by omega)⟩
    · exact ⟨by omega, .inr ⟨by omega, rfl, hleap⟩⟩
  · have hlength := daysInMonth_of_ne_two y hm1 hm12 hfebruary
    have hindex : k ≤ 10 := by omega
    rw [hk] at hlength
    exact ⟨by omega, .inl (by omega)⟩

/-! ### Days of an era -/

/-- A place in an era of 400 years: its century, the four years in it, the year of these and its
day. -/
structure EraDay where
  era : ℤ
  century : ℤ
  quad : ℤ
  rest : ℤ
  day : ℤ
  century_range : 0 ≤ century ∧ century ≤ 3
  quad_range : 0 ≤ quad ∧ quad ≤ 24
  rest_range : 0 ≤ rest ∧ rest ≤ 3
  day_nonneg : 0 ≤ day
  day_le : day ≤ 364 ∨ day = 365 ∧ rest = 3 ∧ (quad = 24 → century = 3)

namespace EraDay

variable (p : EraDay)

/-- The year of the era. -/
def yearOfEra : ℤ := p.century * 100 + p.quad * 4 + p.rest

/-- The year, which begins in March. -/
def year : ℤ := p.era * 400 + p.yearOfEra

/-- The day of the era. -/
def dayOfEra : ℤ := 365 * p.yearOfEra + p.yearOfEra / 4 - p.yearOfEra / 100 + p.day

/-- The number of the day. The first of January 1970 is 719468 days after the first of March of the
year zero. -/
def number : ℤ := p.era * 146097 + p.dayOfEra - 719468

/-- The month, counted from March. -/
def month : ℤ := (5 * p.day + 2) / 153

/-- The day of the month, counted from zero. -/
def dayOfMonth : ℤ := p.day - (153 * p.month + 2) / 5

/-- The date of the day. -/
def date : Date :=
  if p.month < 10 then ⟨p.year, (p.month + 3).toNat, (p.dayOfMonth + 1).toNat⟩
  else ⟨p.year + 1, (p.month - 9).toNat, (p.dayOfMonth + 1).toNat⟩

theorem yearOfEra_range : 0 ≤ p.yearOfEra ∧ p.yearOfEra < 400 := by
  have hc := p.century_range
  have hq := p.quad_range
  have hr := p.rest_range
  unfold yearOfEra
  omega

theorem dayOfEra_eq : p.dayOfEra = p.century * 36524 + p.quad * 1461 + p.rest * 365 + p.day := by
  have hc := p.century_range
  have hq := p.quad_range
  have hr := p.rest_range
  unfold dayOfEra yearOfEra
  omega

theorem day_lt : p.day < 366 := by
  have := p.day_le
  omega

theorem dayOfEra_range : 0 ≤ p.dayOfEra ∧ p.dayOfEra < 146097 := by
  obtain ⟨_, _, _, _, _, hc, hq, hr, hd, hle⟩ := p
  rw [dayOfEra_eq]
  dsimp only at *
  omega

theorem month_range : 0 ≤ p.month ∧ p.month ≤ 11 := by
  have h0 := p.day_nonneg
  have h1 := p.day_lt
  unfold month
  omega

/-- **Every number is that of a day.** -/
theorem exists_number (n : ℤ) : ∃ p : EraDay, p.number = n := by
  obtain ⟨e, h0, h1, he⟩ : ∃ e, 0 ≤ e ∧ e < 146097 ∧
      n + 719468 = (n + 719468) / 146097 * 146097 + e :=
    ⟨(n + 719468) % 146097, by omega, by omega, by omega⟩
  suffices h : ∃ c q r d : ℤ, (0 ≤ c ∧ c ≤ 3) ∧ (0 ≤ q ∧ q ≤ 24) ∧ (0 ≤ r ∧ r ≤ 3) ∧ 0 ≤ d ∧
      (d ≤ 364 ∨ d = 365 ∧ r = 3 ∧ (q = 24 → c = 3)) ∧ e = c * 36524 + q * 1461 + r * 365 + d by
    obtain ⟨c, q, r, d, hc, hq, hr, hd, hle, hday⟩ := h
    refine ⟨⟨(n + 719468) / 146097, c, q, r, d, hc, hq, hr, hd, hle⟩, ?_⟩
    rw [number, dayOfEra_eq]
    dsimp only
    omega
  -- the last day of the era and the last day of four years are leap days
  by_cases hlast : e = 146096
  · exact ⟨3, 24, 3, 365, by omega⟩
  · by_cases hleap : e % 36524 % 1461 = 1460
    · exact ⟨e / 36524, e % 36524 / 1461, 3, 365, by omega⟩
    · exact ⟨e / 36524, e % 36524 / 1461, e % 36524 % 1461 / 365, e % 36524 % 1461 % 365, by omega⟩

/-- The year of the era, found from the day alone: the leap days before it are taken out first. -/
theorem yearOfEra_eq : (p.dayOfEra - p.dayOfEra / 1460 + p.dayOfEra / 36524 - p.dayOfEra / 146096)
    / 365 = p.yearOfEra := by
  rw [dayOfEra_eq, yearOfEra]
  obtain ⟨_, c, q, r, d, hc, hq, hr, hd, hle⟩ := p
  dsimp only at *
  set e := c * 36524 + q * 1461 + r * 365 + d with he
  by_cases hlast : d = 365 ∧ q = 24
  · have hday : e = 146096 := by omega
    rw [hday]
    omega
  · have hcentury : e / 36524 = c := by omega
    have hera : e / 146096 = 0 := by omega
    rw [hcentury, hera]
    by_cases hleap : c * 24 + q + r * 365 + d < 1460
    · have hquads : e / 1460 = c * 25 + q := by omega
      rw [hquads]
      omega
    · have hquads : e / 1460 = c * 25 + q + 1 := by omega
      rw [hquads]
      omega

/-- **The date with the number of a day** is that of the day. -/
theorem ofNumber_number : ofNumber p.number = p.date := by
  obtain ⟨h0, h1⟩ := p.dayOfEra_range
  have hera : (p.number + 719468) / 146097 = p.era := by unfold number; omega
  have hday : p.number + 719468 - p.era * 146097 = p.dayOfEra := by unfold number; omega
  have hdoy : p.dayOfEra - (365 * p.yearOfEra + p.yearOfEra / 4 - p.yearOfEra / 100) = p.day := by
    unfold dayOfEra; omega
  obtain ⟨hlo, hhi⟩ := p.month_range
  have hmonth : (5 * p.day + 2) / 153 = p.month := rfl
  unfold ofNumber date dayOfMonth year
  dsimp only
  rw [hera, hday, p.yearOfEra_eq, hdoy, hmonth, add_comm p.yearOfEra]
  split
  · rw [if_neg (by omega)]
  · rw [if_pos (by omega)]

theorem dayOfMonth_nonneg : 0 ≤ p.dayOfMonth := by
  have h0 := p.day_nonneg
  have h1 := p.day_lt
  unfold dayOfMonth month
  omega

theorem date_day : (p.date.day : ℤ) = p.dayOfMonth + 1 := by
  have h := p.dayOfMonth_nonneg
  unfold date
  split
  · exact Int.toNat_of_nonneg (by omega)
  · exact Int.toNat_of_nonneg (by omega)

theorem date_month : 1 ≤ p.date.month ∧ p.date.month ≤ 12 ∧
    (((p.date.month + 9) % 12 : ℕ) : ℤ) = p.month := by
  obtain ⟨h0, h1⟩ := p.month_range
  unfold date
  split
  · dsimp only
    omega
  · dsimp only
    omega

theorem date_year : (if p.date.month ≤ 2 then p.date.year - 1 else p.date.year) = p.year := by
  obtain ⟨h0, h1⟩ := p.month_range
  unfold date
  split
  · exact if_neg (by dsimp only; omega)
  · rw [if_pos (by dsimp only; omega)]
    exact add_sub_cancel_right _ _

/-- **The number of the date** is that of the day. -/
theorem number_date : p.date.number = p.number := by
  obtain ⟨-, -, hmonth⟩ := p.date_month
  obtain ⟨hlo, hhi⟩ := p.yearOfEra_range
  have hera : p.year / 400 = p.era := by unfold year; omega
  have hyear : p.year - p.era * 400 = p.yearOfEra := by unfold year; omega
  unfold Date.number number dayOfEra
  dsimp only
  rw [p.date_year, hmonth, p.date_day, hera, hyear, dayOfMonth]
  omega

theorem isLeapYear_of_day (h : p.day = 365) : isLeapYear (p.year + 1) = true := by
  obtain ⟨_, _, _, _, _, hc, hq, hr, hd, hle⟩ := p
  rw [isLeapYear_iff]
  unfold year yearOfEra
  dsimp only at *
  omega

theorem valid_date : p.date.Valid := by
  obtain ⟨h1, h12, hmonth⟩ := p.date_month
  have hyear := p.date_year
  have hday := p.date_day
  have hdom : p.dayOfMonth = p.day - (153 * p.month + 2) / 5 := rfl
  have hm : p.month = (5 * p.day + 2) / 153 := rfl
  have hlt := p.day_lt
  refine ⟨h1, h12, by have := p.dayOfMonth_nonneg; omega, ?_⟩
  by_cases hfebruary : p.date.month = 2
  · rw [hfebruary] at hyear hmonth ⊢
    rw [if_pos le_rfl] at hyear
    by_cases hlast : p.day = 365
    · have hleap : isLeapYear p.date.year = true := by
        rw [show p.date.year = p.year + 1 by omega]
        exact p.isLeapYear_of_day hlast
      rw [daysInMonth_two, if_pos hleap]
      omega
    · rw [daysInMonth_two]
      split <;> omega
  · have hlength := daysInMonth_of_ne_two p.date.year h1 h12 hfebruary
    rw [hmonth] at hlength
    omega

/-- **Every date of the calendar is that of a day.** -/
theorem exists_date {d : Date} (h : d.Valid) : ∃ p : EraDay, p.date = d := by
  obtain ⟨k, hk⟩ : ∃ k : ℤ, (((d.month + 9) % 12 : ℕ) : ℤ) = k := ⟨_, rfl⟩
  obtain ⟨doy, hdoy⟩ : ∃ doy : ℤ, doy = (153 * k + 2) / 5 + d.day - 1 := ⟨_, rfl⟩
  obtain ⟨hmonth, hlast⟩ := h.dayOfYear hk hdoy
  rw [isLeapYear_iff] at hlast
  obtain ⟨y, m, d⟩ := d
  obtain ⟨hm1, hm12, hd1, -⟩ := h
  dsimp only at *
  obtain ⟨year, hyear⟩ : ∃ year : ℤ, m ≤ 2 ∧ y = year + 1 ∨ 2 < m ∧ y = year := by
    rcases Nat.lt_or_ge 2 m with hlt | hle
    · exact ⟨y, .inr ⟨hlt, rfl⟩⟩
    · exact ⟨y - 1, .inl ⟨hle, (sub_add_cancel y 1).symm⟩⟩
  refine ⟨⟨year / 400, year % 400 / 100, year % 100 / 4, year % 4, doy, by omega, by omega,
    by omega, by omega, by omega⟩, ?_⟩
  have hyears : year / 400 * 400 + (year % 400 / 100 * 100 + year % 100 / 4 * 4 + year % 4)
      = year := by omega
  have hday : (doy - (153 * k + 2) / 5 + 1).toNat = d := by omega
  unfold date dayOfMonth month EraDay.year yearOfEra
  dsimp only
  rw [hmonth, hyears, hday]
  rcases hyear with ⟨hm, rfl⟩ | ⟨hm, rfl⟩
  · have hindex : (k - 9).toNat = m := by omega
    rw [if_neg (by omega), hindex]
  · have hindex : (k + 3).toNat = m := by omega
    rw [if_pos (by omega), hindex]

end EraDay

/-! ### Days and their numbers -/

theorem valid_ofNumber (n : ℤ) : (ofNumber n).Valid := by
  obtain ⟨p, rfl⟩ := EraDay.exists_number n
  rw [p.ofNumber_number]
  exact p.valid_date

theorem number_ofNumber (n : ℤ) : (ofNumber n).number = n := by
  obtain ⟨p, rfl⟩ := EraDay.exists_number n
  rw [p.ofNumber_number, p.number_date]

theorem ofNumber_number {d : Date} (h : d.Valid) : ofNumber d.number = d := by
  obtain ⟨p, rfl⟩ := EraDay.exists_date h
  rw [p.number_date, p.ofNumber_number]

/-- The day after a date. -/
def next (d : Date) : Date :=
  if d.day < daysInMonth d.year d.month then ⟨d.year, d.month, d.day + 1⟩
  else if d.month < 12 then ⟨d.year, d.month + 1, 1⟩
  else ⟨d.year + 1, 1, 1⟩

theorem Valid.next {d : Date} (h : d.Valid) : d.next.Valid := by
  obtain ⟨hm1, hm12, hd1, hdle⟩ := h
  unfold Date.next
  split
  · exact ⟨hm1, hm12, Nat.le_add_left 1 _, ‹_›⟩
  · split
    · exact ⟨Nat.le_add_left 1 _, ‹_›, le_rfl, daysInMonth_pos _ _⟩
    · exact ⟨le_rfl, Nat.le_add_left 1 11, le_rfl, daysInMonth_pos _ _⟩

/-- The days before a year that begins in March. -/
def yearStart (y : ℤ) : ℤ := 365 * y + y / 4 - y / 100 + y / 400

/-- The leap day is the last day of its year. -/
theorem yearStart_eq (y : ℤ) :
    yearStart y = yearStart (y - 1) + if isLeapYear y = true then 366 else 365 := by
  unfold yearStart
  split
  · have hleap := (isLeapYear_iff y).1 ‹_›
    omega
  · have hleap := (isLeapYear_iff y).not.1 ‹_›
    omega

theorem number_of_le_two {y : ℤ} {m : ℕ} (h0 : 1 ≤ m) (h : m ≤ 2) (d : ℕ) :
    number ⟨y, m, d⟩ = yearStart (y - 1) + (153 * (m + 9) + 2) / 5 + d - 719469 := by
  have hmonth : (((m + 9) % 12 : ℕ) : ℤ) = m + 9 := by omega
  unfold number yearStart
  dsimp only
  rw [if_pos h, hmonth]
  omega

theorem number_of_two_lt {m : ℕ} (h : 2 < m) (h12 : m ≤ 12) (y : ℤ) (d : ℕ) :
    number ⟨y, m, d⟩ = yearStart y + (153 * (m - 3) + 2) / 5 + d - 719469 := by
  have hmonth : (((m + 9) % 12 : ℕ) : ℤ) = m - 3 := by omega
  unfold number yearStart
  dsimp only
  rw [if_neg (by omega), hmonth]
  omega

theorem number_first_of_month {m : ℕ} (h1 : 1 ≤ m) (h12 : m < 12) (y : ℤ) :
    number ⟨y, m + 1, 1⟩ = number ⟨y, m, daysInMonth y m⟩ + 1 := by
  rcases lt_trichotomy m 2 with hlt | rfl | hgt
  · have hjanuary : m = 1 := by omega
    subst hjanuary
    have hlength : daysInMonth y 1 = 31 := rfl
    rw [number_of_le_two (by decide) le_rfl, number_of_le_two le_rfl (by decide), hlength]
    norm_num
    omega
  · rw [number_of_le_two (by decide) le_rfl, number_of_two_lt (by decide) (by decide),
      yearStart_eq, daysInMonth_two]
    split <;> norm_num <;> omega
  · have hlength := daysInMonth_of_ne_two y h1 h12.le (by omega)
    have hmonth : (((m + 9) % 12 : ℕ) : ℤ) = m - 3 := by omega
    have hnext : ((m + 1 : ℕ) : ℤ) - 3 = m - 3 + 1 := by omega
    rw [hmonth] at hlength
    rw [number_of_two_lt hgt h12.le, number_of_two_lt (by omega) h12, hnext]
    omega

theorem number_first_of_year (y : ℤ) : number ⟨y + 1, 1, 1⟩ = number ⟨y, 12, 31⟩ + 1 := by
  rw [number_of_le_two le_rfl (by decide), number_of_two_lt (by decide) le_rfl,
    add_sub_cancel_right]
  norm_num
  omega

theorem number_next {d : Date} (h : d.Valid) : d.next.number = d.number + 1 := by
  obtain ⟨y, m, d⟩ := d
  obtain ⟨hm1, hm12, hd1, hdle⟩ := h
  unfold Date.next
  dsimp only at *
  split
  · unfold number
    dsimp only
    omega
  · have hlast : d = daysInMonth y m := by omega
    split
    · rw [hlast]
      exact number_first_of_month hm1 ‹_› y
    · have hdecember : m = 12 := by omega
      subst hdecember
      rw [hlast]
      exact number_first_of_year y

theorem ofNumber_zero : ofNumber 0 = ⟨1970, 1, 1⟩ := rfl

/-- **The next number** is that of the day after. -/
theorem ofNumber_add_one (n : ℤ) : ofNumber (n + 1) = (ofNumber n).next := by
  have hvalid := valid_ofNumber n
  have hnumber : (ofNumber n).next.number = n + 1 := by rw [number_next hvalid, number_ofNumber]
  rw [← hnumber, ofNumber_number hvalid.next]

example : ofNumber 11016 = ⟨2000, 2, 29⟩ ∧ ofNumber (-25509 + 1) = ⟨1900, 3, 1⟩ := by decide

/-- A date comes before another. -/
def Before (d e : Date) : Prop :=
  d.year < e.year ∨ d.year = e.year ∧ (d.month < e.month ∨ d.month = e.month ∧ d.day < e.day)

instance : IsTrans Date Before where
  trans d e f := by
    unfold Before
    omega

theorem Valid.before_next {d : Date} (h : d.Valid) : d.Before d.next := by
  have hm := h.month_le
  unfold Before Date.next
  split
  · dsimp only
    omega
  · split
    · dsimp only
      omega
    · dsimp only
      omega

/-- **Later numbers are those of later dates.** -/
theorem before_ofNumber {m n : ℤ} (h : m < n) : (ofNumber m).Before (ofNumber n) := by
  refine Int.rel_of_forall_rel_succ_of_lt Before (fun k => ?_) h
  rw [ofNumber_add_one]
  exact (valid_ofNumber k).before_next

end Bourse.Date
