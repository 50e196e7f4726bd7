import Bourse.Proofs.Text.Cut
import Bourse.Text.Reader

/-! # Digits of one width

Numbers in digits of one width read back (`Reader.counted_append`, `Reader.number_paddedDigits`) and
are ordered as texts as they are as numbers, whatever follows the digits
(`paddedDigits_append_lt`). -/

namespace Bourse.Text

variable {a b r s : List Char} {m n w : ℕ}

/-! ### Width -/

theorem exists_paddedDigits_eq_cons (w n : ℕ) :
    ∃ c ds, paddedDigits w n = c :: ds ∧ c.isDigit = true := by
  have hne : paddedDigits w n ≠ [] := fun h => digits_ne_nil n (List.append_eq_nil_iff.1 h).2
  obtain ⟨c, ds, h⟩ := List.exists_cons_of_ne_nil hne
  exact ⟨c, ds, h, isDigit_of_mem_paddedDigits (h ▸ List.mem_cons_self)⟩

theorem exists_paddedDigits_eq_concat (w n : ℕ) :
    ∃ ds c, paddedDigits w n = ds ++ [c] ∧ c.isDigit = true := by
  have hne : paddedDigits w n ≠ [] := fun h => digits_ne_nil n (List.append_eq_nil_iff.1 h).2
  obtain ⟨ds, c, h⟩ := (List.eq_nil_or_concat' _).resolve_left hne
  exact ⟨ds, c, h, isDigit_of_mem_paddedDigits (h ▸ List.mem_append_right _ List.mem_cons_self)⟩

theorem length_paddedDigits_eq (hw : 0 < w) (h : n < 10 ^ w) : (paddedDigits w n).length = w := by
  have hle : (digits n).length ≤ w := (Nat.length_toDigits_le_iff (by decide) hw).2 h
  rw [paddedDigits, List.length_append, List.length_replicate]
  omega

/-! ### Order -/

theorem toNat_sub_zero_lt {c : Char} (h : c.isDigit = true) : c.toNat - '0'.toNat < 10 := by
  have hle := (Char.isDigit_iff_toNat.1 h).2
  have hzero : '0'.toNat = 48 := rfl
  have hnine : '9'.toNat = 57 := rfl
  omega

theorem ofDigitChars_lt (ha : ∀ c ∈ a, c.isDigit = true) (n : ℕ) :
    Nat.ofDigitChars 10 a n < 10 ^ a.length * (n + 1) := by
  induction a generalizing n with
  | nil => simp
  | cons c a ih =>
    have hc := toNat_sub_zero_lt (ha c List.mem_cons_self)
    have hrest := ih (fun d hd => ha d (List.mem_cons_of_mem _ hd)) (10 * n + (c.toNat - '0'.toNat))
    rw [Nat.ofDigitChars_cons, List.length_cons, pow_succ]
    calc _ < 10 ^ a.length * (10 * n + (c.toNat - '0'.toNat) + 1) := hrest
      _ ≤ 10 ^ a.length * (10 * (n + 1)) := Nat.mul_le_mul_left _ (by omega)
      _ = 10 ^ a.length * 10 * (n + 1) := by ring

/-- Digits of one width that spell less come first. -/
theorem lt_of_ofDigitChars_lt (ha : ∀ c ∈ a, c.isDigit = true) (hb : ∀ c ∈ b, c.isDigit = true)
    (hlen : a.length = b.length) {n : ℕ}
    (h : Nat.ofDigitChars 10 a n < Nat.ofDigitChars 10 b n) : a < b := by
  induction a generalizing b n with
  | nil =>
    rw [List.length_nil, eq_comm, List.length_eq_zero_iff] at hlen
    subst hlen
    exact absurd h (lt_irrefl _)
  | cons c a ih =>
    cases b with
    | nil => cases hlen
    | cons d b =>
      have hlen' : a.length = b.length := Nat.succ.inj hlen
      have ha' : ∀ e ∈ a, e.isDigit = true := fun e he => ha e (List.mem_cons_of_mem _ he)
      have hb' : ∀ e ∈ b, e.isDigit = true := fun e he => hb e (List.mem_cons_of_mem _ he)
      have hc := Char.isDigit_iff_toNat.1 (ha c List.mem_cons_self)
      have hd := Char.isDigit_iff_toNat.1 (hb d List.mem_cons_self)
      have hzero : '0'.toNat = 48 := rfl
      rw [Nat.ofDigitChars_cons, Nat.ofDigitChars_cons] at h
      rw [List.cons_lt_cons_iff]
      rcases lt_trichotomy c.toNat d.toNat with hlt | heq | hgt
      · exact .inl hlt
      · rw [heq] at h
        exact .inr ⟨Char.toNat_inj.1 heq, ih ha' hb' hlen' h⟩
      · -- the first digit outweighs all that follow
        have hless := ofDigitChars_lt hb' (10 * n + (d.toNat - '0'.toNat))
        have hmore : 10 ^ b.length * (10 * n + (d.toNat - '0'.toNat) + 1)
            ≤ Nat.ofDigitChars 10 a (10 * n + (c.toNat - '0'.toNat)) := by
          rw [Nat.ofDigitChars_eq_ofDigitChars_zero, hlen']
          exact le_trans (Nat.mul_le_mul_left _ (by omega)) (Nat.le_add_right _ _)
        omega

theorem append_lt_append (hlen : a.length = b.length) (h : a < b) (r s : List Char) :
    a ++ r < b ++ s := by
  induction a generalizing b with
  | nil =>
    rw [List.length_nil, eq_comm, List.length_eq_zero_iff] at hlen
    subst hlen
    exact absurd h (List.lt_irrefl _)
  | cons c a ih =>
    cases b with
    | nil => cases hlen
    | cons d b =>
      have hlen' : a.length = b.length := Nat.succ.inj hlen
      rw [List.cons_append, List.cons_append, List.cons_lt_cons_iff]
      exact (List.cons_lt_cons_iff.1 h).imp id fun hrest => ⟨hrest.1, ih hlen' hrest.2⟩

/-- **Numbers in digits of one width** are ordered by the first that differs. -/
theorem paddedDigits_append_lt (hw : 0 < w) (hn : n < 10 ^ w) (h : m < n ∨ m = n ∧ r < s) :
    paddedDigits w m ++ r < paddedDigits w n ++ s := by
  rcases h with hlt | ⟨rfl, hrest⟩
  · have hlen : (paddedDigits w m).length = (paddedDigits w n).length := by
      rw [length_paddedDigits_eq hw (hlt.trans hn), length_paddedDigits_eq hw hn]
    refine append_lt_append hlen (lt_of_ofDigitChars_lt (n := 0) ?_ ?_ hlen ?_) r s
    · exact fun c => isDigit_of_mem_paddedDigits
    · exact fun c => isDigit_of_mem_paddedDigits
    · rw [ofDigitChars_paddedDigits, ofDigitChars_paddedDigits]
      exact hlt
  · exact List.append_left_lt hrest

/-! ### Reading -/

namespace Reader

/-- Digits are read if there are enough of them, and no more than are read follow. -/
theorem counted_append {least most : ℕ} {ds rest : List Char} (hds : ∀ c ∈ ds, c.isDigit = true)
    (hleast : least ≤ ds.length) (hmost : ds.length ≤ most)
    (hrest : ds.length = most ∨ ∀ c ∈ rest.head?, c.isDigit = false) :
    counted least most (ds ++ rest) = some ((Nat.ofDigitChars 10 ds 0, ds.length), rest) := by
  have hstop : (rest.take (most - ds.length)).takeWhile Char.isDigit = [] := by
    rcases hrest with hfull | hstop
    · rw [hfull, Nat.sub_self, List.take_zero, List.takeWhile_nil]
    · cases rest with
      | nil => rw [List.take_nil, List.takeWhile_nil]
      | cons c rest =>
        have hc : c.isDigit = false := hstop c rfl
        cases most - ds.length with
        | zero => rfl
        | succ k => rw [List.take_succ_cons, List.takeWhile_cons_of_neg (by simp [hc])]
  have htake : ((ds ++ rest).take most).takeWhile Char.isDigit = ds := by
    rw [List.take_append, List.take_of_length_le hmost, List.takeWhile_append_of_pos hds, hstop,
      List.append_nil]
  unfold counted
  rw [htake, if_neg (by omega), List.drop_left]

theorem counted_of_not_isDigit {least : ℕ} (hleast : 0 < least) (most : ℕ) {c : Char}
    (hc : c.isDigit = false) (rest : List Char) : counted least most (c :: rest) = none := by
  have hnone : ((c :: rest).take most).takeWhile Char.isDigit = [] := by
    cases most with
    | zero => rfl
    | succ k => rw [List.take_succ_cons, List.takeWhile_cons_of_neg (by simp [hc])]
  unfold counted
  rw [hnone]
  exact if_pos hleast

variable {α β : Type} {rest : List Char}

/-- After a step that reads, the next one starts where it stopped. -/
theorem bind_of_eq_some {p : Reader α} {x : α} {cs : List Char} (h : p cs = some (x, rest))
    (q : α → Reader β) : (p >>= q) cs = q x rest := by
  show (p cs).bind (fun y => q y.1 y.2) = _
  rw [h]
  rfl

/-- Numbers in digits are read, if there are as many digits as are read or none follow. -/
theorem number_paddedDigits {least most : ℕ} (hw : 0 < w) (hn : n < 10 ^ w) (hleast : least ≤ w)
    (hmost : w ≤ most) (hrest : w = most ∨ ∀ c ∈ rest.head?, c.isDigit = false) :
    number least most (paddedDigits w n ++ rest) = some (n, rest) := by
  have hlen := length_paddedDigits_eq hw hn
  have hread := counted_append (fun c => isDigit_of_mem_paddedDigits) (hleast.trans_eq hlen.symm)
    (hlen.trans_le hmost) (by rwa [hlen])
  rw [number, bind_of_eq_some hread, ofDigitChars_paddedDigits]
  rfl

theorem anyNumber_paddedDigits (w n : ℕ) (hrest : ∀ c ∈ rest.head?, c.isDigit = false) :
    anyNumber (paddedDigits w n ++ rest) = some (n, rest) := by
  have hpos : 1 ≤ (paddedDigits w n).length := by
    have hdigits := List.length_pos_iff.2 (digits_ne_nil n)
    rw [paddedDigits, List.length_append]
    omega
  have hread := counted_append (fun c => isDigit_of_mem_paddedDigits) hpos
    (by simp : _ ≤ (paddedDigits w n ++ rest).length) (.inr hrest)
  rw [anyNumber, number, bind_of_eq_some hread, ofDigitChars_paddedDigits]
  rfl

theorem char_cons (c : Char) (rest : List Char) : char c (c :: rest) = some ((), rest) := by
  simp [char, satisfy]

end Reader

end Bourse.Text
