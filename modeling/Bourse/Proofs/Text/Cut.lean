import Bourse.Text.Cut
import Bourse.Text.Numeral
import Mathlib.Tactic

/-! # Cutting and joining

Cutting at a separator undoes joining with it, as long as the parts do not contain it
(`splitOnce_append`, `splitAll_joinWith`). A mark whose first character does not come again is the
last one (`lastCut_append`), and one whose first character has not come before is the first
(`behind?_append`). -/

namespace Bourse.Text

/-! ### The first separator -/

theorem splitOnce_append {sep : Char} {before : List Char} (after : List Char)
    (h : sep ∉ before) : splitOnce sep (before ++ sep :: after) = some (before, after) := by
  induction before with
  | nil => simp [splitOnce]
  | cons c cs ih =>
    rw [List.mem_cons, not_or] at h
    rw [List.cons_append, splitOnce, if_neg (Ne.symm h.1), ih h.2]
    rfl

theorem splitOnce_eq_none {sep : Char} {cs : List Char} (h : sep ∉ cs) :
    splitOnce sep cs = none := by
  induction cs with
  | nil => rfl
  | cons c cs ih =>
    rw [List.mem_cons, not_or] at h
    rw [splitOnce, if_neg (Ne.symm h.1), ih h.2]
    rfl

/-! ### All separators -/

theorem splitAll_eq_singleton {sep : Char} {cs : List Char} (h : sep ∉ cs) :
    splitAll sep cs = [cs] := by
  induction cs with
  | nil => rfl
  | cons c cs ih =>
    rw [List.mem_cons, not_or] at h
    rw [splitAll, if_neg (Ne.symm h.1), ih h.2]

theorem splitAll_append {sep : Char} {part : List Char} (rest : List Char) (h : sep ∉ part) :
    splitAll sep (part ++ sep :: rest) = part :: splitAll sep rest := by
  induction part with
  | nil => simp [splitAll]
  | cons c cs ih =>
    rw [List.mem_cons, not_or] at h
    rw [List.cons_append, splitAll, if_neg (Ne.symm h.1), ih h.2]

theorem joinWith_cons_cons (sep part next : List Char) (parts : List (List Char)) :
    joinWith sep (part :: next :: parts) = part ++ sep ++ joinWith sep (next :: parts) := rfl

/-- **Cutting undoes joining.** -/
theorem splitAll_joinWith {sep : Char} {part : List Char} {parts : List (List Char)}
    (h : ∀ p ∈ part :: parts, sep ∉ p) :
    splitAll sep (joinWith [sep] (part :: parts)) = part :: parts := by
  induction parts generalizing part with
  | nil => exact splitAll_eq_singleton (h part (by simp))
  | cons next parts ih =>
    have hrest : splitAll sep (joinWith [sep] (next :: parts)) = next :: parts :=
      ih fun p hp => h p (List.mem_cons_of_mem _ hp)
    rw [joinWith_cons_cons, List.append_assoc, List.singleton_append,
      splitAll_append _ (h part (by simp)), hrest]

theorem joinWith_eq_intercalate (sep : List Char) (parts : List (List Char)) :
    joinWith sep parts = sep.intercalate parts := by
  induction parts with
  | nil => rfl
  | cons part parts ih =>
    cases parts with
    | nil => rw [List.intercalate_singleton, joinWith]
    | cons next parts => rw [joinWith_cons_cons, ih, List.intercalate_cons_cons]

theorem mem_joinWith {c : Char} {sep : List Char} {parts : List (List Char)}
    (h : c ∈ joinWith sep parts) : c ∈ sep ∨ ∃ part ∈ parts, c ∈ part := by
  induction parts with
  | nil => cases h
  | cons part parts ih =>
    cases parts with
    | nil => exact .inr ⟨part, by simp, h⟩
    | cons next parts =>
      rw [joinWith_cons_cons, List.mem_append, List.mem_append] at h
      rcases h with (h | h) | h
      · exact .inr ⟨part, by simp, h⟩
      · exact .inl h
      · rcases ih h with hsep | ⟨p, hp, hc⟩
        · exact .inl hsep
        · exact .inr ⟨p, List.mem_cons_of_mem _ hp, hc⟩

/-! ### The first mark -/

theorem after?_append (start rest : List Char) : after? start (start ++ rest) = some rest := by
  induction start with
  | nil => rfl
  | cons p ps ih => rw [List.cons_append, after?, if_pos rfl, ih]

/-- What stands behind a mark whose first character has not come before. -/
theorem behind?_append {c : Char} {part before : List Char} (after : List Char)
    (h : c ∉ before) : behind? (c :: part) (before ++ (c :: part ++ after)) = some after := by
  induction before with
  | nil =>
    show behind? (c :: part) (c :: (part ++ after)) = some after
    rw [behind?, ← List.cons_append, after?_append]
  | cons d ds ih =>
    rw [List.mem_cons, not_or] at h
    rw [List.cons_append, behind?, after?, if_neg h.1]
    exact ih h.2

/-! ### The last mark -/

/-- `before` and `after` are what stands around the last occurrence of `mark` in the text. -/
structure LastCut (mark text before after : List Char) : Prop where
  eq : text = before ++ mark ++ after
  last : ∀ b a, text = b ++ mark ++ a → b.length ≤ before.length

/-- A mark is the last one if its first character does not occur behind it. -/
theorem lastCut_append {c : Char} {mark : List Char} (before : List Char) {after : List Char}
    (hmark : c ∉ mark) (hafter : c ∉ after) :
    LastCut (c :: mark) (before ++ (c :: mark) ++ after) before after := by
  refine ⟨rfl, fun b a h => ?_⟩
  by_contra hlt
  rw [List.append_assoc, List.append_assoc] at h
  -- the first character of a later mark
  have hc : (before ++ (c :: mark ++ after))[b.length]? = some c := by
    rw [h, List.getElem?_append_right le_rfl, Nat.sub_self]
    rfl
  rw [List.getElem?_append_right (by omega)] at hc
  obtain ⟨k, hk⟩ : ∃ k, b.length - before.length = k + 1 :=
    ⟨b.length - before.length - 1, by omega⟩
  rw [hk, List.cons_append, List.getElem?_cons_succ] at hc
  rcases List.mem_append.1 (List.mem_of_getElem? hc) with hmem | hmem
  · exact hmark hmem
  · exact hafter hmem

/-! ### Digits -/

/-- Zeros in front of a numeral change nothing. -/
theorem ofDigitChars_paddedDigits (width n : Nat) :
    Nat.ofDigitChars 10 (paddedDigits width n) 0 = n := by
  rw [paddedDigits, Nat.ofDigitChars_append, Nat.ofDigitChars_replicate_zero, Nat.mul_zero]
  exact Nat.ofDigitChars_ten_toDigits

/-- Zeros behind a numeral multiply it by a power of ten. -/
theorem ofDigitChars_append_zeros (cs : List Char) (n : Nat) :
    Nat.ofDigitChars 10 (cs ++ List.replicate n '0') 0 = tenTo n * Nat.ofDigitChars 10 cs 0 := by
  rw [Nat.ofDigitChars_append, Nat.ofDigitChars_replicate_zero]
  rfl

theorem isDigit_of_mem_paddedDigits {width n : Nat} {c : Char} (h : c ∈ paddedDigits width n) :
    c.isDigit = true := by
  rw [paddedDigits, List.mem_append, List.mem_replicate] at h
  rcases h with ⟨-, rfl⟩ | h
  · rfl
  · exact isDigit_of_mem_digits h

theorem length_paddedDigits (width n : Nat) : width ≤ (paddedDigits width n).length := by
  rw [paddedDigits, List.length_append, List.length_replicate]
  omega

theorem takeWhile_digits_append {ds rest : List Char} (hds : ∀ c ∈ ds, c.isDigit = true)
    (hrest : ∀ c ∈ rest.head?, c.isDigit = false) : (ds ++ rest).takeWhile Char.isDigit = ds := by
  rw [List.takeWhile_append_of_pos hds]
  cases rest with
  | nil => rw [List.takeWhile_nil, List.append_nil]
  | cons c rest =>
    rw [List.takeWhile_cons_of_neg (by simp [hrest c rfl]), List.append_nil]

theorem dropWhile_digits_append {ds rest : List Char} (hds : ∀ c ∈ ds, c.isDigit = true)
    (hrest : ∀ c ∈ rest.head?, c.isDigit = false) : (ds ++ rest).dropWhile Char.isDigit = rest := by
  rw [List.dropWhile_append_of_pos hds]
  cases rest with
  | nil => rfl
  | cons c rest => rw [List.dropWhile_cons_of_neg (by simp [hrest c rfl])]

theorem lt_tenTo_length_digits (n : Nat) : n < tenTo (digits n).length :=
  (Nat.length_toDigits_le_iff (by decide) (List.length_pos_iff.2 (digits_ne_nil n))).1 le_rfl

/-- The first digit of a number is not zero. -/
theorem tenTo_le_of_length_digits {n k : Nat} (h : n ≠ 0) (hk : (digits n).length = k + 1) :
    tenTo k ≤ n := by
  cases k with
  | zero => exact Nat.pos_of_ne_zero h
  | succ k =>
    by_contra hlt
    have hle := (Nat.length_toDigits_le_iff (by decide) k.succ_pos).2 (not_le.1 hlt)
    rw [digits] at hk
    omega

end Bourse.Text
