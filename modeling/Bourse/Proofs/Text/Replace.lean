import Bourse.Text.Cut
import Mathlib.Tactic

/-! # Searching and replacing

A stretch of text is *inert* for a part if no occurrence of the part begins in it, whatever text
follows. Replacing goes over a stretch in which none begins (`replaceAll_append_of_none_begins`) and
puts the new text in the place of the part (`replaceAll_part_append`). -/

namespace Bourse.Text

variable {part : List Char}

/-! ### Occurrences -/

theorem occursIn_iff_isInfix {cs : List Char} : occursIn part cs = true ↔ part <:+: cs := by
  induction cs with
  | nil => simp [occursIn]
  | cons c cs ih =>
    rw [occursIn, Bool.or_eq_true, List.isPrefixOf_iff_prefix, ih, List.infix_cons_iff]

/-- A part does not occur in a text that lacks one of its characters. -/
theorem occursIn_eq_false_of_notMem {d : Char} (hd : d ∈ part) {cs : List Char} (h : d ∉ cs) :
    occursIn part cs = false := by
  rw [← Bool.not_eq_true, occursIn_iff_isInfix]
  intro hsub
  exact h (hsub.subset hd)

/-! ### Inert stretches -/

/-- No occurrence of the part begins in the stretch, whatever follows it. -/
def Inert (part : List Char) : (stretch : List Char) → Prop
  | [] => True
  | c :: cs => (∀ rest, ¬ part <+: c :: (cs ++ rest)) ∧ Inert part cs

theorem occursIn_append_of_inert {stretch : List Char} (h : Inert part stretch)
    (rest : List Char) : occursIn part (stretch ++ rest) = occursIn part rest := by
  induction stretch with
  | nil => rfl
  | cons c cs ih =>
    have hpre : part.isPrefixOf (c :: (cs ++ rest)) = false := by
      rw [← Bool.not_eq_true, List.isPrefixOf_iff_prefix]
      exact h.1 rest
    rw [List.cons_append, occursIn, hpre, Bool.false_or, ih h.2]

theorem Inert.not_prefix_drop {stretch : List Char} (h : Inert part stretch) {i : ℕ}
    (hi : i < stretch.length) (rest : List Char) : ¬ part <+: (stretch ++ rest).drop i := by
  induction stretch generalizing i with
  | nil => cases hi
  | cons c cs ih =>
    cases i with
    | zero => exact h.1 rest
    | succ i => exact ih h.2 (Nat.lt_of_succ_lt_succ hi)

/-- A stretch without the first character of a part is inert for it. -/
theorem inert_of_notMem {d : Char} {stretch : List Char} (h : d ∉ stretch) :
    Inert (d :: part) stretch := by
  induction stretch with
  | nil => trivial
  | cons c cs ih =>
    rw [List.mem_cons, not_or] at h
    exact ⟨fun rest hpre => h.1 (List.cons_prefix_cons.1 hpre).1, ih h.2⟩

/-! ### Replacing -/

theorem replaceAll_cons {c : Char} {cs : List Char} (h : ¬ part <+: c :: cs) (new : List Char) :
    replaceAll part new (c :: cs) = c :: replaceAll part new cs := by
  rw [← List.isPrefixOf_iff_prefix] at h
  rw [replaceAll, replaceFrom, if_neg h]
  rfl

/-- Replacing goes over a stretch in which no occurrence begins. -/
theorem replaceAll_append_of_none_begins {stretch rest : List Char}
    (h : ∀ i < stretch.length, ¬ part <+: (stretch ++ rest).drop i) (new : List Char) :
    replaceAll part new (stretch ++ rest) = stretch ++ replaceAll part new rest := by
  induction stretch with
  | nil => rfl
  | cons c cs ih =>
    have hhead : ¬ part <+: c :: (cs ++ rest) := h 0 (by simp)
    have htail : ∀ i < cs.length, ¬ part <+: (cs ++ rest).drop i :=
      fun i hi => h (i + 1) (by simpa using hi)
    rw [List.cons_append, replaceAll_cons hhead, ih htail, List.cons_append]

theorem replaceFrom_length_append (new skipped rest : List Char) :
    replaceFrom part new skipped.length (skipped ++ rest) = replaceAll part new rest := by
  induction skipped with
  | nil => rfl
  | cons c cs ih => exact ih

/-- **An occurrence is replaced** and not looked into again. -/
theorem replaceAll_part_append {d : Char} (new rest : List Char) :
    replaceAll (d :: part) new (d :: part ++ rest) = new ++ replaceAll (d :: part) new rest := by
  have hpre : (d :: part).isPrefixOf (d :: (part ++ rest)) = true :=
    List.isPrefixOf_iff_prefix.2 (List.prefix_append (d :: part) rest)
  rw [List.cons_append, replaceAll, replaceFrom, if_pos hpre]
  exact congrArg _ (replaceFrom_length_append new part rest)

end Bourse.Text
