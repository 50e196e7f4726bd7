import Bourse.Text.Blank
import Mathlib.Data.List.DropRight
import Mathlib.Data.List.TakeWhile
import Mathlib.Tactic

/-! # White space at the ends

What is left of a text without the white space at its ends: nothing exactly if there was nothing
else (`trim_eq_empty_iff`), and all of it if there was none (`trim_eq_self`). Around a text without
any, white space is all that goes (`trim_surrounded`). Whatever is dropped at the end, that stops at
a character that stays (`getLast?_dropEnd`, `dropEnd_append_cons`). -/

namespace Bourse.Text

theorem not_isBlank_of_isDigit {c : Char} (h : c.isDigit = true) : isBlank c = false := by
  have hrange := Char.isDigit_iff_toNat.1 h
  have hzero : '0'.toNat = 48 := rfl
  have hnine : '9'.toNat = 57 := rfl
  simp [isBlank]
  omega

theorem all_dropStart_iff {p : Char → Bool} {cs : List Char} :
    (∀ c ∈ dropStart p cs, p c = true) ↔ ∀ c ∈ cs, p c = true := by
  constructor
  · intro h c hc
    rw [← List.takeWhile_append_dropWhile (p := p) (l := cs), List.mem_append] at hc
    rcases hc with hc | hc
    · exact List.mem_takeWhile_imp hc
    · exact h c hc
  · intro h c hc
    exact h c (List.dropWhile_subset p hc)

theorem trim_eq_empty_iff {s : String} :
    trim s = "" ↔ ∀ c ∈ s.toList, isBlank c = true := by
  rw [trim, ← String.toList_inj, String.toList_ofList, ← all_dropStart_iff]
  simp [dropEnd, List.dropWhile_eq_nil_iff]

theorem dropStart_eq_self {p : Char → Bool} {cs : List Char} (h : ∀ c ∈ cs, p c = false) :
    dropStart p cs = cs := by
  rw [dropStart, List.dropWhile_eq_self_iff]
  intro hpos
  rw [h _ (List.getElem_mem hpos)]
  decide

theorem dropStart_append {p : Char → Bool} {before : List Char} (cs : List Char)
    (h : ∀ c ∈ before, p c = true) : dropStart p (before ++ cs) = dropStart p cs :=
  List.dropWhile_append_of_pos h

theorem dropEnd_prefix (p : Char → Bool) (cs : List Char) : dropEnd p cs <+: cs :=
  List.rdropWhile_prefix p cs

/-- What is left does not end in what is dropped. -/
theorem getLast?_dropEnd {p : Char → Bool} {cs : List Char} {c : Char}
    (h : (dropEnd p cs).getLast? = some c) : p c = false := by
  have hhead := List.head?_dropWhile_not p cs.reverse
  rw [dropEnd, List.getLast?_reverse] at h
  rwa [h] at hhead

theorem dropEnd_append {p : Char → Bool} {cs after : List Char} (hcs : ∀ c ∈ cs, p c = false)
    (h : ∀ c ∈ after, p c = true) : dropEnd p (cs ++ after) = cs := by
  have hstart : dropStart p (after.reverse ++ cs.reverse) = cs.reverse := by
    rw [dropStart_append _ fun c hc => h c (List.mem_reverse.1 hc),
      dropStart_eq_self fun c hc => hcs c (List.mem_reverse.1 hc)]
  unfold dropStart at hstart
  rw [dropEnd, List.reverse_append, hstart, List.reverse_reverse]

/-- What is not dropped keeps all that stands before it. -/
theorem dropEnd_append_cons {p : Char → Bool} {c : Char} (hc : p c = false)
    (before after : List Char) :
    dropEnd p (before ++ c :: after) = before ++ c :: dropEnd p after := by
  have hstop : ∀ cs : List Char, (cs ++ c :: before.reverse).dropWhile p
      = cs.dropWhile p ++ c :: before.reverse := by
    intro cs
    rw [List.dropWhile_append]
    split
    · rename_i hnil
      rw [List.isEmpty_iff.1 hnil]
      exact List.dropWhile_cons_of_neg (by simp [hc])
    · rfl
  rw [dropEnd, dropEnd, List.reverse_append, List.reverse_cons, List.append_assoc,
    List.singleton_append, hstop, List.reverse_append, List.reverse_cons, List.reverse_reverse,
    List.append_assoc, List.singleton_append]

/-- **White space around a text** that has none is all that is removed. -/
theorem trim_surrounded {before cs after : List Char} (hbefore : ∀ c ∈ before, isBlank c = true)
    (hcs : ∀ c ∈ cs, isBlank c = false) (hafter : ∀ c ∈ after, isBlank c = true) :
    trim (String.ofList (before ++ cs ++ after)) = String.ofList cs := by
  rw [trim, String.toList_ofList, List.append_assoc, dropStart_append _ hbefore]
  congr 1
  cases cs with
  | nil =>
    have hnone : dropStart isBlank after = [] := List.dropWhile_eq_nil_iff.2 hafter
    rw [List.nil_append, hnone]
    rfl
  | cons c cs =>
    have hkeep : dropStart isBlank (c :: cs ++ after) = c :: cs ++ after :=
      List.dropWhile_cons_of_neg (by simp [hcs c List.mem_cons_self])
    rw [hkeep, dropEnd_append hcs hafter]

/-- A text without white space is not changed. -/
theorem trim_eq_self {s : String} (h : ∀ c ∈ s.toList, isBlank c = false) : trim s = s := by
  have hnone : ∀ c ∈ ([] : List Char), isBlank c = true := fun c hc => by cases hc
  have htrim := trim_surrounded hnone h hnone
  rwa [List.nil_append, List.append_nil, String.ofList_toList] at htrim

end Bourse.Text
