import Bourse.Text.Utf8
import Mathlib.Tactic

/-! # Texts cut to a number of bytes

The search for a boundary is a machine whose states are byte positions and whose one step leaves a
position inside a character for the one before it (`StepsBack`). A step passes no boundary, and the
start of a text is one, so that the search ends (`searchEnds_lastBoundary`) and finds the last
boundary (`isGreatest_lastBoundary`).

The boundaries of a text are where its prefixes end (`isValid_iff_exists_isPrefix`). The text before
the last one is therefore the longest prefix that fits (`isLongestPrefix_takeBytes`), and such a
prefix leaves less than one character of the limit unused (`IsLongestPrefix.limit_le`). -/

namespace Bourse.Text

open Relation

variable {s p q : String} {limit i j k : ℕ}

/-! ### Prefixes and their bytes -/

theorem prefix_iff_exists_append : p.toList <+: s.toList ↔ ∃ rest, s = p ++ rest := by
  constructor
  · rintro ⟨rest, hrest⟩
    refine ⟨String.ofList rest, ?_⟩
    rw [← String.toList_inj, String.toList_append, String.toList_ofList, hrest]
  · rintro ⟨rest, rfl⟩
    rw [String.toList_append]
    exact List.prefix_append _ _

theorem utf8ByteSize_mono (h : p.toList <+: s.toList) :
    p.utf8ByteSize ≤ s.utf8ByteSize := by
  obtain ⟨rest, rfl⟩ := prefix_iff_exists_append.1 h
  rw [String.utf8ByteSize_append]
  exact Nat.le_add_right _ _

/-- Of two prefixes of a text, the one with fewer bytes is a prefix of the other. -/
theorem prefix_of_utf8ByteSize_le (hp : p.toList <+: s.toList) (hq : q.toList <+: s.toList)
    (h : p.utf8ByteSize ≤ q.utf8ByteSize) : p.toList <+: q.toList := by
  rcases List.prefix_or_prefix_of_prefix hp hq with hpq | hqp
  · exact hpq
  · obtain ⟨rest, rfl⟩ := prefix_iff_exists_append.1 hqp
    rw [String.utf8ByteSize_append] at h
    have hempty : rest.utf8ByteSize = 0 := by omega
    rw [String.utf8ByteSize_eq_zero_iff] at hempty
    rw [hempty, String.append_empty]

/-- **Boundaries** are where the prefixes of a text end. -/
theorem isValid_iff_exists_isPrefix :
    String.Pos.Raw.IsValid s ⟨i⟩ ↔ ∃ p : String, p.toList <+: s.toList ∧ p.utf8ByteSize = i := by
  rw [String.Pos.Raw.isValid_iff_exists_append]
  constructor
  · rintro ⟨p, rest, hs, hi⟩
    exact ⟨p, prefix_iff_exists_append.2 ⟨rest, hs⟩, (congrArg String.Pos.Raw.byteIdx hi).symm⟩
  · rintro ⟨p, hp, rfl⟩
    obtain ⟨rest, hs⟩ := prefix_iff_exists_append.1 hp
    exact ⟨p, rest, hs, rfl⟩

/-! ### The search for a boundary -/

/-- One step of the search: a position inside a character is left for the one before it. -/
def StepsBack (s : String) (i j : ℕ) : Prop := ¬ String.Pos.Raw.IsValid s ⟨i⟩ ∧ i = j + 1

/-- The search that starts at the byte `i` ends at the boundary `p`. -/
structure SearchEnds (s : String) (i : ℕ) (p : s.Pos) : Prop where
  arrives : ReflTransGen (StepsBack s) i p.offset.byteIdx
  /-- Wherever the search gets, it has arrived or there is a position before. -/
  goes_on : ∀ j, ReflTransGen (StepsBack s) i j → j = p.offset.byteIdx ∨ ∃ k, StepsBack s j k

/-- The start of a text is inside no character, so that a step never has to go below it. -/
theorem exists_stepsBack (h : ¬ String.Pos.Raw.IsValid s ⟨i⟩) : ∃ j, StepsBack s i j := by
  cases i with
  | zero => exact absurd String.Pos.Raw.isValid_zero h
  | succ j => exact ⟨j, h, rfl⟩

/-- A step passes no boundary. -/
theorem StepsBack.le_of_isValid (h : StepsBack s i j) (hk : String.Pos.Raw.IsValid s ⟨k⟩)
    (hle : k ≤ i) : k ≤ j := by
  obtain ⟨hi, rfl⟩ := h
  have hne : k ≠ j + 1 := fun heq => hi (heq ▸ hk)
  omega

/-- A run goes only back, and passes no boundary. -/
theorem le_of_run (h : ReflTransGen (StepsBack s) i j) :
    j ≤ i ∧ ∀ k, String.Pos.Raw.IsValid s ⟨k⟩ → k ≤ i → k ≤ j := by
  induction h with
  | refl => exact ⟨le_rfl, fun _ _ hle => hle⟩
  | tail _ hstep ih =>
    refine ⟨?_, fun k hk hle => hstep.le_of_isValid hk (ih.2 k hk hle)⟩
    have := hstep.2
    omega

theorem lastBoundary_of_isValid (h : String.Pos.Raw.IsValid s ⟨i⟩) :
    (lastBoundary s i).offset.byteIdx = i := by
  rw [lastBoundary, dif_pos h]
  rfl

theorem lastBoundary_of_stepsBack (h : StepsBack s i j) : lastBoundary s i = lastBoundary s j := by
  obtain ⟨hi, rfl⟩ := h
  rw [lastBoundary, dif_neg hi]

theorem run_lastBoundary (s : String) (i : ℕ) :
    ReflTransGen (StepsBack s) i (lastBoundary s i).offset.byteIdx := by
  induction i with
  | zero => rw [lastBoundary_of_isValid String.Pos.Raw.isValid_zero]
  | succ i ih =>
    by_cases h : String.Pos.Raw.IsValid s ⟨i + 1⟩
    · rw [lastBoundary_of_isValid h]
    · have hstep : StepsBack s (i + 1) i := ⟨h, rfl⟩
      rw [lastBoundary_of_stepsBack hstep]
      exact .head hstep ih

/-- **The last boundary** is what the search finds. -/
theorem isGreatest_lastBoundary (s : String) (limit : ℕ) :
    IsGreatest {i | i ≤ limit ∧ String.Pos.Raw.IsValid s ⟨i⟩}
      (lastBoundary s limit).offset.byteIdx := by
  obtain ⟨hle, hlast⟩ := le_of_run (run_lastBoundary s limit)
  exact ⟨⟨hle, (lastBoundary s limit).isValid⟩, fun i hi => hlast i hi.2 hi.1⟩

/-- **The search ends**, and nowhere on its way it would have to go below the start of the text. -/
theorem searchEnds_lastBoundary (s : String) (i : ℕ) : SearchEnds s i (lastBoundary s i) := by
  refine ⟨run_lastBoundary s i, fun j hrun => ?_⟩
  obtain ⟨⟨hle, hvalid⟩, hgreatest⟩ := isGreatest_lastBoundary s i
  obtain ⟨hback, hlast⟩ := le_of_run hrun
  by_cases h : String.Pos.Raw.IsValid s ⟨j⟩
  · exact .inl (le_antisymm (hgreatest ⟨hback, h⟩) (hlast _ hvalid hle))
  · exact .inr (exists_stepsBack h)

/-! ### The longest prefix -/

/-- `p` is the longest prefix of `s`, of whole characters, that has at most `limit` bytes. -/
structure IsLongestPrefix (limit : ℕ) (s p : String) : Prop where
  starts : p.toList <+: s.toList
  fits : p.utf8ByteSize ≤ limit
  longest : ∀ q : String, q.toList <+: s.toList → q.utf8ByteSize ≤ limit → q.toList <+: p.toList

theorem utf8ByteSize_takeBytes (limit : ℕ) (s : String) :
    (takeBytes limit s).utf8ByteSize = (lastBoundary s limit).offset.byteIdx :=
  (congrArg String.Pos.Raw.byteIdx (lastBoundary s limit).splits.offset_eq_rawEndPos).symm

theorem takeBytes_isPrefix (limit : ℕ) (s : String) : (takeBytes limit s).toList <+: s.toList := by
  refine ⟨(s.sliceFrom (lastBoundary s limit)).copy.toList, ?_⟩
  rw [takeBytes, ← String.toList_append, String.sliceTo_append_sliceFrom]

theorem isLongestPrefix_takeBytes (limit : ℕ) (s : String) :
    IsLongestPrefix limit s (takeBytes limit s) := by
  obtain ⟨⟨hle, -⟩, hgreatest⟩ := isGreatest_lastBoundary s limit
  rw [← utf8ByteSize_takeBytes] at hle hgreatest
  refine ⟨takeBytes_isPrefix limit s, hle, fun q hq hfits => ?_⟩
  have hbound : q.utf8ByteSize ≤ (takeBytes limit s).utf8ByteSize :=
    hgreatest ⟨hfits, isValid_iff_exists_isPrefix.2 ⟨q, hq, rfl⟩⟩
  exact prefix_of_utf8ByteSize_le hq (takeBytes_isPrefix limit s) hbound

/-- Within four bytes there is room for the first of two characters of two bytes. -/
example : takeBytes 4 "aéé" = "aé" := by decide

theorem push_isPrefix {c : Char} {rest : List Char} (h : s.toList = p.toList ++ c :: rest) :
    (p.push c).toList <+: s.toList := by
  refine ⟨rest, ?_⟩
  rw [h, String.toList_push, List.append_assoc]
  rfl

/-- A prefix is the longest one exactly if it fits and its next character does not. -/
theorem isLongestPrefix_iff_of_next {c : Char} {rest : List Char}
    (h : s.toList = p.toList ++ c :: rest) :
    IsLongestPrefix limit s p ↔
      p.utf8ByteSize ≤ limit ∧ limit < p.utf8ByteSize + c.utf8Size := by
  rw [← String.utf8ByteSize_push]
  constructor
  · intro hp
    refine ⟨hp.fits, ?_⟩
    by_contra hsize
    have hlength := (hp.longest _ (push_isPrefix h) (not_lt.1 hsize)).length_le
    rw [String.toList_push, List.length_append, List.length_singleton] at hlength
    omega
  · rintro ⟨hfits, hnext⟩
    refine ⟨⟨c :: rest, h.symm⟩, hfits, fun q hq hqfits => ?_⟩
    -- a prefix that is no prefix of `p` has the next character
    rcases List.prefix_or_prefix_of_prefix hq (push_isPrefix h) with hshort | hlong
    · rw [String.toList_push, List.prefix_concat_iff, ← String.toList_push,
        String.toList_inj] at hshort
      refine hshort.resolve_left ?_
      rintro rfl
      omega
    · have := utf8ByteSize_mono hlong
      omega

namespace IsLongestPrefix

/-- There is one longest prefix. -/
theorem unique (h : IsLongestPrefix limit s p) (h' : IsLongestPrefix limit s q) : p = q := by
  rw [← String.toList_inj]
  exact (h'.longest p h.starts h.fits).eq_of_length_le (h.longest q h'.starts h'.fits).length_le

/-- A text that fits is its own longest prefix. -/
theorem self (h : s.utf8ByteSize ≤ limit) : IsLongestPrefix limit s s :=
  ⟨List.prefix_rfl, h, fun _ hq _ => hq⟩

/-- **At most three bytes** of the limit are left unused, as no character takes more than four. -/
theorem limit_le (h : IsLongestPrefix limit s p) (hlong : limit < s.utf8ByteSize) :
    limit ≤ p.utf8ByteSize + 3 := by
  obtain ⟨rest, hrest⟩ := h.starts
  cases rest with
  | nil =>
    rw [List.append_nil, String.toList_inj] at hrest
    have := h.fits
    rw [hrest] at this
    omega
  | cons c rest =>
    have hnext := ((isLongestPrefix_iff_of_next hrest.symm).1 h).2
    have := c.utf8Size_le_four
    omega

end IsLongestPrefix

end Bourse.Text
