import Bourse.Encoding.Query
import Mathlib.Tactic

/-! # Whole numbers of 64 bits

The integer that a value is read as fits 64 bits with a sign, however it was written
(`Json.isInt64_of_int?`), and such a number is sent as its numeral (`Query.valueText?_ofInt`). -/

namespace Bourse

/-- A 64-bit number with a sign. -/
def IsInt64 (i : ℤ) : Prop := -9223372036854775808 ≤ i ∧ i < 9223372036854775808

theorem isInt64_toInt (i : Int64) : IsInt64 i.toInt := ⟨i.le_toInt, i.toInt_lt⟩

theorem Binary64.isInt64_of_int64? {x : Binary64} {i : ℤ} (h : x.int64? = some i) : IsInt64 i := by
  unfold int64? at h
  split at h
  · rename_i hrange
    rw [Option.some.injEq] at h
    exact h ▸ hrange
  · cases h

theorem JsonNumber.isInt64_of_int64? {n : JsonNumber} {i : ℤ} (h : n.int64? = some i) :
    IsInt64 i := by
  cases n with
  | int w =>
    unfold int64? at h
    dsimp only at h
    split at h
    · rename_i hlt
      rw [Option.some.injEq] at h
      exact h ▸ ⟨w.in_range.1, hlt⟩
    · cases h
  | float x => cases h

theorem Text.isInt64_of_signed? {cs : List Char} {i : ℤ} (h : Text.signed? 64 cs = some i) :
    IsInt64 i := by
  unfold Text.signed? at h
  obtain ⟨-, hrange⟩ := Option.filter_eq_some_iff.1 h
  rw [Bool.and_eq_true, decide_eq_true_eq, decide_eq_true_eq] at hrange
  exact hrange

/-- The integer reading of a value fits 64 bits. -/
theorem Json.isInt64_of_int? {v : Json} {i : ℤ} (h : v.int? = some i) : IsInt64 i := by
  unfold Json.int? at h
  cases v with
  | num n =>
    rcases Option.or_eq_some_iff.1 h with h | ⟨-, h⟩
    · exact JsonNumber.isInt64_of_int64? h
    · obtain ⟨x, -, hx⟩ := Option.bind_eq_some_iff.1 h
      exact Binary64.isInt64_of_int64? hx
  | str s =>
    rcases Option.or_eq_some_iff.1 h with h | ⟨-, h⟩
    · exact Text.isInt64_of_signed? h
    · obtain ⟨x, -, hx⟩ := Option.bind_eq_some_iff.1 h
      exact Binary64.isInt64_of_int64? hx
  | _ => cases h

/-- A 64-bit number is sent as its numeral. -/
theorem Query.valueText?_ofInt {i : ℤ} (h : IsInt64 i) :
    valueText? (.ofInt i) = some (String.ofList (Text.numeral i)) := by
  have hrange : -9223372036854775808 ≤ i ∧ i < 18446744073709551616 := ⟨h.1, by linarith [h.2]⟩
  unfold Json.ofInt WordInt.ofInt?
  rw [dif_pos hrange]
  rfl

end Bourse
