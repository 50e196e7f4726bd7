import Bourse.Encoding.Hex
import Mathlib.Tactic

/-! # Hexadecimal digits and back

Digits of either case have their value, and the two digits of a byte read as the byte
(`decode?_encode`). -/

namespace Bourse.Hex

/-- A small digit reads as its value. -/
theorem value?_digit : ∀ n < 16, value? (digit n) = some n := by decide

/-- A capital digit reads as its value. -/
theorem value?_capital : ∀ n < 16, value? (capital n) = some n := by decide

/-- A byte is its higher half and its lower half. -/
theorem ofNat_halves (b : UInt8) : UInt8.ofNat (b.toNat / 16 * 16 + b.toNat % 16) = b := by
  rw [Nat.div_add_mod']
  exact UInt8.ofNat_toNat

/-- **Two digits for each byte** are read as the bytes. -/
theorem decode?_encode (bs : List UInt8) : decode? (encode bs).toList = some bs := by
  rw [encode, String.toList_ofList]
  induction bs with
  | nil => rfl
  | cons b bs ih =>
    have hb : b.toNat < 256 := b.toNat_lt
    show decode? (digit (b.toNat / 16) :: digit (b.toNat % 16) :: bs.flatMap encodeByte) = _
    rw [decode?, value?_digit _ (by omega), value?_digit _ (by omega), ih]
    show some (UInt8.ofNat _ :: bs) = _
    rw [ofNat_halves]

theorem length_encode (bs : List UInt8) : (encode bs).length = 2 * bs.length := by
  rw [encode, String.length_ofList]
  induction bs with
  | nil => rfl
  | cons b bs ih =>
    rw [List.flatMap_cons, List.length_append, ih, List.length_cons]
    show 2 + 2 * bs.length = _
    omega

end Bourse.Hex
