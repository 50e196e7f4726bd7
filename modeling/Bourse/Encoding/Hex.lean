/-! # Hexadecimal digits

Two digits for each byte, the higher half first. Writing takes small letters or capitals, reading
takes both. -/

namespace Bourse.Hex

/-- The small digit of a value below sixteen. -/
def digit (n : Nat) : Char := "0123456789abcdef".toList.getD n '0'

/-- The capital digit of a value below sixteen. -/
def capital (n : Nat) : Char := "0123456789ABCDEF".toList.getD n '0'

/-- The value of a digit of either case. -/
def value? (c : Char) : Option Nat :=
  if '0' ≤ c ∧ c ≤ '9' then some (c.toNat - '0'.toNat)
  else if 'a' ≤ c ∧ c ≤ 'f' then some (c.toNat - 'a'.toNat + 10)
  else if 'A' ≤ c ∧ c ≤ 'F' then some (c.toNat - 'A'.toNat + 10)
  else none

/-- The two digits of a byte. -/
def encodeByte (b : UInt8) : List Char := [digit (b.toNat / 16), digit (b.toNat % 16)]

/-- The digits of a list of bytes. -/
def encode (bs : List UInt8) : String := String.ofList (bs.flatMap encodeByte)

/-- Reads digits, two for each byte. -/
def decode? : List Char → Option (List UInt8)
  | [] => some []
  | [_] => none
  | a :: b :: cs => do
    let high ← value? a
    let low ← value? b
    let rest ← decode? cs
    return UInt8.ofNat (high * 16 + low) :: rest

end Bourse.Hex
