import Bourse.Encoding.Hex
import Bourse.Text.Utf8

/-! # Percent encoding

Letters, digits and `-`, `_`, `.`, `~` stand for themselves in an address; every other byte of a
text is a percent sign and two capital digits. -/

namespace Bourse.Percent

/-- Characters that stand for themselves. -/
def isPlain (c : Char) : Bool := c.isAlphanum || c == '-' || c == '_' || c == '.' || c == '~'

/-- A byte as a percent sign and two digits. -/
def encodeByte (b : UInt8) : List Char :=
  ['%', Hex.capital (b.toNat / 16), Hex.capital (b.toNat % 16)]

/-- One character in an address. -/
def encodeChar (c : Char) : List Char :=
  if isPlain c then [c] else (String.utf8EncodeChar c).flatMap encodeByte

/-- A text in an address. -/
def encode (s : String) : String := String.ofList (s.toList.flatMap encodeChar)

/-- The bytes of an encoded text; a percent sign without two digits is refused. -/
def decodeBytes? : List Char → Option (List UInt8)
  | [] => some []
  | '%' :: a :: b :: cs => do
    let high ← Hex.value? a
    let low ← Hex.value? b
    let rest ← decodeBytes? cs
    return UInt8.ofNat (high * 16 + low) :: rest
  | c :: cs => do
    if c = '%' then none
    let rest ← decodeBytes? cs
    return String.utf8EncodeChar c ++ rest

/-- The text behind an encoded one. -/
def decode? (s : String) : Option String := (decodeBytes? s.toList).map Text.decodeLossy

end Bourse.Percent
