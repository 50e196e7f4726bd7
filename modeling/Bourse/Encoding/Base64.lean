/-! # Base 64

Three bytes are four characters of six bits each. The standard alphabet is padded to whole groups of
four; the alphabet for links is not padded. Reading is strict: the padding has to be there, nothing
may follow it, and the bits that no byte uses have to be zero, so that each list of bytes has one
text. -/

namespace Bourse.Base64

/-- An alphabet: its last two characters vary. -/
structure Alphabet where
  c62 : Char
  c63 : Char

/-- The standard alphabet. -/
def standard : Alphabet := ⟨'+', '/'⟩

/-- The alphabet for links. -/
def forLinks : Alphabet := ⟨'-', '_'⟩

/-- The character of six bits. -/
def Alphabet.char (a : Alphabet) (n : Nat) : Char :=
  if n < 26 then Char.ofNat ('A'.toNat + n)
  else if n < 52 then Char.ofNat ('a'.toNat + (n - 26))
  else if n < 62 then Char.ofNat ('0'.toNat + (n - 52))
  else if n = 62 then a.c62
  else a.c63

/-- The six bits of a character. -/
def Alphabet.value? (a : Alphabet) (c : Char) : Option Nat :=
  if 'A' ≤ c ∧ c ≤ 'Z' then some (c.toNat - 'A'.toNat)
  else if 'a' ≤ c ∧ c ≤ 'z' then some (c.toNat - 'a'.toNat + 26)
  else if '0' ≤ c ∧ c ≤ '9' then some (c.toNat - '0'.toNat + 52)
  else if c = a.c62 then some 62
  else if c = a.c63 then some 63
  else none

/-- The characters of a list of bytes, with `pad` for each that is missing in the last group. -/
def encodeWith (a : Alphabet) (pad : List Char) : List UInt8 → List Char
  | [] => []
  | [x] => a.char (x.toNat / 4) :: a.char (x.toNat % 4 * 16) :: (pad ++ pad)
  | [x, y] =>
    a.char (x.toNat / 4) :: a.char (x.toNat % 4 * 16 + y.toNat / 16)
      :: a.char (y.toNat % 16 * 4) :: pad
  | x :: y :: z :: rest =>
    a.char (x.toNat / 4) :: a.char (x.toNat % 4 * 16 + y.toNat / 16)
      :: a.char (y.toNat % 16 * 4 + z.toNat / 64) :: a.char (z.toNat % 64)
      :: encodeWith a pad rest

/-- The padded text of a list of bytes. -/
def encode (bs : List UInt8) : String := String.ofList (encodeWith standard ['='] bs)

/-- The text of a list of bytes for use in links. -/
def encodeForLinks (bs : List UInt8) : String := String.ofList (encodeWith forLinks [] bs)

/-! ### Reading -/

/-- The byte in a last group of two characters. -/
def oneByte? (p q : Nat) : Option (List UInt8) :=
  if q % 16 = 0 then some [UInt8.ofNat (p * 4 + q / 16)] else none

/-- The bytes in a last group of three characters. -/
def twoBytes? (p q r : Nat) : Option (List UInt8) :=
  if r % 4 = 0 then some [UInt8.ofNat (p * 4 + q / 16), UInt8.ofNat (q % 16 * 16 + r / 4)]
  else none

/-- The bytes in a whole group. -/
def threeBytes (p q r s : Nat) : List UInt8 :=
  [UInt8.ofNat (p * 4 + q / 16), UInt8.ofNat (q % 16 * 16 + r / 4), UInt8.ofNat (r % 4 * 64 + s)]

/-- Reads padded text. -/
def decodePadded? (a : Alphabet) : List Char → Option (List UInt8)
  | [] => some []
  | c1 :: c2 :: c3 :: c4 :: rest => do
    let p ← a.value? c1
    let q ← a.value? c2
    if c3 = '=' then
      if c4 = '=' ∧ rest = [] then oneByte? p q else none
    else
      let r ← a.value? c3
      if c4 = '=' then
        if rest = [] then twoBytes? p q r else none
      else
        let s ← a.value? c4
        let more ← decodePadded? a rest
        return threeBytes p q r s ++ more
  | _ => none

/-- Reads text without padding. -/
def decodeBare? (a : Alphabet) : List Char → Option (List UInt8)
  | [] => some []
  | [c1, c2] => do oneByte? (← a.value? c1) (← a.value? c2)
  | [c1, c2, c3] => do twoBytes? (← a.value? c1) (← a.value? c2) (← a.value? c3)
  | c1 :: c2 :: c3 :: c4 :: rest => do
    let group := threeBytes (← a.value? c1) (← a.value? c2) (← a.value? c3) (← a.value? c4)
    let more ← decodeBare? a rest
    return group ++ more
  | _ => none

/-- Reads the standard text of bytes. -/
def decode? (s : String) : Option (List UInt8) := decodePadded? standard s.toList

/-- Reads the text of bytes in links. -/
def decodeForLinks? (s : String) : Option (List UInt8) := decodeBare? forLinks s.toList

end Bourse.Base64
