/-! # Texts as bytes

The UTF-8 form of a text, prefixes measured in bytes but cut between characters, and the reading of
arbitrary bytes in which every ill-formed piece becomes the replacement character. -/

namespace Bourse.Text

/-- The UTF-8 bytes of a list of characters. -/
def encodeUtf8 (cs : List Char) : List UInt8 := cs.flatMap String.utf8EncodeChar

/-- The UTF-8 bytes of a text. -/
def bytes (s : String) : List UInt8 := encodeUtf8 s.toList

/-- How many bytes the characters take. -/
def byteLength : List Char → Nat
  | [] => 0
  | c :: cs => c.utf8Size + byteLength cs

/-! ### Boundaries -/

/-- The last position between two characters, or at an end of the text, that is not behind the byte
`i`. A position inside a character is given up for the one before it. -/
def lastBoundary (s : String) (i : Nat) : s.Pos :=
  if h : String.Pos.Raw.IsValid s ⟨i⟩ then s.pos ⟨i⟩ h
  else match i, h with
    -- the start of a text is inside no character, so that there always is a position before
    | 0, h => absurd String.Pos.Raw.isValid_zero h
    | i + 1, _ => lastBoundary s i

/-- The text up to the last boundary within its first `limit` bytes. -/
def takeBytes (limit : Nat) (s : String) : String := (s.sliceTo (lastBoundary s limit)).copy

/-! ### Reading bytes -/

/-- A character whose later bytes are still to come: how many, the code point so far, and the range
in which the next byte has to lie. -/
structure Pending where
  missing : Nat
  code : Nat
  low : Nat
  high : Nat

/-- What a first byte announces. -/
inductive Lead where
  | whole (c : Char)
  | opens (p : Pending)
  | illFormed

/-- Reads a byte where a character may start. -/
def Lead.ofByte (b : UInt8) : Lead :=
  let n := b.toNat
  if n < 0x80 then .whole (Char.ofNat n)
  else if n < 0xC2 then .illFormed
  else if n < 0xE0 then .opens ⟨1, n - 0xC0, 0x80, 0xBF⟩
  else if n < 0xF0 then
    .opens ⟨2, n - 0xE0, if n = 0xE0 then 0xA0 else 0x80, if n = 0xED then 0x9F else 0xBF⟩
  else if n < 0xF5 then
    .opens ⟨3, n - 0xF0, if n = 0xF0 then 0x90 else 0x80, if n = 0xF4 then 0x8F else 0xBF⟩
  else .illFormed

/-- The replacement character, which stands for a piece that is no character. -/
def replacement : Char := Char.ofNat 0xFFFD

/-- The characters that a first byte completes, and what is then pending. -/
def startChar (b : UInt8) : List Char × Option Pending :=
  match Lead.ofByte b with
  | .whole c => ([c], none)
  | .opens p => ([], some p)
  | .illFormed => ([replacement], none)

/-- Reads one byte: the characters that it completes, and what is then pending. A byte that cannot
follow ends the pending piece, as one replacement character, and is read anew. -/
def readByte (pending : Option Pending) (b : UInt8) : List Char × Option Pending :=
  match pending with
  | none => startChar b
  | some p =>
    if p.low ≤ b.toNat && b.toNat ≤ p.high then
      let code := p.code * 64 + b.toNat % 64
      if p.missing ≤ 1 then ([Char.ofNat code], none)
      else ([], some ⟨p.missing - 1, code, 0x80, 0xBF⟩)
    else
      let (cs, rest) := startChar b
      (replacement :: cs, rest)

/-- Reads all bytes after `pending`. -/
def decodeFrom (pending : Option Pending) : List UInt8 → List Char
  | [] => if pending.isSome then [replacement] else []
  | b :: bs =>
    let (cs, rest) := readByte pending b
    cs ++ decodeFrom rest bs

/-- The text that the bytes spell, each longest ill-formed piece read as one replacement
character. -/
def decodeLossy (bs : List UInt8) : String := String.ofList (decodeFrom none bs)

end Bourse.Text
