import Bourse.Hash.Blocks

/-! # SHA-1

Eighty rounds over five words of 32 bits. The message words are a sliding window: each round uses
the first word and appends the next one of the schedule. -/

namespace Bourse.Hash.Sha1

/-- The state: five words. -/
structure State where
  a : BitVec 32
  b : BitVec 32
  c : BitVec 32
  d : BitVec 32
  e : BitVec 32

/-- The state before the first block. -/
def start : State := ⟨0x67452301#32, 0xEFCDAB89#32, 0x98BADCFE#32, 0x10325476#32, 0xC3D2E1F0#32⟩

/-- The mixing function and the constant of round `t`. -/
def mix (t : Nat) (s : State) : BitVec 32 × BitVec 32 :=
  if t < 20 then ((s.b &&& s.c) ||| (~~~s.b &&& s.d), 0x5A827999#32)
  else if t < 40 then (s.b ^^^ s.c ^^^ s.d, 0x6ED9EBA1#32)
  else if t < 60 then ((s.b &&& s.c) ||| (s.b &&& s.d) ||| (s.c &&& s.d), 0x8F1BBCDC#32)
  else (s.b ^^^ s.c ^^^ s.d, 0xCA62C1D6#32)

/-- One round: the state and the window of sixteen words. -/
def round (x : State × List (BitVec 32)) (t : Nat) : State × List (BitVec 32) :=
  let (s, w) := x
  let (f, k) := mix t s
  let first := w.headD 0
  let next := (w.getD 13 0 ^^^ w.getD 8 0 ^^^ w.getD 2 0 ^^^ first).rotateLeft 1
  (⟨s.a.rotateLeft 5 + f + s.e + k + first, s.a, s.b.rotateLeft 30, s.c, s.d⟩,
    w.tail ++ [next])

/-- Folds one block into the state. -/
def compress (s : State) (block : List UInt8) : State :=
  let (r, _) := (List.range 80).foldl round (s, wordsBig 32 block)
  ⟨s.a + r.a, s.b + r.b, s.c + r.c, s.d + r.d, s.e + r.e⟩

/-- The digest of a message. -/
def digest (message : List UInt8) : List UInt8 :=
  let closed := close 64 8 (toBigEndian 8 (8 * message.length)) message
  let s := (blocksOf 64 closed).foldl compress start
  [s.a, s.b, s.c, s.d, s.e].flatMap bytesBig

end Bourse.Hash.Sha1
