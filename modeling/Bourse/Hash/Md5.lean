import Bourse.Hash.Blocks

/-! # MD5

Sixty-four rounds over four words of 32 bits, in four passes of sixteen that differ in the mixing
function, the order of the message words and the rotations. -/

namespace Bourse.Hash.Md5

/-- The state: four words. -/
structure State where
  a : BitVec 32
  b : BitVec 32
  c : BitVec 32
  d : BitVec 32

/-- The state before the first block. -/
def start : State := ⟨0x67452301#32, 0xEFCDAB89#32, 0x98BADCFE#32, 0x10325476#32⟩

/-- The constants of the rounds: whole parts of `2 ^ 32 · |sin n|` for `n` from one. -/
def sines : List Nat := [
    0xD76AA478, 0xE8C7B756, 0x242070DB, 0xC1BDCEEE, 0xF57C0FAF, 0x4787C62A, 0xA8304613,
    0xFD469501, 0x698098D8, 0x8B44F7AF, 0xFFFF5BB1, 0x895CD7BE, 0x6B901122, 0xFD987193,
    0xA679438E, 0x49B40821, 0xF61E2562, 0xC040B340, 0x265E5A51, 0xE9B6C7AA, 0xD62F105D,
    0x02441453, 0xD8A1E681, 0xE7D3FBC8, 0x21E1CDE6, 0xC33707D6, 0xF4D50D87, 0x455A14ED,
    0xA9E3E905, 0xFCEFA3F8, 0x676F02D9, 0x8D2A4C8A, 0xFFFA3942, 0x8771F681, 0x6D9D6122,
    0xFDE5380C, 0xA4BEEA44, 0x4BDECFA9, 0xF6BB4B60, 0xBEBFBC70, 0x289B7EC6, 0xEAA127FA,
    0xD4EF3085, 0x04881D05, 0xD9D4D039, 0xE6DB99E5, 0x1FA27CF8, 0xC4AC5665, 0xF4292244,
    0x432AFF97, 0xAB9423A7, 0xFC93A039, 0x655B59C3, 0x8F0CCC92, 0xFFEFF47D, 0x85845DD1,
    0x6FA87E4F, 0xFE2CE6E0, 0xA3014314, 0x4E0811A1, 0xF7537E82, 0xBD3AF235, 0x2AD7D2BB,
    0xEB86D391]

/-- Mixing function, place of the message word and rotations of pass `t / 16`. -/
def pass (t : Nat) (s : State) : BitVec 32 × Nat × List Nat :=
  if t < 16 then ((s.b &&& s.c) ||| (~~~s.b &&& s.d), t, [7, 12, 17, 22])
  else if t < 32 then ((s.d &&& s.b) ||| (~~~s.d &&& s.c), (5 * t + 1) % 16, [5, 9, 14, 20])
  else if t < 48 then (s.b ^^^ s.c ^^^ s.d, (3 * t + 5) % 16, [4, 11, 16, 23])
  else (s.c ^^^ (s.b ||| ~~~s.d), (7 * t) % 16, [6, 10, 15, 21])

/-- Round `t` with its constant on the words of a block. -/
def round (words : List (BitVec 32)) (s : State) (step : Nat × Nat) : State :=
  let (sine, t) := step
  let (f, place, turns) := pass t s
  let sum := s.a + f + BitVec.ofNat 32 sine + words.getD place 0
  ⟨s.d, s.b + sum.rotateLeft (turns.getD (t % 4) 0), s.b, s.c⟩

/-- Folds one block into the state. -/
def compress (s : State) (block : List UInt8) : State :=
  let r := sines.zipIdx.foldl (round (wordsLittle 32 block)) s
  ⟨s.a + r.a, s.b + r.b, s.c + r.c, s.d + r.d⟩

/-- The digest of a message. -/
def digest (message : List UInt8) : List UInt8 :=
  let closed := close 64 8 (toBigEndian 8 (8 * message.length)).reverse message
  let s := (blocksOf 64 closed).foldl compress start
  [s.a, s.b, s.c, s.d].flatMap bytesLittle

end Bourse.Hash.Md5
