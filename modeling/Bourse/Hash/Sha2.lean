import Bourse.Hash.Blocks
import Bourse.Power

/-! # SHA-2

The family with words of 32 and of 64 bits. Its constants are the leading fraction bits of roots of
primes and are computed here: cube roots of the first eighty primes for the rounds, square roots for
the start. A variant differs from another in its word size, its rotations, its rounds and its
start. -/

namespace Bourse.Hash.Sha2

/-! ### Constants -/

/-- Whether a number has no divisor but one and itself. -/
def isPrime (n : Nat) : Bool := 2 ≤ n && (List.range n).all fun d => d < 2 || n % d != 0

/-- The first eighty primes. -/
def primes : List Nat := (List.range 410).filter isPrime

/-- Extends `r` by its `bits` lowest bits to the largest number whose `k`-th power is at most
`n`. -/
def rootFrom (k n : Nat) : (bits r : Nat) → Nat
  | 0, r => r
  | b + 1, r => rootFrom k n b (if Nat.pow (r + twoTo b) k ≤ n then r + twoTo b else r)

/-- The first 64 fraction bits of the `k`-th root of `p`, for a root below 64. -/
def fractionBits (k p : Nat) : Nat := rootFrom k (p * twoTo (64 * k)) 70 0 % twoTo 64

/-- The round constants with 64 bits. -/
def roundConstants : List Nat := primes.map (fractionBits 3)

/-! ### Variants -/

/-- Three rotations, the last of them a shift in the schedule. -/
structure Amounts where
  first : Nat
  second : Nat
  third : Nat

/-- What a member of the family fixes. -/
structure Variant (w : Nat) where
  /-- Rotations of the first and of the fifth state word. -/
  sumA : Amounts
  sumE : Amounts
  /-- Rotations in the schedule: of the word after the first, and of the last word but one. -/
  early : Amounts
  late : Amounts
  constants : List (BitVec w)
  start : List (BitVec w)
  /-- How many bytes of the final state are the digest. -/
  digestSize : Nat

/-- A constant of 64 bits cut to its leading 32. -/
def leading (n : Nat) : BitVec 32 := BitVec.ofNat 32 (n / twoTo 32)

/-- SHA-256. -/
def sha256 : Variant 32 where
  sumA := ⟨2, 13, 22⟩
  sumE := ⟨6, 11, 25⟩
  early := ⟨7, 18, 3⟩
  late := ⟨17, 19, 10⟩
  constants := (roundConstants.take 64).map leading
  start := ((primes.take 8).map (fractionBits 2)).map leading
  digestSize := 32

/-- SHA-512. -/
def sha512 : Variant 64 where
  sumA := ⟨28, 34, 39⟩
  sumE := ⟨14, 18, 41⟩
  early := ⟨1, 8, 7⟩
  late := ⟨19, 61, 6⟩
  constants := roundConstants.map (BitVec.ofNat 64)
  start := (primes.take 8).map fun p => BitVec.ofNat 64 (fractionBits 2 p)
  digestSize := 64

/-- SHA-384: SHA-512 from another start, cut short. -/
def sha384 : Variant 64 := { sha512 with
  start := ((primes.drop 8).take 8).map fun p => BitVec.ofNat 64 (fractionBits 2 p)
  digestSize := 48 }

/-! ### Rounds -/

variable {w : Nat}

/-- The exclusive or of three rotations. -/
def rotations (n : Amounts) (x : BitVec w) : BitVec w :=
  x.rotateRight n.first ^^^ x.rotateRight n.second ^^^ x.rotateRight n.third

/-- The exclusive or of two rotations and a shift. -/
def shifted (n : Amounts) (x : BitVec w) : BitVec w :=
  x.rotateRight n.first ^^^ x.rotateRight n.second ^^^ (x >>> n.third)

/-- One round with constant `k` on a state of eight words and the window of sixteen message words;
the window moves on by one word. -/
def round (v : Variant w) (x : List (BitVec w) × List (BitVec w)) (k : BitVec w) :
    List (BitVec w) × List (BitVec w) :=
  match x with
  | ([a, b, c, d, e, f, g, h], window) =>
    let word := window.headD 0
    let t1 := h + rotations v.sumE e + ((e &&& f) ^^^ (~~~e &&& g)) + k + word
    let t2 := rotations v.sumA a + ((a &&& b) ^^^ (a &&& c) ^^^ (b &&& c))
    let next := shifted v.late (window.getD 14 0) + window.getD 9 0
      + shifted v.early (window.getD 1 0) + word
    ([t1 + t2, a, b, c, d + t1, e, f, g], window.tail ++ [next])
  | other => other

/-- Folds one block into the state. -/
def compress (v : Variant w) (s : List (BitVec w)) (block : List UInt8) : List (BitVec w) :=
  let (r, _) := v.constants.foldl (round v) (s, wordsBig w block)
  List.zipWith (· + ·) s r

/-- The digest of a message under a variant: blocks have sixteen words and end with the length in
two of them. -/
def digest (v : Variant w) (message : List UInt8) : List UInt8 :=
  let blockSize := 2 * w
  let lengthSize := w / 4
  let closed := close blockSize lengthSize (toBigEndian lengthSize (8 * message.length)) message
  let s := (blocksOf blockSize closed).foldl (compress v) v.start
  (s.flatMap bytesBig).take v.digestSize

end Bourse.Hash.Sha2
