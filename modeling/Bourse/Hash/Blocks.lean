/-! # Messages in blocks

The common frame of the hash functions: a message is closed by a one bit, zeros and its length in
bits, cut into blocks, and folded into a state; words are read from bytes in one of two orders. -/

namespace Bourse.Hash

/-- The number that bytes spell, the most significant first. -/
def bigEndian (bs : List UInt8) : Nat := bs.foldl (fun n b => n * 256 + b.toNat) 0

/-- The last `count` bytes of a number, the most significant first. -/
def toBigEndian : (count n : Nat) → List UInt8
  | 0, _ => []
  | count + 1, n => toBigEndian count (n / 256) ++ [UInt8.ofNat (n % 256)]

/-- The first `count` pieces of `size` elements each. -/
def pieces {α : Type} (size : Nat) : (count : Nat) → List α → List (List α)
  | 0, _ => []
  | count + 1, l => l.take size :: pieces size count (l.drop size)

/-- The closed message: a one bit and as many zeros as it takes for the length, in `lengthSize`
bytes, to end a block. -/
def close (blockSize lengthSize : Nat) (lengthBytes : List UInt8) (message : List UInt8) :
    List UInt8 :=
  let used := (message.length + 1 + lengthSize) % blockSize
  let zeros := if used = 0 then 0 else blockSize - used
  message ++ 0x80 :: (List.replicate zeros 0 ++ lengthBytes)

/-- The blocks of a closed message. -/
def blocksOf (blockSize : Nat) (closed : List UInt8) : List (List UInt8) :=
  pieces blockSize (closed.length / blockSize) closed

/-- The words of a block, the most significant byte of each first. -/
def wordsBig (w : Nat) (block : List UInt8) : List (BitVec w) :=
  (pieces (w / 8) (block.length / (w / 8)) block).map fun bs => BitVec.ofNat w (bigEndian bs)

/-- The words of a block, the least significant byte of each first. -/
def wordsLittle (w : Nat) (block : List UInt8) : List (BitVec w) :=
  (pieces (w / 8) (block.length / (w / 8)) block).map fun bs =>
    BitVec.ofNat w (bigEndian bs.reverse)

/-- The bytes of a word, the most significant first. -/
def bytesBig {w : Nat} (x : BitVec w) : List UInt8 := toBigEndian (w / 8) x.toNat

/-- The bytes of a word, the least significant first. -/
def bytesLittle {w : Nat} (x : BitVec w) : List UInt8 := (bytesBig x).reverse

theorem length_toBigEndian (count n : Nat) : (toBigEndian count n).length = count := by
  induction count generalizing n with
  | zero => rfl
  | succ count ih => simp [toBigEndian, ih]

end Bourse.Hash
