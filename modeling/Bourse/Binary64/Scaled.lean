import Bourse.Binary64.Basic
import Bourse.Text.Numeral

/-! # Binary numbers from words and powers of ten

A short way to read a decimal number: as many of its digits as fit a word of 64 bits become a binary
number, which is then multiplied with or divided by a power of ten. Each of these steps rounds, so
that the result can differ in its last bits from the number nearest to the one that was written. -/

namespace Bourse.Binary64

/-- The product, rounded. -/
def mul (a b : Binary64) : Extended :=
  ofRatio (a.negative != b.negative) (a.num * b.num) (a.den * b.den)

/-- The quotient by a number that is not zero, rounded. -/
def div (a b : Binary64) : Extended :=
  ofRatio (a.negative != b.negative) (a.num * b.den) (a.den * b.num)

/-- The largest power of ten in one step. -/
def maxTenPower : Nat := 308

/-- The number nearest to `10 ^ n`, for `n` up to `maxTenPower`. -/
def tenPower (n : Nat) : Binary64 := (ofRatio false (tenTo n) 1).finite?.getD zero

/-- The number times `10 ^ n`, if that is finite. -/
def timesTen? (x : Binary64) (n : Nat) : Option Binary64 :=
  if n ≤ maxTenPower then (x.mul (tenPower n)).finite?
  else if x.isZero then some x
  else none

/-- Divides by the largest power of ten up to `n` times, as long as something is left. -/
def shrink? : (n : Nat) → Binary64 → Option Binary64
  | 0, x => some x
  | n + 1, x =>
    if x.isZero then some x else (x.div (tenPower maxTenPower)).finite?.bind (shrink? n)

/-- The number over `10 ^ n`, by the largest power as often as it takes and the rest at the end. -/
def overTen? (x : Binary64) (n : Nat) : Option Binary64 :=
  let steps := (n - 1) / maxTenPower
  (shrink? steps x).bind fun y => (y.div (tenPower (n - steps * maxTenPower))).finite?

/-- The number `± m · 10 ^ e`, if it is finite. -/
def ofScaled? (negative : Bool) (m : Nat) (e : Int) : Option Binary64 :=
  ((ofInt m).finite?.bind fun x =>
    if 0 ≤ e then x.timesTen? e.toNat else x.overTen? (-e).toNat).map fun x => { x with negative }

/-! ### Digits -/

/-- Reads digits behind the number `n` as far as a word of 64 bits has room: the number and the
digits that are left. -/
def takeWord (n : Nat) : List Char → Nat × List Char
  | [] => (n, [])
  | c :: cs =>
    let next := n * 10 + (c.toNat - '0'.toNat)
    if next < twoTo 64 then takeWord next cs else (n, c :: cs)

/-- The number with these digits before and behind its point, times a power of ten, if it is finite.
Digits that have no room in the word count as places before the point and for nothing behind it. -/
def ofDigits? (negative : Bool) (whole fraction : List Char) (power : Int) : Option Binary64 :=
  let (m, dropped) := takeWord 0 whole
  let (m, ignored) := takeWord m fraction
  ofScaled? negative m (power + dropped.length - (fraction.length - ignored.length : Nat))

end Bourse.Binary64
