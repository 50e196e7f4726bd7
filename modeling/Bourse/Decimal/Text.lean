import Bourse.Decimal.Arith
import Bourse.Text.Cut

/-! # Reading decimals

A plain numeral is an optional sign and digits with at most one point; underscores may follow a
digit. Fraction digits beyond the capacity of a decimal are rounded off, a half up, on the first of
them alone; only digits and underscores may stand there. In scientific notation a whole exponent
moves the point of a plain numeral. -/

namespace Bourse.Decimal

/-- What has been read of a numeral without its sign. -/
structure Scan where
  coefficient : Nat
  scale : Nat
  /-- Whether the point has been passed. -/
  point : Bool
  /-- Whether a digit has been read. -/
  digit : Bool

/-- Ends a numeral whose next digit has no room. If rounding up overflows the coefficient, one more
digit is given up. -/
def Scan.roundOff (st : Scan) (next : Nat) : Option (Nat × Nat) :=
  if next < 5 then some (st.coefficient, st.scale)
  else if st.coefficient + 1 < limit then some (st.coefficient + 1, st.scale)
  else if st.scale = 0 then none
  else some ((st.coefficient + 5) / 10, st.scale - 1)

/-- Whether all fraction digits have been read that a decimal can hold. -/
def Scan.isFull (st : Scan) : Bool := st.point && maxScale ≤ st.scale

/-- Whether the coefficient was below `1844674407370954906` before its last digit. -/
def Scan.isSmall (st : Scan) : Bool := st.coefficient / 10 < 1844674407370954906

/-- Ends a numeral before fraction digits that have no room. An underscore ahead of them is passed
over, but behind a small coefficient it cuts them off. -/
def Scan.finish (st : Scan) (rest : List Char) : Option (Nat × Nat) :=
  if rest.all fun c => c.isDigit || c == '_' then
    if st.isSmall && rest.head? == some '_' then some (st.coefficient, st.scale)
    else
      match rest.findSome? Text.digit? with
      | some d => st.roundOff d
      | none => some (st.coefficient, st.scale)
  else none

/-- Reads the rest of a numeral: coefficient and scale. -/
def scanFrom (st : Scan) : List Char → Option (Nat × Nat)
  | [] => if st.digit then some (st.coefficient, st.scale) else none
  | c :: cs =>
    if st.isFull then st.finish (c :: cs)
    else
      match Text.digit? c with
      | some d =>
        let next := st.coefficient * 10 + d
        if next < limit then
          scanFrom { st with
            coefficient := next
            scale := if st.point then st.scale + 1 else 0
            digit := true } cs
        else if st.point then st.finish (c :: cs)
        else none
      | none =>
        if c = '.' then if st.point then none else scanFrom { st with point := true } cs
        else if c = '_' ∧ st.digit then scanFrom st cs
        else none

/-- A decimal from the sign and the digits of a text. -/
def ofScan? (negative : Bool) (cs : List Char) : Option Decimal := do
  let (coefficient, scale) ← scanFrom ⟨0, 0, false, false⟩ cs
  make? negative coefficient scale

/-- Reads a plain numeral. -/
def ofPlain? (s : String) : Option Decimal :=
  match s.toList with
  | '-' :: cs => ofScan? true cs
  | '+' :: cs => ofScan? false cs
  | cs => ofScan? false cs

/-- Moves the point of a number `n` places to the left or, if `up` is set, to the right. Fraction
digits that come to stand behind the last place are rounded off, a half up, and the sign stays even
if only zeros are left; to the right the scale shrinks as long as it can and the coefficient grows
then. -/
def movePoint? (d : Decimal) (up : Bool) (n : Nat) : Option Decimal :=
  if up then
    if n ≤ d.scale then d.withScale? (d.scale - n)
    else if maxScale < n then none
    else make? d.negative (d.coefficient * tenTo (n - d.scale)) 0
  else if maxScale < n then none
  else
    let kept := d.roundPlaces .halfAway (maxScale - n)
    kept.withScale? (kept.scale + n)

/-- Whether a character begins an exponent. -/
def isExponentMark (c : Char) : Bool := c == 'e' || c == 'E'

/-- Reads a numeral with an exponent. -/
def ofScientific? (s : String) : Option Decimal := do
  let base := s.toList.takeWhile fun c => !isExponentMark c
  let _ :: power := s.toList.dropWhile fun c => !isExponentMark c | none
  let d ← ofPlain? (String.ofList base)
  match power with
  | '-' :: digits => movePoint? d false (← Text.unsigned? 32 digits)
  | digits => movePoint? d true (← Text.unsigned? 32 digits)

/-- Reads a numeral, plain or scientific. -/
def ofText? (s : String) : Option Decimal := (ofPlain? s).or (ofScientific? s)

end Bourse.Decimal
