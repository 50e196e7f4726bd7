import Bourse.Binary64.Shortest
import Bourse.Text.Cut

/-! # Binary numbers as text

Reading takes an optional sign, digits with at most one point and an optional exponent, or the words
for the infinities and the not-a-number, and rounds to the nearest number of the format. Printing is
positional and uses the fewest digits that read back. -/

namespace Bourse.Binary64

/-- The number nearest to `± m · 10 ^ e`. An exponent far beyond the format is settled by its size
alone, so that no power of it has to be formed. -/
def ofDecimal (negative : Bool) (m : Nat) (e : Int) : Extended :=
  let lead := ((Text.digits m).length : Int) + e
  if m = 0 ∨ lead < -330 then .finite { zero with negative }
  else if 310 < lead then .infinite negative
  else ofRatio negative (m * tenTo e.toNat) (tenTo (-e).toNat)

/-- An unsigned decimal number: digits with at most one point, at least one of them, and perhaps an
exponent. The result is a coefficient and a power of ten. -/
def scientific? (cs : List Char) : Option (Nat × Int) := do
  let whole := cs.takeWhile Char.isDigit
  let rest := cs.dropWhile Char.isDigit
  let (fraction, rest) := match rest with
    | '.' :: more => (more.takeWhile Char.isDigit, more.dropWhile Char.isDigit)
    | _ => ([], rest)
  let m ← Text.natural? (whole ++ fraction)
  let e ← match rest with
    | [] => some 0
    | c :: power => if c = 'e' ∨ c = 'E' then Text.integer? power else none
  return (m, e - fraction.length)

/-- The sign in front of a number, and the rest. -/
def takeSign : List Char → Bool × List Char
  | '-' :: cs => (true, cs)
  | '+' :: cs => (false, cs)
  | cs => (false, cs)

/-- Reads a number of the format. -/
def ofText? (s : String) : Option Extended :=
  let (negative, body) := takeSign s.toList
  let word := body.map Char.toLower
  if word = "inf".toList ∨ word = "infinity".toList then some (.infinite negative)
  else if word = "nan".toList then some .nan
  else (scientific? body).map fun (m, e) => ofDecimal negative m e

/-! ### Printing -/

/-- The digits with the point in its place: zeros fill up on either side, and a whole number has no
point. -/
def Digits.positional (d : Digits) : List Char :=
  if d.point ≤ 0 then
    if d.digits = [] then ['0']
    else '0' :: '.' :: (List.replicate (-d.point).toNat '0' ++ d.digits)
  else
    let n := d.point.toNat
    if d.digits.length ≤ n then d.digits ++ List.replicate (n - d.digits.length) '0'
    else d.digits.take n ++ '.' :: d.digits.drop n

/-- The sign of a negative number, negative zero included. -/
def signText (x : Binary64) : List Char := if x.negative then ['-'] else []

/-- The number in positional notation, however large or small. -/
def toText (x : Binary64) : String :=
  String.ofList (signText x ++ (shortest .up x).positional)

/-- Any number of the format in positional notation. -/
def Extended.toText : Extended → String
  | .finite x => x.toText
  | .infinite negative => if negative then "-inf" else "inf"
  | .nan => "NaN"

end Bourse.Binary64
