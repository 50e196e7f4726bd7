import Bourse.Decimal.Arith
import Bourse.Error.Basic
import Bourse.Json.Access

/-! # Fields of a venue's records

Readings that most records of a venue need: a text without which there is no record, a list, and
numbers that have to be of some kind to count. -/

namespace Bourse

namespace Json

/-- The text of a field that a record has to have. -/
def needText (v : Json) (key : String) : Result String :=
  match v.getText? key with
  | some s => .ok s
  | none => .error (.payload (.missingField key))

/-- The elements of the list under a key; without a list there are none. -/
def list (v : Json) (key : String) : List Json := ((v.at? key).bind items?).getD []

/-- Whether the text of a field is this one. -/
def hasText (v : Json) (key text : String) : Bool := v.getText? key == some text

/-- The decimal of a field without trailing fraction zeros. -/
def step? (v : Json) (key : String) : Option Decimal := (v.getDecimal? key).map Decimal.normalize

/-- The decimal of a field if it is above zero. -/
def positive? (v : Json) (key : String) : Option Decimal :=
  (v.getDecimal? key).filter fun d => !d.negative && !d.isZero

/-- The decimal of a field if it is not zero. -/
def nonzero? (v : Json) (key : String) : Option Decimal :=
  (v.getDecimal? key).filter fun d => !d.isZero

/-- The text of a field if it is not empty. -/
def filled? (v : Json) (key : String) : Option String := (v.getText? key).filter (· != "")

end Json

/-- The tick of a number of fraction digits, if a decimal can hold it. -/
def Decimal.tick? (digits : Int) : Option Decimal :=
  if 0 ≤ digits ∧ digits ≤ maxScale then some (tick digits.toNat) else none

end Bourse
