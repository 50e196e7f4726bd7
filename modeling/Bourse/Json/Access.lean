import Bourse.Decimal.Text
import Bourse.Decimal.OfBinary
import Bourse.Json.Printer
import Bourse.Text.Blank
import Bourse.Text.CaseMap

/-! # Reading fields of a JSON value

Venues spell the same thing as a number or as a text, leave fields out or send `null`. The readings
here take a value to a text, a number or a flag whenever it has that meaning, and a field to its
value whenever it is there and not `null`. -/

namespace Bourse

/-- The text of a binary number outside JSON: positional, and one zero only. -/
def Binary64.displayText (x : Binary64) : String := if x.isZero then "0" else x.toText

/-- The text of any number of the binary format outside JSON. -/
def Binary64.Extended.displayText : Binary64.Extended → String
  | .finite x => x.displayText
  | x => x.toText

/-- The integer toward zero, if 64 bits with a sign hold it. -/
def Binary64.int64? (x : Binary64) : Option Int :=
  if -9223372036854775808 ≤ x.trunc ∧ x.trunc < 9223372036854775808 then some x.trunc else none

namespace Json

/-! ### Readings of one value -/

/-- The text of a text, a number or a flag. -/
def scalar? : Json → Option String
  | .str s => some s
  | .num (.int i) => some (String.ofList (Text.numeral i.val))
  | .num (.float x) => some x.displayText
  | .bool b => some (if b then "true" else "false")
  | _ => none

/-- The finite binary number of a number or a text. -/
def float? : Json → Option Binary64
  | .num n => n.binary?
  | .str s => (Binary64.ofText? (Text.trim s)).bind (·.finite?)
  | _ => none

/-- The integer of a number or a text; a fraction is dropped. -/
def int? : Json → Option Int
  | .num n => n.int64?.or (n.binary?.bind (·.int64?))
  | .str s =>
    let t := Text.trim s
    (Text.signed? 64 t.toList).or (((Binary64.ofText? t).bind (·.finite?)).bind (·.int64?))
  | _ => none

/-- The decimal of a number or a text. -/
def decimal? : Json → Option Decimal
  | .num n =>
    match n.int64? with
    | some i => Decimal.ofInt? i
    | none =>
      (Decimal.ofText? (String.ofList n.jsonText)).or (n.binary?.bind Decimal.ofBinary?)
  | .str s => Decimal.ofText? (Text.trim s)
  | _ => none

/-- The flag that a value states: itself, or one of its two words in any case. -/
def flag? : Json → Option Bool
  | .bool b => some b
  | .str s =>
    if Text.eqIgnoringCase s "true" then some true
    else if Text.eqIgnoringCase s "false" then some false
    else none
  | _ => none

/-- Whether a value counts as something: not null, false, zero or empty. -/
def isTruthy : Json → Bool
  | .null => false
  | .bool b => b
  | .num n => match n.binary? with
    | some x => !x.isZero
    | none => false
  | .str s => s != ""
  | .arr items => !items.isEmpty
  | .obj entries => !entries.isEmpty

/-! ### Fields -/

/-- Where a value stands in another: under a name in an object, at a place in an array. -/
inductive Key where
  | name (s : String)
  | index (i : Nat)
  deriving DecidableEq, Repr

instance : Coe String Key := ⟨.name⟩

/-- The value at a key, `null` included. -/
def at? (v : Json) (key : Key) : Option Json :=
  match v, key with
  | .obj entries, .name s => entries.lookup s
  | .arr items, .index i => items[i]?
  | _, _ => none

/-- The value at a key if it is not `null`. -/
def get? (v : Json) (key : Key) : Option Json := (v.at? key).filter fun x => !x.isNull

/-- The text at a key. -/
def getText? (v : Json) (key : Key) : Option String := (v.get? key).bind scalar?

/-- The text at a key in lower case. -/
def getLower? (v : Json) (key : Key) : Option String := (v.getText? key).map Text.lower

/-- The text at a key in upper case. -/
def getUpper? (v : Json) (key : Key) : Option String := (v.getText? key).map Text.upper

/-- The binary number at a key. -/
def getFloat? (v : Json) (key : Key) : Option Binary64 := (v.get? key).bind float?

/-- The integer at a key. -/
def getInt? (v : Json) (key : Key) : Option Int := (v.get? key).bind int?

/-- The integer at a key as a 64-bit one; the reading admits no other. -/
def getInt64? (v : Json) (key : Key) : Option Int64 := (v.getInt? key).map Int64.ofInt

/-- The decimal at a key. -/
def getDecimal? (v : Json) (key : Key) : Option Decimal := (v.get? key).bind decimal?

/-- The flag at a key. -/
def getFlag? (v : Json) (key : Key) : Option Bool := (v.get? key).bind flag?

/-- The first of two keys that yields something under a reading. -/
def either {α : Type} (read : Json → Key → Option α) (v : Json) (key key' : Key) : Option α :=
  (read v key).or (read v key')

end Json

end Bourse
