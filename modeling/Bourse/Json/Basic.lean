import Bourse.Binary64.Text
import Bourse.Table

/-! # JSON values

Values as they arrive from and go to a venue. A number is a whole number of 64 bits, signed or
unsigned, or a finite binary number; an object keeps its entries in order of arrival. -/

namespace Bourse

/-- The whole numbers of 64 bits, signed or unsigned. -/
structure WordInt where
  val : Int
  in_range : -9223372036854775808 ≤ val ∧ val < 18446744073709551616
  deriving DecidableEq

/-- The integer as a 64-bit number, if it is one. -/
def WordInt.ofInt? (i : Int) : Option WordInt :=
  if h : -9223372036854775808 ≤ i ∧ i < 18446744073709551616 then some ⟨i, h⟩ else none

/-- A number in a JSON value. -/
inductive JsonNumber where
  | int (i : WordInt)
  | float (x : Binary64)
  deriving DecidableEq

/-- A JSON value. -/
inductive Json where
  | null
  | bool (b : Bool)
  | num (n : JsonNumber)
  | str (s : String)
  | arr (items : List Json)
  | obj (entries : List (String × Json))

instance : Inhabited Json := ⟨.null⟩

namespace JsonNumber

/-- The number if it is whole by type and fits 64 bits with a sign. -/
def int64? : JsonNumber → Option Int
  | .int i => if i.val < 9223372036854775808 then some i.val else none
  | .float _ => none

/-- The number in binary floating point. -/
def binary? : JsonNumber → Option Binary64
  | .int i => (Binary64.ofInt i.val).finite?
  | .float x => some x

end JsonNumber

namespace Json

/-- A whole number that is known to fit. -/
def ofNat (n : Nat) (h : n < 18446744073709551616 := by decide) : Json :=
  .num (.int ⟨n, by constructor <;> omega⟩)

/-- A whole number as a value; out of the 64-bit ranges there is none but `null`. -/
def ofInt (i : Int) : Json :=
  match WordInt.ofInt? i with
  | some w => .num (.int w)
  | none => .null

/-- The value of an absent or present text. -/
def ofText? : Option String → Json
  | some s => .str s
  | none => .null

/-- The object with the entries of a table. -/
def ofTable (t : Table Json) : Json := .obj t.entries

/-- Whether the value is `null`. -/
def isNull : Json → Bool
  | .null => true
  | _ => false

/-- The entries of an object as a table; any other value has none. -/
def table : Json → Table Json
  | .obj entries => .ofList entries
  | _ => .empty

/-- The elements, if the value is an array. -/
def items? : Json → Option (List Json)
  | .arr items => some items
  | _ => none

/-- The text, if the value is one. -/
def str? : Json → Option String
  | .str s => some s
  | _ => none

end Json

end Bourse
