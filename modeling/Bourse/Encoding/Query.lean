import Bourse.Encoding.Percent
import Bourse.Json.Access
import Bourse.Text.Cut

/-! # Query strings

Parameters as `key=value` parts with `&` between them, keys in ascending order. A `null` parameter
is left out; lists and objects are written as JSON. `Query.encode` encodes both sides of each part,
`Query.raw` leaves them as they are, and `Query.decode?` takes an encoded string apart. -/

namespace Bourse.Query

/-- The text of a parameter, if it is sent at all. -/
def valueText? (v : Json) : Option String :=
  match v with
  | .null => none
  | .arr _ | .obj _ => some v.compact
  | scalar => scalar.scalar?

/-- The keys and texts of the parameters that are sent, by ascending key. -/
def pairs (params : Table Json) : List (String × String) :=
  params.sorted.filterMap fun (key, v) => (valueText? v).map fun t => (key, t)

/-- A query string under an encoding of texts. -/
def write (encodeText : String → String) (params : Table Json) : String :=
  "&".intercalate ((pairs params).map fun (key, t) => encodeText key ++ "=" ++ encodeText t)

/-- The query string with percent encoding. -/
def encode (params : Table Json) : String := write Percent.encode params

/-- The query string with all texts as they are. -/
def raw (params : Table Json) : String := write id params

/-- The keys and texts in an encoded query string: parts at `&`, sides at the first `=`. -/
def decode? (s : String) : Option (List (String × String)) :=
  if s = "" then some []
  else
    (Text.splitAll '&' s.toList).mapM fun part => do
      let (key, value) ← Text.splitOnce '=' part
      return (← Percent.decode? (String.ofList key), ← Percent.decode? (String.ofList value))

end Bourse.Query
