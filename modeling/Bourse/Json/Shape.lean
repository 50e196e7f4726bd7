import Bourse.Json.Access

/-! # The shape of JSON values

Counting, indexing and combining: operations on arrays and objects as collections. -/

namespace Bourse.Json

/-- How many elements or entries a value has. -/
def length : Json → Nat
  | .arr items => items.length
  | .obj entries => entries.length
  | _ => 0

/-- The records in a list or a map. -/
def records : Json → List Json
  | .arr items => items
  | .obj entries => entries.map Prod.snd
  | _ => []

/-- The records under the text that each has at `key`; of records with one text the last stays, in
the place of the first. Records without such a text are left out. -/
def indexBy (v : Json) (key : String) : Table Json :=
  v.records.foldl (fun t r =>
    match r.getText? key with
    | some id => t.put id r
    | none => t) .empty

/-- The entries of both objects; those of the second win. -/
def extend (base other : Json) : Table Json := base.table.putAll other.table.entries

/-- The entries whose key is not among `keys`. -/
def without (v : Json) (keys : List String) : Table Json := keys.foldl Table.erase v.table

end Bourse.Json
