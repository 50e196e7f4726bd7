import Bourse.Json.Access
import Bourse.Json.Outline
import Bourse.SortedTable

/-! # Records as JSON

A codec writes a value as JSON and reads it back. Records are objects with one entry for each field;
reading one ignores unknown entries, refuses a repeated field and takes an absent optional field as
absent. A record may also be given as an array of its fields in order. Where a record is read from a
text, the outline of its codec says which parts of the text are looked at. -/

namespace Bourse

/-- A form of values in JSON. -/
class JsonCodec (α : Type) where
  encode : α → Json
  decode? : Json → Option α
  outline : Json.Outline := .whole

namespace JsonCodec

instance : JsonCodec Json where
  encode v := v
  decode? v := some v

instance : JsonCodec String where
  encode := .str
  decode? := Json.str?

instance : JsonCodec Bool where
  encode := .bool
  decode?
    | .bool b => some b
    | _ => none

theorem int64_in_range (i : Int64) :
    -9223372036854775808 ≤ i.toInt ∧ i.toInt < 18446744073709551616 := by
  have h1 := Int64.le_toInt i
  have h2 := Int64.toInt_lt i
  omega

instance : JsonCodec Int64 where
  encode i := .num (.int ⟨i.toInt, int64_in_range i⟩)
  decode?
    | .num n => n.int64?.map Int64.ofInt
    | _ => none

/-- Decimals are texts, so that their digits stay as they are; numbers are read as well. -/
instance : JsonCodec Decimal where
  encode d := .str d.toText
  decode?
    | .str s => Decimal.ofText? s
    | .num (.int i) => Decimal.ofInt? i.val
    | .num (.float x) => Decimal.ofPlain? x.toText
    | _ => none

instance {α : Type} [JsonCodec α] : JsonCodec (Option α) where
  encode
    | some a => encode a
    | none => .null
  decode?
    | .null => some none
    | v => (decode? v).map some
  outline := outline α

instance {α : Type} [JsonCodec α] : JsonCodec (List α) where
  encode l := .arr (l.map encode)
  decode?
    | .arr items => items.mapM decode?
    | _ => none
  outline := .items (outline α)

instance {α : Type} [JsonCodec α] : JsonCodec (SortedTable α) where
  encode t := .obj (t.entries.map fun e => (e.1, encode e.2))
  decode?
    | .obj entries =>
      (entries.mapM fun e => (decode? e.2).map fun a => (e.1, a)).map SortedTable.ofList
    | _ => none
  outline := .entries (outline α)

/-! ### Named values -/

/-- The name in a value that stands for one of several names: a text, or an object whose only entry
has the name as its key and no value. -/
def name? : Json → Option String
  | .str s => some s
  | .obj [(s, .null)] => some s
  | _ => none

/-- The codec of a type whose members have names. -/
abbrev named {α : Type} (name : α → String) (ofName? : String → Option α) : JsonCodec α where
  encode a := .str (name a)
  decode? v := (name? v).bind ofName?
  outline := .entries .whole

/-! ### Fields -/

/-- The fields with these names in a value: the entries of an object, none of them twice, or the
elements of an array, as many as there are fields. -/
def fields? (names : List String) : Json → Option (Table Json)
  | .obj entries =>
    let known := entries.filter fun e => names.contains e.1
    if h : (known.map Prod.fst).Nodup then some ⟨known, h⟩ else none
  | .arr items => if items.length = names.length then some (.ofList (names.zip items)) else none
  | _ => none

/-- A field that has to be there. -/
def need {α : Type} [JsonCodec α] (t : Table Json) (key : String) : Option α :=
  (t.get? key).bind decode?

/-- A field that may be absent. -/
def optional {α : Type} [JsonCodec α] (t : Table Json) (key : String) : Option (Option α) :=
  match t.get? key with
  | some v => decode? v
  | none => some none

/-- Reads a record from a text. -/
def ofText? {α : Type} [JsonCodec α] (s : String) : Option α :=
  (Json.parseOutline? (outline α) s).bind decode?

end JsonCodec

end Bourse
