import Bourse.Json.Codec

/-! # Currencies

A currency has the venue's id and a common code. Some ids are old or local names of a code that
everyone else uses. -/

namespace Bourse

/-- A currency. -/
structure Currency where
  id : String
  code : String
  name : Option String := none
  precision : Option Decimal := none
  active : Option Bool := none
  info : Json := .null

namespace Currency

/-- Old and local names with the codes that they stand for. -/
def aliases : List (String × String) :=
  [("XBT", "BTC"), ("BCC", "BCH"), ("DRK", "DASH"), ("BCHABC", "BCH"), ("BCHSV", "BSV")]

/-- The common code of a name. -/
def commonCode (name : String) : String := (aliases.lookup name).getD name

/-- The fields in their order. -/
def fieldNames : List String := ["id", "code", "name", "precision", "active", "info"]

instance : JsonCodec Currency where
  encode c := .obj [("id", .str c.id), ("code", .str c.code), ("name", JsonCodec.encode c.name),
    ("precision", JsonCodec.encode c.precision), ("active", JsonCodec.encode c.active),
    ("info", c.info)]
  decode? v := do
    let t ← JsonCodec.fields? fieldNames v
    let id ← JsonCodec.need t "id"
    let code ← JsonCodec.need t "code"
    let name ← JsonCodec.optional t "name"
    let precision ← JsonCodec.optional t "precision"
    let active ← JsonCodec.optional t "active"
    let info ← JsonCodec.need t "info"
    return { id, code, name, precision, active, info }
  outline := .ofNames fieldNames

end Currency

end Bourse
