import Bourse.Json.Codec

/-! # Markets

A pair of currencies that a venue trades, with the precision and the limits of its orders. -/

namespace Bourse

/-- What is traded on a market. -/
inductive MarketKind where
  | spot
  | future
  | swap
  | option
  deriving DecidableEq, Repr

namespace MarketKind

/-- The name of a kind. -/
def name : MarketKind → String
  | .spot => "spot"
  | .future => "future"
  | .swap => "swap"
  | .option => "option"

/-- The kind with a name. -/
def ofName? (name : String) : Option MarketKind :=
  [spot, future, swap, option].find? fun k => k.name == name

instance : JsonCodec MarketKind := JsonCodec.named name ofName?

end MarketKind

/-- Bounds of a quantity, as far as there are any. -/
structure Bounds where
  min : Option Decimal := none
  max : Option Decimal := none
  deriving DecidableEq

namespace Bounds

instance : JsonCodec Bounds where
  encode b := .obj [("min", JsonCodec.encode b.min), ("max", JsonCodec.encode b.max)]
  decode? v := do
    let t ← JsonCodec.fields? ["min", "max"] v
    return ⟨← JsonCodec.optional t "min", ← JsonCodec.optional t "max"⟩
  outline := .ofNames ["min", "max"]

end Bounds

/-- How fine the numbers of a market may be, in the venue's way of stating precision. -/
structure MarketPrecision where
  amount : Option Decimal := none
  price : Option Decimal := none
  cost : Option Decimal := none
  base : Option Decimal := none
  quote : Option Decimal := none
  deriving DecidableEq

namespace MarketPrecision

/-- The fields in their order. -/
def fieldNames : List String := ["amount", "price", "cost", "base", "quote"]

instance : JsonCodec MarketPrecision where
  encode p := .obj [("amount", JsonCodec.encode p.amount), ("price", JsonCodec.encode p.price),
    ("cost", JsonCodec.encode p.cost), ("base", JsonCodec.encode p.base),
    ("quote", JsonCodec.encode p.quote)]
  decode? v := do
    let t ← JsonCodec.fields? fieldNames v
    let amount ← JsonCodec.optional t "amount"
    let price ← JsonCodec.optional t "price"
    let cost ← JsonCodec.optional t "cost"
    let base ← JsonCodec.optional t "base"
    let quote ← JsonCodec.optional t "quote"
    return { amount, price, cost, base, quote }
  outline := .ofNames fieldNames

end MarketPrecision

/-- The bounds of orders on a market. -/
structure MarketLimits where
  amount : Bounds := {}
  price : Bounds := {}
  cost : Bounds := {}
  deriving DecidableEq

namespace MarketLimits

instance : JsonCodec MarketLimits where
  encode l := .obj [("amount", JsonCodec.encode l.amount), ("price", JsonCodec.encode l.price),
    ("cost", JsonCodec.encode l.cost)]
  decode? v := do
    let t ← JsonCodec.fields? ["amount", "price", "cost"] v
    return ⟨← JsonCodec.need t "amount", ← JsonCodec.need t "price", ← JsonCodec.need t "cost"⟩
  outline := .ofNames ["amount", "price", "cost"]
    (["amount", "price", "cost"].map fun name => (name, JsonCodec.outline Bounds))

end MarketLimits

/-- A market. Ids are the venue's own names, codes and the symbol the common ones. -/
structure Market where
  id : String := ""
  symbol : String := ""
  base : String := ""
  quote : String := ""
  baseId : String := ""
  quoteId : String := ""
  settle : Option String := none
  kind : MarketKind := .spot
  spot : Bool := false
  future : Bool := false
  swap : Bool := false
  option : Bool := false
  active : Bool := false
  precision : MarketPrecision := {}
  limits : MarketLimits := {}
  maker : Option Decimal := none
  taker : Option Decimal := none
  /-- What the venue sent. -/
  info : Json := .null

namespace Market

/-- The common name of a pair. -/
def symbolOf (base quote : String) : String := base ++ "/" ++ quote

/-- An active spot market whose ids are its codes. -/
def ofPair (id base quote : String) : Market :=
  { id, symbol := symbolOf base quote, base, quote, baseId := base, quoteId := quote
    kind := .spot, spot := true, active := true }

/-- The market as one of another kind; exactly the flag of the kind is set. -/
def withKind (m : Market) (kind : MarketKind) : Market :=
  { m with
    kind
    spot := kind == .spot
    future := kind == .future
    swap := kind == .swap
    option := kind == .option }

/-- Whether contracts are traded. -/
def isContract (m : Market) : Bool := m.future || m.swap || m.option

/-- The fields in their order. -/
def fieldNames : List String := ["id", "symbol", "base", "quote", "base_id", "quote_id", "settle",
  "type", "spot", "future", "swap", "option", "active", "precision", "limits", "maker", "taker",
  "info"]

instance : JsonCodec Market where
  encode m := .obj [("id", .str m.id), ("symbol", .str m.symbol), ("base", .str m.base),
    ("quote", .str m.quote), ("base_id", .str m.baseId), ("quote_id", .str m.quoteId),
    ("settle", JsonCodec.encode m.settle), ("type", JsonCodec.encode m.kind),
    ("spot", .bool m.spot), ("future", .bool m.future), ("swap", .bool m.swap),
    ("option", .bool m.option), ("active", .bool m.active),
    ("precision", JsonCodec.encode m.precision), ("limits", JsonCodec.encode m.limits),
    ("maker", JsonCodec.encode m.maker), ("taker", JsonCodec.encode m.taker), ("info", m.info)]
  decode? v := do
    let t ← JsonCodec.fields? fieldNames v
    let id ← JsonCodec.need t "id"
    let symbol ← JsonCodec.need t "symbol"
    let base ← JsonCodec.need t "base"
    let quote ← JsonCodec.need t "quote"
    let baseId ← JsonCodec.need t "base_id"
    let quoteId ← JsonCodec.need t "quote_id"
    let settle ← JsonCodec.optional t "settle"
    let kind ← JsonCodec.need t "type"
    let spot ← JsonCodec.need t "spot"
    let future ← JsonCodec.need t "future"
    let swap ← JsonCodec.need t "swap"
    let option ← JsonCodec.need t "option"
    let active ← JsonCodec.need t "active"
    let precision ← JsonCodec.need t "precision"
    let limits ← JsonCodec.need t "limits"
    let maker ← JsonCodec.optional t "maker"
    let taker ← JsonCodec.optional t "taker"
    let info ← JsonCodec.need t "info"
    return { id, symbol, base, quote, baseId, quoteId, settle, kind, spot, future, swap, option,
             active, precision, limits, maker, taker, info }
  outline := .ofNames fieldNames [("type", JsonCodec.outline MarketKind),
    ("precision", JsonCodec.outline MarketPrecision), ("limits", JsonCodec.outline MarketLimits)]

end Market

end Bourse
