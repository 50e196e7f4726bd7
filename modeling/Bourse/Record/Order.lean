import Bourse.Decimal.Arith
import Bourse.Json.Codec

/-! # Orders

An order as a venue reports it, and the request for one. `Order.complete` derives what the report
leaves out from what it says, in a fixed sequence; a known field is never touched. -/

namespace Bourse

/-- The side of an order. -/
inductive OrderSide where
  | buy
  | sell
  deriving DecidableEq, Repr

/-- The type of an order. -/
inductive OrderType where
  | market
  | limit
  deriving DecidableEq, Repr

/-- The state of an order. -/
inductive OrderStatus where
  | open
  | closed
  | canceled
  | canceling
  | rejected
  | failed
  deriving DecidableEq, Repr

namespace OrderSide

/-- The name of a side. -/
def name : OrderSide → String
  | .buy => "buy"
  | .sell => "sell"

/-- The side with a name. -/
def ofName? (name : String) : Option OrderSide := [buy, sell].find? fun s => s.name == name

/-- The side that a venue's word means, in any case. -/
def parse? (word : String) : Option OrderSide := ofName? (Text.lower word)

instance : JsonCodec OrderSide := JsonCodec.named name ofName?

end OrderSide

namespace OrderType

/-- The name of a type. -/
def name : OrderType → String
  | .market => "market"
  | .limit => "limit"

/-- The type with a name. -/
def ofName? (name : String) : Option OrderType := [market, limit].find? fun t => t.name == name

/-- The type that a venue's word means, in any case. -/
def parse? (word : String) : Option OrderType := ofName? (Text.lower word)

instance : JsonCodec OrderType := JsonCodec.named name ofName?

end OrderType

namespace OrderStatus

/-- The name of a state. -/
def name : OrderStatus → String
  | .open => "open"
  | .closed => "closed"
  | .canceled => "canceled"
  | .canceling => "canceling"
  | .rejected => "rejected"
  | .failed => "failed"

/-- The state with a name. -/
def ofName? (name : String) : Option OrderStatus :=
  [.open, closed, canceled, canceling, rejected, failed].find? fun s => s.name == name

instance : JsonCodec OrderStatus := JsonCodec.named name ofName?

end OrderStatus

/-- What an order costs beside its price. -/
structure Fee where
  currency : Option String
  cost : Decimal
  rate : Option Decimal
  deriving DecidableEq

namespace Fee

instance : JsonCodec Fee where
  encode f := .obj [("currency", JsonCodec.encode f.currency), ("cost", JsonCodec.encode f.cost),
    ("rate", JsonCodec.encode f.rate)]
  decode? v := do
    let t ← JsonCodec.fields? ["currency", "cost", "rate"] v
    return ⟨← JsonCodec.optional t "currency", ← JsonCodec.need t "cost",
      ← JsonCodec.optional t "rate"⟩
  outline := .ofNames ["currency", "cost", "rate"]

end Fee

/-- An order. -/
structure Order where
  id : String := ""
  clientOrderId : Option String := none
  timestamp : Option Int64 := none
  datetime : Option String := none
  lastTradeTimestamp : Option Int64 := none
  symbol : String := ""
  type : Option OrderType := none
  rawType : Option String := none
  timeInForce : Option String := none
  side : Option OrderSide := none
  price : Option Decimal := none
  average : Option Decimal := none
  amount : Option Decimal := none
  filled : Option Decimal := none
  remaining : Option Decimal := none
  cost : Option Decimal := none
  status : Option OrderStatus := none
  fee : Option Fee := none
  /-- What the venue sent. -/
  info : Json := .null

namespace Order

/-! ### Completion -/

/-- What is left of a whole: the difference, and zero where that would be negative. -/
def rest? (whole part : Option Decimal) : Option Decimal := do
  let difference ← (← whole).sub? (← part)
  return difference.max .zero

/-- The mean price: the cost over a filled amount that is not zero. -/
def mean? (cost filled : Option Decimal) : Option Decimal := do
  let f ← filled
  if f.isZero then none else (← cost).div? f

/-- The price of a filled amount. -/
def total? (price filled : Option Decimal) : Option Decimal := do
  (← price).mul? (← filled)

/-- Fills the fields that follow from others: what remains, what is filled, the mean price and the
cost, each from the fields as completed so far. -/
def complete (o : Order) : Order :=
  let remaining := o.remaining.or (rest? o.amount o.filled)
  let filled := o.filled.or (rest? o.amount remaining)
  let average := o.average.or (mean? o.cost filled)
  let cost := o.cost.or (total? (average.or o.price) filled)
  { o with remaining, filled, average, cost }

/-- Whether the order waits to be filled. -/
def isOpen (o : Order) : Bool := o.status == some .open

/-! ### JSON -/

/-- The fields in their order. -/
def fieldNames : List String := ["id", "client_order_id", "timestamp", "datetime",
  "last_trade_timestamp", "symbol", "type", "raw_type", "time_in_force", "side", "price", "average",
  "amount", "filled", "remaining", "cost", "status", "fee", "info"]

instance : JsonCodec Order where
  encode o := .obj [("id", .str o.id), ("client_order_id", JsonCodec.encode o.clientOrderId),
    ("timestamp", JsonCodec.encode o.timestamp), ("datetime", JsonCodec.encode o.datetime),
    ("last_trade_timestamp", JsonCodec.encode o.lastTradeTimestamp), ("symbol", .str o.symbol),
    ("type", JsonCodec.encode o.type), ("raw_type", JsonCodec.encode o.rawType),
    ("time_in_force", JsonCodec.encode o.timeInForce), ("side", JsonCodec.encode o.side),
    ("price", JsonCodec.encode o.price), ("average", JsonCodec.encode o.average),
    ("amount", JsonCodec.encode o.amount), ("filled", JsonCodec.encode o.filled),
    ("remaining", JsonCodec.encode o.remaining), ("cost", JsonCodec.encode o.cost),
    ("status", JsonCodec.encode o.status), ("fee", JsonCodec.encode o.fee), ("info", o.info)]
  decode? v := do
    let t ← JsonCodec.fields? fieldNames v
    let id ← JsonCodec.need t "id"
    let clientOrderId ← JsonCodec.optional t "client_order_id"
    let timestamp ← JsonCodec.optional t "timestamp"
    let datetime ← JsonCodec.optional t "datetime"
    let lastTradeTimestamp ← JsonCodec.optional t "last_trade_timestamp"
    let symbol ← JsonCodec.need t "symbol"
    let type ← JsonCodec.optional t "type"
    let rawType ← JsonCodec.optional t "raw_type"
    let timeInForce ← JsonCodec.optional t "time_in_force"
    let side ← JsonCodec.optional t "side"
    let price ← JsonCodec.optional t "price"
    let average ← JsonCodec.optional t "average"
    let amount ← JsonCodec.optional t "amount"
    let filled ← JsonCodec.optional t "filled"
    let remaining ← JsonCodec.optional t "remaining"
    let cost ← JsonCodec.optional t "cost"
    let status ← JsonCodec.optional t "status"
    let fee ← JsonCodec.optional t "fee"
    let info ← JsonCodec.need t "info"
    return { id, clientOrderId, timestamp, datetime, lastTradeTimestamp, symbol, type, rawType,
             timeInForce, side, price, average, amount, filled, remaining, cost, status, fee, info }
  outline := .ofNames fieldNames [("type", JsonCodec.outline OrderType),
    ("side", JsonCodec.outline OrderSide), ("status", JsonCodec.outline OrderStatus),
    ("fee", JsonCodec.outline Fee)]

end Order

/-- A request for an order. -/
structure OrderRequest where
  symbol : String
  type : OrderType
  side : OrderSide
  amount : Decimal
  price : Option Decimal := none
  clientOrderId : Option String := none

end Bourse
