import Bourse.Decimal.Arith
import Bourse.Json.Codec
import Bourse.Time.Iso8601

/-! # Order books

The offers on both sides of a market, the best first. Offers of one price keep the order in which
they arrived, since the sort is stable. -/

namespace Bourse

/-- An offer: a price and an amount. -/
structure BookLevel where
  price : Decimal
  amount : Decimal
  deriving DecidableEq

namespace BookLevel

instance : JsonCodec BookLevel where
  encode l := .obj [("price", JsonCodec.encode l.price), ("amount", JsonCodec.encode l.amount)]
  decode? v := do
    let t ← JsonCodec.fields? ["price", "amount"] v
    return ⟨← JsonCodec.need t "price", ← JsonCodec.need t "amount"⟩
  outline := .ofNames ["price", "amount"]

/-- The level in a record, if both of its numbers can be read. -/
def read? (priceKey amountKey : Json.Key) (v : Json) : Option BookLevel := do
  return ⟨← v.getDecimal? priceKey, ← v.getDecimal? amountKey⟩

end BookLevel

/-- An order book. -/
structure OrderBook where
  symbol : String := ""
  timestamp : Option Int64 := none
  datetime : Option String := none
  nonce : Option Int64 := none
  bids : List BookLevel := []
  asks : List BookLevel := []

namespace OrderBook

/-- The readable levels of one side; a side that is no list is empty. -/
def side (priceKey amountKey : Json.Key) (v : Option Json) : List BookLevel :=
  match v with
  | some (.arr levels) => levels.filterMap (BookLevel.read? priceKey amountKey)
  | _ => []

/-- Bids in the order of descending prices. -/
def sortBids (levels : List BookLevel) : List BookLevel :=
  levels.mergeSort fun a b => decide (b.price ≤ a.price)

/-- Asks in the order of ascending prices. -/
def sortAsks (levels : List BookLevel) : List BookLevel :=
  levels.mergeSort fun a b => decide (a.price ≤ b.price)

/-- Reads a book from a payload. -/
def parse (raw : Json) (symbol : String) (timestamp : Option Int64) (bidsKey asksKey : String)
    (priceKey amountKey : Json.Key) : OrderBook :=
  { symbol, timestamp
    datetime := timestamp.bind fun t => Iso8601.render? t.toInt
    bids := sortBids (side priceKey amountKey (raw.get? bidsKey))
    asks := sortAsks (side priceKey amountKey (raw.get? asksKey)) }

/-- The best bid. -/
def bestBid? (b : OrderBook) : Option BookLevel := b.bids.head?

/-- The best ask. -/
def bestAsk? (b : OrderBook) : Option BookLevel := b.asks.head?

/-- How far the best offers lie apart. -/
def spread? (b : OrderBook) : Option Decimal := do
  let bid ← b.bestBid?
  let ask ← b.bestAsk?
  ask.price.sub? bid.price

/-- The book with at most `depth` levels on each side. -/
def limit (b : OrderBook) (depth : Nat) : OrderBook :=
  { b with bids := b.bids.take depth, asks := b.asks.take depth }

/-- The fields in their order. -/
def fieldNames : List String := ["symbol", "timestamp", "datetime", "nonce", "bids", "asks"]

instance : JsonCodec OrderBook where
  encode b := .obj [("symbol", .str b.symbol), ("timestamp", JsonCodec.encode b.timestamp),
    ("datetime", JsonCodec.encode b.datetime), ("nonce", JsonCodec.encode b.nonce),
    ("bids", JsonCodec.encode b.bids), ("asks", JsonCodec.encode b.asks)]
  decode? v := do
    let t ← JsonCodec.fields? fieldNames v
    let symbol ← JsonCodec.need t "symbol"
    let timestamp ← JsonCodec.optional t "timestamp"
    let datetime ← JsonCodec.optional t "datetime"
    let nonce ← JsonCodec.optional t "nonce"
    let bids ← JsonCodec.need t "bids"
    let asks ← JsonCodec.need t "asks"
    return { symbol, timestamp, datetime, nonce, bids, asks }
  outline := .ofNames fieldNames
    [("bids", JsonCodec.outline (List BookLevel)), ("asks", JsonCodec.outline (List BookLevel))]

end OrderBook

end Bourse
