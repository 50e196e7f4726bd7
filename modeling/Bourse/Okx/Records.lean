import Bourse.Record.Balance
import Bourse.Record.Currency
import Bourse.Record.Field
import Bourse.Record.Market
import Bourse.Record.Order
import Bourse.Record.OrderBook

/-! # Records of OKX

How markets, orders, books and balances of OKX read. Every answer of the venue is an envelope with a
list of records under `data`. -/

namespace Bourse.Okx

/-! ### Envelopes -/

/-- The records of an answer. -/
def records (answer : Json) : Result (List Json) :=
  match (answer.at? "data").bind Json.items? with
  | some items => .ok items
  | none => .error (.make .badResponse "okx response has no data array")

/-- The first record of an answer. -/
def firstRecord (answer : Json) : Result Json := do
  match ← records answer with
  | item :: _ => return item
  | [] => .error (.make .badResponse "okx response data is empty")

/-! ### Markets -/

/-- Reads a market. What is not traded for spot is none. -/
def readMarket (raw : Json) : Result (Option Market) := do
  if !raw.hasText "instType" "SPOT" then return none
  let id ← raw.needText "instId"
  let baseId ← raw.needText "baseCcy"
  let quoteId ← raw.needText "quoteCcy"
  return some { Market.ofPair id (Currency.commonCode baseId) (Currency.commonCode quoteId) with
    baseId, quoteId
    active := raw.hasText "state" "live"
    precision := { price := raw.step? "tickSz", amount := raw.step? "lotSz" }
    limits := { amount := ⟨raw.getDecimal? "minSz", raw.getDecimal? "maxLmtSz"⟩ }
    info := raw }

/-! ### Orders -/

/-- The state that a word of the venue means. -/
def status? : String → Option OrderStatus
  | "live" | "partially_filled" => some .open
  | "filled" => some .closed
  | "canceled" | "mmp_canceled" => some .canceled
  | _ => none

/-- The fee of an order; the venue states what it takes with a minus sign. -/
def fee? (raw : Json) : Option Fee :=
  (raw.getDecimal? "fee").map fun cost =>
    { currency := (raw.filled? "feeCcy").map Currency.commonCode, cost := cost.abs, rate := none }

/-- Reads an order. -/
def readOrder (raw : Json) (market : Option Market) : Result Order := do
  let id ← raw.needText "ordId"
  let timestamp := raw.getInt64? "cTime"
  let rawType := raw.getText? "ordType"
  let order : Order :=
    { id
      clientOrderId := raw.filled? "clOrdId"
      timestamp
      datetime := timestamp.bind fun t => Iso8601.render? t.toInt
      lastTradeTimestamp := Json.either Json.getInt64? raw "fillTime" "uTime"
      symbol := (market.map (·.symbol)).getD ((raw.getText? "instId").getD "")
      type := rawType.bind OrderType.parse?
      rawType
      side := (raw.getText? "side").bind OrderSide.parse?
      price := raw.getDecimal? "px"
      average := raw.nonzero? "avgPx"
      amount := raw.getDecimal? "sz"
      filled := raw.getDecimal? "accFillSz"
      status := (raw.getText? "state").bind status?
      fee := fee? raw
      info := raw }
  return order.complete

/-! ### Books and balances -/

/-- Reads a book. -/
def readBook (answer : Json) (symbol : String) : Result OrderBook := do
  let raw ← firstRecord answer
  return OrderBook.parse raw symbol (raw.getInt64? "ts") "bids" "asks" (.index 0) (.index 1)

/-- The currency and the amounts of a detail. -/
def detail? (raw : Json) : Option (String × BalanceEntry) :=
  (raw.getText? "ccy").map fun code =>
    (Currency.commonCode code,
      { free := raw.getDecimal? "availBal", used := raw.getDecimal? "frozenBal"
        total := raw.getDecimal? "eq" })

/-- Reads a balance. -/
def readBalance (answer : Json) : Result Balance := do
  let raw ← firstRecord answer
  return ((raw.list "details").filterMap detail?).foldl (fun b e => b.set e.1 e.2)
    { timestamp := raw.getInt64? "uTime", info := answer }

end Bourse.Okx
