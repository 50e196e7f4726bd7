import Bourse.Record.Balance
import Bourse.Record.Currency
import Bourse.Record.Field
import Bourse.Record.Market
import Bourse.Record.Order
import Bourse.Record.OrderBook

/-! # Records of Binance

How markets, orders, books and balances of Binance read. The precision of a market is told by ticks
and steps inside its filters, the latest filter of a kind counting. -/

namespace Bourse.Binance

/-- The state that a word of the venue means. -/
def status? : String → Option OrderStatus
  | "NEW" | "PARTIALLY_FILLED" => some .open
  | "FILLED" => some .closed
  | "CANCELED" => some .canceled
  | "PENDING_CANCEL" => some .canceling
  | "REJECTED" => some .rejected
  | "EXPIRED" | "EXPIRED_IN_MATCH" => some .failed
  | _ => none

/-! ### Markets -/

/-- What the filters of a market say. -/
structure Filters where
  precision : MarketPrecision
  limits : MarketLimits := {}

/-- Adds what one filter says. -/
def Filters.add (f : Filters) (filter : Json) : Filters :=
  match filter.getText? "filterType" with
  | some "PRICE_FILTER" =>
    { f with
      precision.price := filter.step? "tickSize"
      limits.price := ⟨filter.positive? "minPrice", filter.positive? "maxPrice"⟩ }
  | some "LOT_SIZE" =>
    { f with
      precision.amount := filter.step? "stepSize"
      limits.amount := ⟨filter.positive? "minQty", filter.positive? "maxQty"⟩ }
  | some "MIN_NOTIONAL" | some "NOTIONAL" =>
    { f with limits.cost.min := filter.positive? "minNotional" }
  | _ => f

/-- The precision and the limits of a market. -/
def readFilters (raw : Json) : Filters :=
  (raw.list "filters").foldl Filters.add
    { precision :=
        { base := (raw.getInt? "baseAssetPrecision").bind Decimal.tick?
          quote := (Json.either Json.getInt? raw "quoteAssetPrecision" "quotePrecision").bind
            Decimal.tick? } }

/-- Reads a market. What cannot be traded for spot is none. -/
def readMarket (raw : Json) : Result (Option Market) := do
  if raw.getFlag? "isSpotTradingAllowed" == some false then return none
  let id ← raw.needText "symbol"
  let baseId ← raw.needText "baseAsset"
  let quoteId ← raw.needText "quoteAsset"
  let filters := readFilters raw
  return some { Market.ofPair id (Currency.commonCode baseId) (Currency.commonCode quoteId) with
    baseId, quoteId
    active := raw.hasText "status" "TRADING"
    precision := filters.precision
    limits := filters.limits
    info := raw }

/-! ### Orders -/

/-- Reads an order. A price of zero is that of a market order and counts as none. -/
def readOrder (raw : Json) (market : Option Market) : Result Order := do
  let id ← raw.needText "orderId"
  let timestamp := Json.either Json.getInt64? raw "time" "transactTime"
  let rawType := raw.getText? "type"
  let order : Order :=
    { id
      clientOrderId := raw.getText? "clientOrderId"
      timestamp
      datetime := timestamp.bind fun t => Iso8601.render? t.toInt
      lastTradeTimestamp := raw.getInt64? "updateTime"
      symbol := (market.map (·.symbol)).getD ((raw.getText? "symbol").getD "")
      type := rawType.bind OrderType.parse?
      rawType
      timeInForce := raw.getText? "timeInForce"
      side := (raw.getText? "side").bind OrderSide.parse?
      price := raw.nonzero? "price"
      amount := raw.getDecimal? "origQty"
      filled := raw.getDecimal? "executedQty"
      cost := raw.getDecimal? "cummulativeQuoteQty"
      status := (raw.getText? "status").bind status?
      info := raw }
  return order.complete

/-! ### Books and balances -/

/-- Reads a book. Books carry no time, so theirs is that of the reading. -/
def readBook (raw : Json) (symbol : String) (now : Instant) : OrderBook :=
  { OrderBook.parse raw symbol (some (Int64.ofInt now)) "bids" "asks" (.index 0) (.index 1) with
    nonce := raw.getInt64? "lastUpdateId" }

/-- The currency and the amounts of an asset. -/
def asset? (raw : Json) : Option (String × BalanceEntry) :=
  (raw.getText? "asset").map fun code =>
    (Currency.commonCode code, { free := raw.getDecimal? "free", used := raw.getDecimal? "locked" })

/-- Reads a balance. -/
def readBalance (raw : Json) : Balance :=
  ((raw.list "balances").filterMap asset?).foldl (fun b e => b.set e.1 e.2)
    { timestamp := raw.getInt64? "updateTime", info := raw }

end Bourse.Binance
