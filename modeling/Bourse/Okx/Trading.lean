import Bourse.Exchange
import Bourse.Okx.Venue

/-! # Trading on OKX

The calls of an exchange as requests to OKX. The venue acknowledges a new order without repeating
it; the order that is returned is completed from the request. -/

namespace Bourse.Okx

/-- The book of a market. -/
def fetchOrderBook (c : Client) (symbol : String) (depth : Option Nat) : Session OrderBook := do
  let market ← c.loadedMarket symbol
  let params := Client.marketParam "instId" market
  let params := match depth with
    | some n => params.put "sz" (.ofInt n)
    | none => params
  let answer ← c.fetch "publicGetMarketBooks" params
  readBook answer market.symbol

/-- How trades are margined: as an option says, and else not at all. -/
def tradeMode (c : Client) : String := ((c.options.get? "tdMode").bind Json.str?).getD "cash"

/-- The parameters of a new order. A limit order has to name its price; the size of a market order
is stated in the base currency. -/
def orderParams (c : Client) (market : Market) (r : OrderRequest) : Session (Table Json) := do
  let size ← c.amountText market.symbol r.amount
  let params := (Client.marketParam "instId" market).putAll
    [("tdMode", .str (tradeMode c)), ("side", .str r.side.name), ("ordType", .str r.type.name),
      ("sz", .str size)]
  match r.type, r.price with
  | .market, _ => return params.put "tgtCcy" (.str "base_ccy")
  | .limit, some price => return params.put "px" (.str (← c.priceText market.symbol price))
  | .limit, none =>
    Session.fail (.make .argumentsRequired
      ("okx create_order requires a price for " ++ market.symbol ++ " limit orders"))

/-- The single order in an answer. -/
def readSingle (c : Client) (answer : Json) (market : Market) : Result Order := do
  c.adapter.parseOrder (← firstRecord answer) (some market)

/-- The order with what its acknowledgement leaves out taken from the request. -/
def confirm (o : Order) (r : OrderRequest) : Order :=
  ({ o with
    side := o.side.or (some r.side)
    type := o.type.or (some r.type)
    amount := o.amount.or (some r.amount)
    price := o.price.or r.price
    clientOrderId := o.clientOrderId.or r.clientOrderId } : Order).complete

/-- Places an order. -/
def createOrder (c : Client) (r : OrderRequest) : Session Order := do
  let market ← c.loadedMarket r.symbol
  let params ← orderParams c market r
  let params := match r.clientOrderId with
    | some id => params.put "clOrdId" (.str id)
    | none => params
  let answer ← c.fetch "privatePostTradeOrder" params
  let order ← readSingle c answer market
  return confirm order r

/-- Calls an endpoint about one order. -/
def callOrder (c : Client) (endpoint id symbol : String) : Session Order := do
  let market ← c.loadedMarket symbol
  let answer ← c.fetch endpoint ((Client.marketParam "instId" market).put "ordId" (.str id))
  readSingle c answer market

/-- The orders that wait to be filled. -/
def fetchOpenOrders (c : Client) (symbol : Option String) : Session (List Order) := do
  let _ ← c.loadMarkets
  let spot := Table.empty.put "instType" (.str "SPOT")
  let params ← match symbol with
    | some s => do
      let market ← c.market s
      pure (spot.put "instId" (.str market.id))
    | none => pure spot
  let answer ← c.fetch "privateGetTradeOrdersPending" params
  c.readOrders (fun raw => (raw.getText? "instId").getD "") (← records answer)

/-- The balance of the account. -/
def fetchBalance (c : Client) : Session Balance := do
  let answer ← c.fetch "privateGetAccountBalance" .empty
  readBalance answer

/-- The exchange behind a client. -/
def exchange (c : Client) : Exchange where
  client := c
  fetchOrderBook := fetchOrderBook c
  createOrder := createOrder c
  cancelOrder := callOrder c "privatePostTradeCancelOrder"
  fetchOrder := callOrder c "privateGetTradeOrder"
  fetchOpenOrders := fetchOpenOrders c
  fetchBalance := fetchBalance c

/-- The configuration in which the sandbox is asked for in the venue's own way as well. -/
def withDemo (config : ClientConfig) : ClientConfig :=
  if config.sandbox then config.withOption "demoTrading" (.bool true) else config

/-- The exchange with a configuration. -/
def make (config : ClientConfig) : Result Exchange :=
  exchange <$> Client.make adapter (withDemo config)

end Bourse.Okx
