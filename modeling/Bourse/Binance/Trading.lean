import Bourse.Binance.Venue
import Bourse.Exchange

/-! # Trading on Binance

The calls of an exchange as requests to Binance. -/

namespace Bourse.Binance

/-- The book of a market. -/
def fetchOrderBook (c : Client) (symbol : String) (depth : Option Nat) : Session OrderBook := do
  let market ← c.loadedMarket symbol
  let params := Client.marketParam "symbol" market
  let params := match depth with
    | some n => params.put "limit" (.ofInt n)
    | none => params
  let answer ← c.fetch "publicGetDepth" params
  return readBook answer market.symbol (← Session.read (·.wire.clock))

/-- The parameters of a new order. A limit order has to name its price and stays until it is
canceled. -/
def orderParams (c : Client) (market : Market) (r : OrderRequest) : Session (Table Json) := do
  let amount ← c.amountText market.symbol r.amount
  let side := Json.str (Text.upper r.side.name)
  let params := (((Client.marketParam "symbol" market).put "side" side).put
    "type" (.str (Text.upper r.type.name))).put "quantity" (.str amount)
  match r.type, r.price with
  | .market, _ => return params
  | .limit, some price =>
    return (params.put "price" (.str (← c.priceText market.symbol price))).put "timeInForce"
      (.str "GTC")
  | .limit, none =>
    Session.fail (.make .argumentsRequired
      ("binance create_order requires a price for " ++ market.symbol ++ " limit orders"))

/-- Places an order. -/
def createOrder (c : Client) (r : OrderRequest) : Session Order := do
  let market ← c.loadedMarket r.symbol
  let params ← orderParams c market r
  let params := match r.clientOrderId with
    | some id => params.put "newClientOrderId" (.str id)
    | none => params
  let answer ← c.fetch "privatePostOrder" params
  c.adapter.parseOrder answer (some market)

/-- Calls an endpoint about one order. -/
def callOrder (c : Client) (endpoint id symbol : String) : Session Order := do
  let market ← c.loadedMarket symbol
  let answer ← c.fetch endpoint ((Client.marketParam "symbol" market).put "orderId" (.str id))
  c.adapter.parseOrder answer (some market)

/-- The orders that wait to be filled. -/
def fetchOpenOrders (c : Client) (symbol : Option String) : Session (List Order) := do
  let _ ← c.loadMarkets
  let params ← match symbol with
    | some s => Client.marketParam "symbol" <$> c.market s
    | none => pure .empty
  let answer ← c.fetch "privateGetOpenOrders" params
  match answer.items? with
  | some records =>
    c.readOrders (fun raw => ((raw.at? "symbol").bind Json.str?).getD "") records
  | none => Session.fail (.make .badResponse "binance openOrders response is not a list")

/-- The balance of the account. -/
def fetchBalance (c : Client) : Session Balance :=
  readBalance <$> c.fetch "privateGetAccount" .empty

/-- The exchange behind a client. -/
def exchange (c : Client) : Exchange where
  client := c
  fetchOrderBook := fetchOrderBook c
  createOrder := createOrder c
  cancelOrder := callOrder c "privateDeleteOrder"
  fetchOrder := callOrder c "privateGetOrder"
  fetchOpenOrders := fetchOpenOrders c
  fetchBalance := fetchBalance c

/-- The exchange with a configuration. -/
def make (config : ClientConfig) : Result Exchange := exchange <$> Client.make adapter config

end Bourse.Binance
