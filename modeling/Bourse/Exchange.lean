import Bourse.Client.Markets
import Bourse.Record.Balance
import Bourse.Record.OrderBook

/-! # Exchanges

The calls that every supported venue has, whatever they look like on its side: the book of a market,
orders and balances. -/

namespace Bourse

/-- A client of a venue with the calls that all venues have. -/
structure Exchange where
  client : Client
  /-- The book of a market, with at most so many levels on each side if a number is given. -/
  fetchOrderBook : (symbol : String) → (depth : Option Nat) → Session OrderBook
  createOrder : OrderRequest → Session Order
  cancelOrder : (id symbol : String) → Session Order
  fetchOrder : (id symbol : String) → Session Order
  /-- The orders that wait to be filled, on one market or on all. -/
  fetchOpenOrders : (symbol : Option String) → Session (List Order)
  fetchBalance : Session Balance

namespace Client

/-- The market with a symbol, after a load if no markets are known. -/
def loadedMarket (c : Client) (symbol : String) : Session Market := do
  let _ ← c.loadMarkets
  c.market symbol

/-- The parameter that names a market by its id. -/
def marketParam (key : String) (m : Market) : Table Json := Table.empty.put key (.str m.id)

/-- Reads orders in sequence; each is told its market if the client knows it by its id. -/
def readOrders (c : Client) (marketId : Json → String) (records : List Json) :
    Session (List Order) := do
  let registry ← Session.read (·.registry)
  Session.ofResult (records.mapM fun raw =>
    c.adapter.parseOrder raw (registry.marketById? (marketId raw)))

end Client

namespace Exchange

/-- Buys an amount at the price of the market. -/
def marketBuy (x : Exchange) (symbol : String) (amount : Decimal) : Session Order :=
  x.createOrder { symbol, type := .market, side := .buy, amount }

/-- Sells an amount at the price of the market. -/
def marketSell (x : Exchange) (symbol : String) (amount : Decimal) : Session Order :=
  x.createOrder { symbol, type := .market, side := .sell, amount }

/-- Buys an amount at a price or below. -/
def limitBuy (x : Exchange) (symbol : String) (amount price : Decimal) : Session Order :=
  x.createOrder { symbol, type := .limit, side := .buy, amount, price := some price }

/-- Sells an amount at a price or above. -/
def limitSell (x : Exchange) (symbol : String) (amount price : Decimal) : Session Order :=
  x.createOrder { symbol, type := .limit, side := .sell, amount, price := some price }

/-- The balance of one currency. -/
def getBalance (x : Exchange) (code : String) : Session BalanceEntry := do
  match (← x.fetchBalance).get? code with
  | some entry => return entry
  | none =>
    Session.fail (.make .badRequest (x.client.id ++ " has no balance for " ++ code))

end Exchange

end Bourse
