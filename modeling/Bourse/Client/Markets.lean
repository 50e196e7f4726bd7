import Bourse.Client.Request

/-! # Markets of a client

A client learns the markets of its venue once, keeps them, and answers questions about them from
what it keeps. A load that fails changes nothing. -/

namespace Bourse.Client

/-! ### Loading -/

/-- Replaces what is known by these markets and currencies. -/
def setMarkets (c : Client) (markets : List Market) (currencies : Option (List Currency)) :
    Session (Table Market) := fun w =>
  let registry := Registry.ofMarkets markets currencies c.precisionMode
  (.ok registry.markets, { w with registry })

/-- The markets of the venue, asked anew and not kept. -/
def fetchMarkets (c : Client) : Session (List Market) := c.run c.adapter.markets

/-- The currencies of the venue, if it tells them. -/
def fetchCurrencies (c : Client) : Session (Option (List Currency)) := c.run c.adapter.currencies

/-- Learns the markets anew. -/
def reloadMarkets (c : Client) : Session (Table Market) := do
  let markets ← c.fetchMarkets
  let currencies ← c.fetchCurrencies
  c.setMarkets markets currencies

/-- The markets by symbol; they are learnt if none are known. -/
def loadMarkets (c : Client) : Session (Table Market) := do
  let registry ← Session.read (·.registry)
  if registry.loaded then return registry.markets else c.reloadMarkets

/-- Several loads of which one at a time may ask the venue: the first success serves all that wait,
and after a failure the next one tries. -/
def loadTogether (c : Client) : (n : Nat) → Session (List (Result (Table Market)))
  | 0 => return []
  | n + 1 => do
    let first ← c.loadMarkets.outcome
    return first :: (← c.loadTogether n)

/-! ### Looking up -/

/-- Whether markets are known. -/
def marketsLoaded : Session Bool := Session.read (·.registry.loaded)

/-- The market with a symbol. -/
def market (c : Client) (symbol : String) : Session Market := do
  let registry ← Session.read (·.registry)
  if registry.loaded then registry.market symbol
  else
    Session.fail (.make .exchangeError (c.id ++ " markets not loaded, call load_markets() first"))

/-- The market with an id. -/
def marketById (c : Client) (id : String) : Session Market := do
  match (← Session.read (·.registry)).marketById? id with
  | some m => return m
  | none => Session.fail (.make .badSymbol (c.id ++ " has no market with id " ++ id))

/-- The market with an id; an unknown id stands for itself. -/
def marketOrStub (id : String) : Session Market := do
  return ((← Session.read (·.registry)).marketById? id).getD { id, symbol := id }

/-- The currency with a code. -/
def currency (code : String) : Session Currency := do (← Session.read (·.registry)).currency code

/-- The code of a currency id. -/
def codeOf (id : String) : Session String := do return (← Session.read (·.registry)).codeOf id

/-- The symbols of the known markets in ascending order. -/
def symbols : Session (List String) := Session.read (·.registry.symbols)

/-! ### Writing numbers -/

/-- A number to a precision as the venue states it. -/
def formatted (c : Client) (value : Decimal) (rounding : RoundingMode)
    (precision : Option Decimal) : Result String :=
  value.toPrecision rounding precision c.precisionMode .none

/-- A price on a market, rounded. -/
def priceText (c : Client) (symbol : String) (price : Decimal) : Session String := do
  c.formatted price .round (← c.market symbol).precision.price

/-- An amount on a market, cut. -/
def amountText (c : Client) (symbol : String) (amount : Decimal) : Session String := do
  c.formatted amount .truncate (← c.market symbol).precision.amount

/-- A cost on a market, cut; its precision is that of prices unless it has its own. -/
def costText (c : Client) (symbol : String) (cost : Decimal) : Session String := do
  let precision := (← c.market symbol).precision
  c.formatted cost .truncate (precision.cost.or precision.price)

/-- A fee on a market, rounded. -/
def feeText (c : Client) (symbol : String) (fee : Decimal) : Session String := do
  c.formatted fee .round (← c.market symbol).precision.price

/-- An amount of a currency, rounded. -/
def currencyText (c : Client) (code : String) (amount : Decimal) : Session String := do
  c.formatted amount .round (← currency code).precision

end Bourse.Client
