import Bourse.Precision
import Bourse.Record.Currency
import Bourse.Record.Market

/-! # The registry of markets and currencies

An index of a venue's markets by symbol and by id, and of its currencies by code and by id. It is
always built as a whole from a list of markets: of records with one id the last counts, and the
currencies are derived from the markets unless they are given. -/

namespace Bourse

/-- Markets and currencies under all their names. -/
structure Registry where
  markets : Table Market := .empty
  marketsById : Table Market := .empty
  currencies : Table Currency := .empty
  currenciesById : Table Currency := .empty
  /-- Whether markets have been set. -/
  loaded : Bool := false

namespace Registry

/-! ### Derived currencies -/

/-- The precision of a currency about which the markets say nothing. -/
def defaultPrecision : PrecisionMode → Decimal
  | .tickSize => .tick 8
  | _ => .ofWord 8

/-- Whether a precision is finer than another: a smaller tick, or more digits. -/
def isFiner (mode : PrecisionMode) (new old : Decimal) : Bool :=
  match mode with
  | .tickSize => decide (new < old)
  | _ => decide (old < new)

/-- Whether a currency may take the place of another one with its code. -/
def replaces (mode : PrecisionMode) (new old : Currency) : Bool :=
  match new.precision, old.precision with
  | some n, some o => isFiner mode n o
  | _, none => true
  | none, some _ => false

/-- The currencies of a market, the base first; a side without a code has none. -/
def candidates (mode : PrecisionMode) (m : Market) : List Currency :=
  let base := (m.precision.base.or m.precision.amount).getD (defaultPrecision mode)
  let quote := (m.precision.quote.or m.precision.price).getD (defaultPrecision mode)
  [{ id := m.baseId, code := m.base, precision := some base : Currency },
    { id := m.quoteId, code := m.quote, precision := some quote : Currency }].filter
      fun c => c.code != ""

/-- Adds a candidate: the first with its code, or a finer one than the one before. -/
def addCandidate (mode : PrecisionMode) (t : Table Currency) (c : Currency) : Table Currency :=
  match t.get? c.code with
  | none => t.put c.code c
  | some old => if replaces mode c old then t.put c.code c else t

/-- The currencies of some markets, by code. -/
def derive (mode : PrecisionMode) (markets : List Market) : Table Currency :=
  (markets.flatMap (candidates mode)).foldl (addCandidate mode) .empty

/-! ### Building -/

/-- The registry of a list of markets. Given currencies replace derived ones. -/
def ofMarkets (markets : List Market) (currencies : Option (List Currency))
    (mode : PrecisionMode) : Registry :=
  let byId : Table Market := .ofList (markets.map fun m => (m.id, m))
  let codes := (derive mode byId.values).putAll ((currencies.getD []).map fun c => (c.code, c))
  { markets := .ofList (byId.values.map fun m => (m.symbol, m))
    marketsById := byId
    currencies := codes
    currenciesById := .ofList (codes.values.map fun c => (c.id, c))
    loaded := true }

/-! ### Looking up -/

/-- The symbols in ascending order. -/
def symbols (r : Registry) : List String := r.markets.sorted.map Prod.fst

/-- The market ids in ascending order. -/
def ids (r : Registry) : List String := r.marketsById.sorted.map Prod.fst

/-- The currency codes in ascending order. -/
def codes (r : Registry) : List String := r.currencies.sorted.map Prod.fst

/-- The market with a symbol. -/
def market (r : Registry) (symbol : String) : Result Market :=
  match r.markets.get? symbol with
  | some m => .ok m
  | none => .error (.make .badSymbol ("Market " ++ symbol ++ " not found"))

/-- The market with an id. -/
def marketById? (r : Registry) (id : String) : Option Market := r.marketsById.get? id

/-- The currency with a code. -/
def currency (r : Registry) (code : String) : Result Currency :=
  match r.currencies.get? code with
  | some c => .ok c
  | none => .error (.make .badRequest ("Currency " ++ code ++ " not found"))

/-- The currency with an id. -/
def currencyById? (r : Registry) (id : String) : Option Currency := r.currenciesById.get? id

/-- The code of a venue's currency id: that of the currency, or else the common code of the id in
capitals. -/
def codeOf (r : Registry) (id : String) : String :=
  match r.currencyById? id with
  | some c => c.code
  | none => Currency.commonCode (Text.upper id)

end Registry

end Bourse
