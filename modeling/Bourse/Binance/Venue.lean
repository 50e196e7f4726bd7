import Bourse.Binance.Records
import Bourse.Classify.Classifier
import Bourse.Signature
import Bourse.Venue.Adapter

/-! # Binance

The description of Binance, its signatures and its ways of telling failures. Parameters are signed
in the form in which they travel: sorted, encoded, and with the signature as the last of them. -/

namespace Bourse.Binance

/-- What codes and messages mean. -/
def exceptions : ExceptionTable := .ofLists
  [("API key does not exist", .authenticationError),
    ("Order would trigger immediately.", .invalidOrder),
    ("Account has insufficient balance for requested action.", .insufficientFunds),
    ("Rest API trading is not enabled.", .exchangeNotAvailable),
    ("You don't have permission.", .permissionDenied),
    ("Market is closed.", .exchangeNotAvailable),
    ("-1000", .exchangeNotAvailable), ("-1003", .rateLimitExceeded), ("-1013", .invalidOrder),
    ("-1021", .invalidNonce), ("-1022", .authenticationError), ("-1100", .invalidOrder),
    ("-1104", .exchangeError), ("-1121", .badSymbol), ("-1128", .exchangeError),
    ("-2010", .exchangeError), ("-2011", .orderNotFound), ("-2013", .orderNotFound),
    ("-2014", .authenticationError), ("-2015", .authenticationError),
    ("-3008", .insufficientFunds), ("-3010", .exchangeError)]
  [("Too many requests", .rateLimitExceeded), ("Invalid symbol", .badSymbol)]

/-- Milliseconds for which a signed request is good unless an option says otherwise. -/
def defaultWindow : Int := 5000

/-- The venue. -/
def description : Description where
  id := "binance"
  name := "Binance"
  version := some "v3"
  rateLimit := 50
  hostname := some "binance.com"
  urls := .ofList [("public", "https://api.\x7bhostname\x7d/api/v3"),
    ("private", "https://api.\x7bhostname\x7d/api/v3")]
  testUrls := .ofList [("public", "https://testnet.binance.vision/api/v3"),
    ("private", "https://testnet.binance.vision/api/v3")]
  catalogue :=
    [⟨"public", .get, ["ping", "time", "exchangeInfo", "depth"]⟩,
      ⟨"private", .get, ["order", "openOrders", "account"]⟩,
      ⟨"private", .post, ["order"]⟩,
      ⟨"private", .delete, ["order"]⟩]
  exceptions := exceptions
  precisionMode := .tickSize
  required := .keyAndSecret
  options := .ofList [("recvWindow", .ofInt defaultWindow)]

/-! ### Signatures -/

/-- Milliseconds for which a request is good. -/
def window (options : Table Json) : Int :=
  ((options.get? "recvWindow").bind Json.int?).getD defaultWindow

/-- The parameters of a request with the time and the window that are signed with it. -/
def timedParams (r : Request) (ctx : SignContext) : Table Json :=
  (r.params.put "timestamp" (.ofInt ctx.timestamp)).put "recvWindow" (.ofInt (window ctx.options))

/-- Signs a request. The signed parameters travel in the query, or as a form in the body. -/
def signPrivate (r : Request) (ctx : SignContext) : Result PreparedRequest := do
  ctx.credentials.check ctx.venue .keyAndSecret
  let query := Query.encode (timedParams r ctx)
  let signature ← Signature.sign .sha256 .hex (← ctx.credentials.needSecret) query
  let signed := query ++ "&signature=" ++ signature
  let headers := r.headers.put "X-MBX-APIKEY" (← ctx.credentials.needKey)
  let url := joinUrl ctx.baseUrl r.path
  if r.method.usesQuery then return ⟨url ++ "?" ++ signed, r.method, headers, none⟩
  else
    return ⟨url, r.method, headers.put "Content-Type" "application/x-www-form-urlencoded",
      some signed⟩

/-- Prepares a request: those of the private tier are signed. -/
def sign (r : Request) (ctx : SignContext) : Result PreparedRequest :=
  if r.tier = "private" then signPrivate r ctx else .ok (r.unsigned ctx)

/-! ### Failures -/

/-- The failure in a body that says of itself that it is no success. -/
def refusal (response : Response) (body : Json) : Error :=
  let message := (body.getText? "msg").getD ""
  let code := body.getText? "code"
  .classified
    { kind := (Classifier.tableKind? exceptions code (some message)).getD .exchangeError
      message := "binance " ++ response.preview
      code
      data := some body }

/-- The failure that a decoded body tells of. -/
def inspect (response : Response) (decoded : Option Json) : Option Error :=
  decoded.bind fun body =>
    match body.at? "success" with
    | some (.bool false) => some (refusal response body)
    | _ => none

/-! ### Adapter -/

/-- The markets are listed with the rules of trading. -/
def markets : Inquiry (List Market) := do
  let answer ← Inquiry.question "publicGetExchangeInfo" .empty
  match (answer.at? "symbols").bind Json.items? with
  | some records => Adapter.readMarkets readMarket records
  | none =>
    (Except.error (.make .badResponse "binance exchangeInfo response has no symbols") :
      Result (List Market))

/-- The adapter of Binance. -/
def adapter : Adapter where
  description := description
  sign := sign
  inspect response decoded := .ok (inspect response decoded)
  parseMarket := readMarket
  parseOrder := readOrder
  parseStatus := status?
  markets := markets

end Bourse.Binance
