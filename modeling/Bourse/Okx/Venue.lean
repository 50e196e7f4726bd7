import Bourse.Classify.Classifier
import Bourse.Okx.Records
import Bourse.Signature
import Bourse.Time.Iso8601
import Bourse.Venue.Adapter

/-! # OKX

The description of OKX, its signatures and its ways of telling failures. A signature covers the
time, the method, the target of the request and its body; the venue's sandbox has the live address
and is told apart by a header. -/

namespace Bourse.Okx

/-- What codes and messages mean. -/
def exceptions : ExceptionTable := .ofLists
  [("50000", .badRequest), ("50001", .onMaintenance), ("50002", .badRequest),
    ("50004", .requestTimeout), ("50005", .exchangeNotAvailable), ("50011", .rateLimitExceeded),
    ("50013", .exchangeNotAvailable), ("50014", .argumentsRequired), ("50102", .invalidNonce),
    ("50103", .authenticationError), ("50105", .authenticationError),
    ("50111", .authenticationError), ("50113", .authenticationError),
    ("50114", .authenticationError), ("51000", .badRequest), ("51001", .badSymbol),
    ("51008", .insufficientFunds), ("51119", .insufficientFunds), ("51400", .orderNotFound),
    ("51603", .orderNotFound)]
  [("Instrument ID does not exist", .badSymbol), ("Insufficient", .insufficientFunds)]

/-- The addresses, live and in the sandbox. -/
def urls : Table String := .ofList [("public", "https://\x7bhostname\x7d/api/v5"),
  ("private", "https://\x7bhostname\x7d/api/v5")]

/-- The venue. -/
def description : Description where
  id := "okx"
  name := "OKX"
  version := some "v5"
  rateLimit := 100
  hostname := some "www.okx.com"
  urls := urls
  testUrls := urls
  catalogue :=
    [⟨"public", .get, ["public/instruments", "public/time", "market/books"]⟩,
      ⟨"private", .get, ["trade/order", "trade/orders-pending", "account/balance"]⟩,
      ⟨"private", .post, ["trade/order", "trade/cancel-order"]⟩]
  exceptions := exceptions
  precisionMode := .tickSize
  required := .keySecretAndPassword
  options := .ofList [("tdMode", .str "cash")]

/-! ### Signatures -/

/-- What follows the authority of an address: from the first slash behind the scheme on. -/
def targetOf (url : List Char) : List Char :=
  match ((Text.behind? "://".toList url).getD url).dropWhile (· != '/') with
  | [] => ['/']
  | target => target

/-- The text that a signature covers. -/
def signedText (timestamp : String) (method : HttpMethod) (url : String) (body : Option String) :
    String :=
  timestamp ++ method.name ++ String.ofList (targetOf url.toList) ++ body.getD ""

/-- The address and the body of a signed request: parameters travel in the query, or as JSON in the
body, which is never left out. -/
def place (r : Request) (baseUrl : String) : String × Option String :=
  let url := joinUrl baseUrl r.path
  if r.method.usesQuery then
    (if r.params.isEmpty then url else url ++ "?" ++ Query.encode r.params, none)
  else (url, some (Json.ofTable r.params).compact)

/-- Signs a request. -/
def signPrivate (r : Request) (ctx : SignContext) : Result PreparedRequest := do
  ctx.credentials.check ctx.venue .keySecretAndPassword
  let timestamp ← Error.require (Iso8601.render? ctx.timestamp)
    ("Cannot render timestamp " ++ String.ofList (Text.numeral ctx.timestamp) ++ " as ISO 8601")
  let (url, body) := place r ctx.baseUrl
  let headers :=
    if body.isSome then r.headers.put "Content-Type" "application/json" else r.headers
  let signature ← Signature.sign .sha256 .base64 (← ctx.credentials.needSecret)
    (signedText timestamp r.method url body)
  let headers := headers.putAll
    [("OK-ACCESS-KEY", ← ctx.credentials.needKey), ("OK-ACCESS-SIGN", signature),
      ("OK-ACCESS-TIMESTAMP", timestamp), ("OK-ACCESS-PASSPHRASE", ← ctx.credentials.needPassword)]
  return ⟨url, r.method, headers, body⟩

/-- Whether the options ask for the sandbox. -/
def isDemo (options : Table Json) : Bool :=
  match options.get? "demoTrading" with
  | some (.bool b) => b
  | some (.str s) => Text.eqIgnoringCase s "true"
  | _ => false

/-- Marks a request for the sandbox. -/
def markDemo (options : Table Json) (p : PreparedRequest) : PreparedRequest :=
  if isDemo options then { p with headers := p.headers.put "x-simulated-trading" "1" } else p

/-- Prepares a request: those of the private tier are signed, and all are marked in the sandbox. -/
def sign (r : Request) (ctx : SignContext) : Result PreparedRequest :=
  (if r.tier = "private" then signPrivate r ctx else .ok (r.unsigned ctx)).map
    (markDemo ctx.options)

/-! ### Failures -/

/-- The code and the message of the first record that has failed. -/
def failedRecord? (body : Json) : Option (String × String) :=
  (body.list "data").findSome? fun item =>
    match item.getText? "sCode" with
    | some code => if code = "0" then none else some (code, (item.getText? "sMsg").getD "")
    | none => none

/-- The code and the message of the failure that a body tells of: a failed record counts before the
envelope. A body without a code tells nothing. -/
def failure? (body : Json) : Option (String × String) :=
  match body.getText? "code" with
  | none => none
  | some code =>
    (failedRecord? body).or
      (if code = "0" then none else some (code, (body.getText? "msg").getD ""))

/-- The kind of a code and a message. -/
def kindOf (code message : String) : ErrorKind :=
  ((exceptions.exactKind? code).or (exceptions.broadKind? message)).getD .exchangeError

/-- The failure that a decoded body tells of. -/
def inspect (response : Response) (decoded : Option Json) : Attempt (Option Error) :=
  match decoded with
  | none => .ok none
  | some body =>
    match failure? body with
    | none => .ok none
    | some (code, message) => do
      let retryAfter ← response.retryAfter
      return some (.classified
        { kind := kindOf code message
          message := "okx " ++ response.preview
          code := some code
          data := some body
          retryAfter })

/-! ### Adapter -/

/-- The markets are the instruments of the spot kind. -/
def markets : Inquiry (List Market) := do
  let answer ← Inquiry.question "publicGetPublicInstruments"
    (.ofList [("instType", .str "SPOT")])
  let items ← (records answer : Result (List Json))
  Adapter.readMarkets readMarket items

/-- The adapter of OKX. -/
def adapter : Adapter where
  description := description
  sign := sign
  inspect := inspect
  parseMarket := readMarket
  parseOrder := readOrder
  parseStatus := status?
  markets := markets

end Bourse.Okx
