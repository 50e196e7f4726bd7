import Bourse.Client.Basic
import Bourse.Json.Parser
import Bourse.Venue.Template

/-! # Requests of a client

The way of a call: an endpoint is looked up by name, its path is filled with parameters, the request
gets an address and a signature, waits for its turn and goes out once, and the response is judged by
the adapter and then by the tables of the venue. The first failure on this way is the answer. -/

namespace Bourse.Client

/-- The first placeholder of a path that no parameter has as its key. -/
def missing? (path : String) (params : Table Json) : Option String :=
  (Template.placeholders path).find? fun name => !params.contains name

/-- The request for a path: parameters go into the placeholders that they name, and the others stay
parameters. -/
def compose (c : Client) (path tier : String) (method : HttpMethod) (params : Table Json) :
    Result Request :=
  match missing? path params with
  | some name =>
    .error (.make .argumentsRequired
      (c.id ++ " " ++ path ++ " requires a \"" ++ name ++ "\" argument"))
  | none =>
    .ok { path := Template.fill path params, tier, method
          params := (Template.placeholders path).foldl Table.erase params }

/-- What a request of the client is signed with. -/
def signContext (c : Client) (baseUrl : String) (now : Instant) : SignContext :=
  { venue := c.id, baseUrl, credentials := c.config.credentials, timestamp := now
    options := c.options }

/-- The request as it is sent at a time. -/
def prepare (c : Client) (request : Request) (now : Instant) : Result PreparedRequest := do
  let baseUrl ← c.description.baseUrl request.tier c.config.sandbox c.config.urlOverrides
  c.adapter.sign request (c.signContext baseUrl now)

/-- Waits for a turn that costs this many tokens. -/
def throttle (cost : Rat) : Session Unit := fun w =>
  match w.bucket with
  | none => (.ok (), w)
  | some bucket =>
    let (elapsed, after) := bucket.acquire Bucket.exact w.elapsed cost
    (.ok (), { w with bucket := some after, elapsed })

/-- Hands a request to the wire, now. -/
def transmit (c : Client) (request : PreparedRequest) : Session Response := fun w =>
  let (response, wire) := w.wire.transmit c.config.http request
  (Attempt.ofResult response, { w with wire, departures := w.elapsed :: w.departures })

/-- The value of a body that looks like a JSON object or list and is one. -/
def decodeBody (body : String) : Option Json :=
  match Text.dropStart Text.isBlank body.toList with
  | '\x7b' :: cs => Json.parse? (String.ofList ('\x7b' :: cs))
  | '[' :: cs => Json.parse? (String.ofList ('[' :: cs))
  | _ => none

/-- The classifier of the client's venue. -/
def classifier (c : Client) : Classifier :=
  { venue := c.id, exceptions := c.description.exceptions, statuses := c.description.statuses }

/-- Passes a response that reports no failure. The adapter is asked before the tables. -/
def handleResponse (c : Client) (response : Response) (decoded : Option Json) : Attempt Unit := do
  match ← c.adapter.inspect response decoded with
  | some e => .fail e
  | none => c.classifier.classify response decoded

/-- The value of a good response: the decoded one, `null` for a blank body, and else the body. -/
def payload (response : Response) (decoded : Option Json) : Json :=
  match decoded with
  | some v => v
  | none => if Text.trim response.body = "" then .null else .str response.body

/-- Sends a request and returns the value of its response. -/
def send (c : Client) (request : Request) : Session Json := do
  let now ← Session.read (·.wire.clock)
  let prepared ← c.prepare request now
  throttle 1
  let response ← c.transmit prepared
  let decoded := decodeBody response.body
  Session.ofAttempt (c.handleResponse response decoded)
  return payload response decoded

/-- Calls a path of a tier. -/
def request (c : Client) (path tier : String) (method : HttpMethod) (params : Table Json) :
    Session Json := do
  let request ← c.compose path tier method params
  c.send request

/-- Calls an endpoint by name. -/
def fetch (c : Client) (endpoint : String) (params : Table Json) : Session Json := do
  let e ← c.endpoints.resolve endpoint
  c.request e.path e.tier e.method params

/-- Puts a question to the venue, by the call that it names. -/
def ask (c : Client) : Question → Session Json
  | .endpoint name params => c.fetch name params
  | .path path tier method params => c.request path tier method params
  | .request r => c.send r

/-- Runs an inquiry: every question is a call. -/
def run {α : Type} (c : Client) : Inquiry α → Session α
  | .done r => Session.ofResult r
  | .ask question next => do
    let answer ← (c.ask question).outcome
    c.run (next answer)

end Bourse.Client
