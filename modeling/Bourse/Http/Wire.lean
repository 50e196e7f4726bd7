import Bourse.Http.Config
import Bourse.Http.Message
import Bourse.Time.Calendar

/-! # The wire

What becomes of a prepared request: it may have no address or not be sendable, the other side may be
out of reach, may close the connection, stay silent, or answer. The replies are given as a script,
one for each request that goes out, and the wire keeps a record of the requests that it was handed.
Which texts are addresses is up to the wire. -/

namespace Bourse

/-- The bytes of a body: a list of them, or one byte many times. -/
inductive Content where
  | bytes (bs : List UInt8)
  | run (byte : UInt8) (count : Nat)

/-- The number of bytes. -/
def Content.size : Content → Nat
  | .bytes bs => bs.length
  | .run _ count => count

/-- The first bytes of a body, at most `n`. -/
def Content.take (n : Nat) : Content → List UInt8
  | .bytes bs => bs.take n
  | .run byte count => List.replicate (min n count) byte

/-- An answer as it comes over the wire. -/
structure Answer where
  status : Nat
  headers : List (String × String) := []
  content : Content := .bytes []
  /-- The length that the answer announces. -/
  announced : Option Nat := none

/-- What the other side does with a request. -/
inductive Reply where
  | answer (a : Answer)
  /-- The connection is closed without an answer. -/
  | dropped
  /-- No answer comes. -/
  | silent

/-- Whether a text looks like an address: one of the two schemes, and a host behind it. -/
def namesHost (url : String) : Bool :=
  match (Text.after? "http://".toList url.toList).or (Text.after? "https://".toList url.toList) with
  | some (c :: _) => !"/?#:".toList.contains c
  | _ => false

/-- The state of the wire. -/
structure Wire where
  /-- Which texts are urls that a request can be sent to. -/
  isUrl : String → Bool := namesHost
  /-- Whether a connection can be made. -/
  reachable : Bool := true
  /-- The replies to come. -/
  script : List Reply := []
  /-- The requests that were handed to the wire, the latest first. -/
  handed : List PreparedRequest := []
  /-- Those of them that went out, the latest first. -/
  sent : List PreparedRequest := []
  /-- The time, in milliseconds of the epoch. -/
  clock : Instant := 0

namespace Wire

/-- The answer of a server whose script has ended. -/
def unscripted : Answer :=
  { status := 503, content := .bytes (Text.bytes "unscripted"), announced := some 10 }

/-- Whether the headers of a request can be written to the wire. -/
def isSendable (r : PreparedRequest) : Bool :=
  r.headers.entries.all fun e => isHeaderName e.1 && isHeaderValue e.2

/-- Whether a header value is text to the reader: visible ASCII, spaces and tabs. -/
def isReadable (s : String) : Bool :=
  s.toList.all fun c => c == '\t' || (0x20 ≤ c.toNat && c.toNat < 0x7F)

/-- The headers of an answer as a reader sees them: names in lower case, and text only. -/
def readHeaders (headers : List (String × String)) : Table String :=
  .ofList ((headers.filter fun e => isReadable e.2).map fun e => (Text.lower e.1, e.2))

/-- Whether answers with this status have no body. -/
def isBodiless (status : Nat) : Bool := status == 204 || status == 304

/-- The bytes of an answer's body: an announced length beyond the limit is refused at once, one that
is not reached is a broken transmission, and without an announcement the bytes are counted. -/
def readBody (limit : Nat) (a : Answer) : Result (List UInt8) :=
  if isBodiless a.status then .ok []
  else
    match a.announced with
    | some n =>
      if limit < n then
        .error (.make .badResponse ("Response size " ++ toString n ++ " bytes exceeds limit "
          ++ toString limit ++ " bytes"))
      else if a.content.size < n then
        .error (.network (.bodyRead "end of file before message length reached"))
      else .ok (a.content.take n)
    | none =>
      if limit < a.content.size then
        .error (.make .badResponse ("Response exceeds limit " ++ toString limit
          ++ " bytes (streaming)"))
      else .ok (a.content.take a.content.size)

/-- An answer as a response. -/
def readAnswer (limit : Nat) (clock : Instant) (a : Answer) : Result Response := do
  let body ← readBody limit a
  return { status := a.status, headers := readHeaders a.headers, body := Text.decodeLossy body
           receivedAt := clock }

/-- Sends a request and waits for the response. A request that goes out uses up one reply. -/
def transmit (config : HttpConfig) (w : Wire) (r : PreparedRequest) : Result Response × Wire :=
  let w := { w with handed := r :: w.handed }
  if !(w.isUrl r.url && isSendable r) then (.error (.network .transport), w)
  else if !w.reachable then (.error (.network (.connection "error sending request")), w)
  else
    let (reply, script) := match w.script with
      | [] => (Reply.answer unscripted, [])
      | reply :: rest => (reply, rest)
    let w := { w with script, sent := r :: w.sent }
    match reply with
    | .dropped => (.error (.network .transport), w)
    | .silent =>
      (.error (.context ("Request to " ++ r.url ++ " timed out after "
        ++ toString (config.timeout / 1000000) ++ "ms") (.network .timeout)), w)
    | .answer a => (readAnswer config.maxResponseSize w.clock a, w)

end Wire

end Bourse
