import Bourse.Error.Kind
import Bourse.Json.Printer
import Bourse.Text.Utf8

/-! # Failures

A failure has a cause and perhaps contexts around it. A classified cause carries a kind from the
taxonomy, a message and what a venue said beside it; a transport cause happened before a response
was there; a payload cause means that a response could not be read. The kind of a failure is that
of its cause, whatever the contexts. -/

namespace Bourse

/-- A span of time in nanoseconds. -/
abbrev Nanoseconds := Nat

/-- A failure with a place in the taxonomy. -/
structure ClassifiedError where
  kind : ErrorKind
  message : String
  code : Option String := none
  data : Option Json := none
  /-- How long the venue asks to wait. -/
  retryAfter : Option Nanoseconds := none

/-- A failure on the way to a response. -/
inductive TransportError where
  | timeout
  | connection (reason : String)
  | bodyRead (reason : String)
  | transport

/-- A payload that cannot be read. -/
inductive PayloadError where
  /-- A text is no decimal number. -/
  | decimal
  /-- A text is no JSON, or the wrong JSON. -/
  | json
  | timestamp (text : String)
  | missingField (field : String)
  | invalidValue (field text : String)

/-- A failure. -/
inductive Error where
  | classified (e : ClassifiedError)
  | network (e : TransportError)
  | payload (e : PayloadError)
  | context (text : String) (source : Error)

/-- The outcome of an operation that can fail. -/
abbrev Result := Except Error

/-! ### Messages -/

/-- The number of bytes that a message may have. -/
def Error.maxMessage : Nat := 1024

/-- A message cut to the allowed length, between two characters and with a mark. -/
def Error.truncate (message : String) : String :=
  if Text.byteLength message.toList ≤ maxMessage then message
  else Text.takeBytes maxMessage message ++ "... (truncated)"

namespace ClassifiedError

/-- Kind, message and code in one line. -/
def text (e : ClassifiedError) : String :=
  e.kind.name ++ ": " ++ e.message ++
    match e.code with
    | some code => " (code: " ++ code ++ ")"
    | none => ""

end ClassifiedError

namespace TransportError

/-- The kind of a transport failure. -/
def kind : TransportError → ErrorKind
  | .timeout => .requestTimeout
  | _ => .networkError

/-- The text of a transport failure. -/
def text : TransportError → String
  | .timeout => "Request timeout"
  | .connection reason => "Connection failed: " ++ reason
  | .bodyRead reason => "Failed to read response body: " ++ reason
  | .transport => "Transport error"

end TransportError

namespace PayloadError

/-- The text of a payload failure. What is wrong inside a numeral or a JSON text is not told. -/
def text? : PayloadError → Option String
  | .decimal => none
  | .json => none
  | .timestamp text => some ("Failed to parse timestamp: " ++ text)
  | .missingField field => some ("Missing required field: " ++ field)
  | .invalidValue field text => some ("Invalid value for '" ++ field ++ "': " ++ text)

end PayloadError

namespace Error

/-! ### Causes and contexts -/

/-- The failure under all contexts. -/
def rootCause : Error → Error
  | .context _ source => source.rootCause
  | e => e

/-- The kind of the cause. -/
def kind : Error → ErrorKind
  | .classified e => e.kind
  | .network e => e.kind
  | .payload _ => .badResponse
  | .context _ source => source.kind

/-- The cause, if it is a classified one. -/
def classified? : Error → Option ClassifiedError
  | .classified e => some e
  | .context _ source => source.classified?
  | _ => none

/-- The code that the venue gave. -/
def code (e : Error) : Option String := e.classified?.bind (·.code)

/-- The data that the venue sent. -/
def data (e : Error) : Option Json := e.classified?.bind (·.data)

/-- How long the venue asks to wait. -/
def retryAfter (e : Error) : Option Nanoseconds := e.classified?.bind (·.retryAfter)

/-- Membership of the failure in a branch of the taxonomy. -/
def isA (e : Error) (k : ErrorKind) : Bool := e.kind.isA k

/-- Whether the same request may succeed later. -/
def isRetryable (e : Error) : Bool := e.kind.isRetryable

/-- The text of the failure: that of the outermost context, if there is one. -/
def text? : Error → Option String
  | .classified e => some e.text
  | .network e => some ("Network error: " ++ e.text)
  | .payload e => e.text?.map ("Parse error: " ++ ·)
  | .context text _ => some text

/-- The texts of all layers, the outermost first. -/
def layers : Error → List (Option String)
  | .context text source => some text :: source.layers
  | e => [e.text?]

/-- The whole chain, one line for each layer. -/
def report? (e : Error) : Option String :=
  (e.layers.mapM id).map fun texts => "\nCaused by: ".intercalate texts

/-! ### Making failures -/

/-- A classified failure; a long message is cut. -/
def make (kind : ErrorKind) (message : String) : Error :=
  .classified { kind, message := truncate message }

/-- A classified failure with data. -/
def withData (kind : ErrorKind) (message : String) (data : Json) : Error :=
  .classified { kind, message := truncate message, data := some data }

/-- A fault of the caller or of this library. -/
def internal (message : String) : Error := make .internalError message

/-- A failure whose kind is given by name. -/
def typed (kindName message : String) : Error :=
  match ErrorKind.ofName? kindName with
  | some kind => make kind message
  | none => internal ("Unknown error kind '" ++ kindName ++ "': " ++ message)

/-- A limit that was exceeded; the message is kept whole. -/
def rateLimit (message : String) (retryAfter : Option Nanoseconds) : Error :=
  .classified { kind := .rateLimitExceeded, message, retryAfter }

/-- A connection that could not be made. -/
def unreachable (message : String) : Error := .network (.connection (truncate message))

/-- A kind by name, where an unknown name is a fault. -/
def kindOfName (name : String) : Result ErrorKind :=
  match ErrorKind.ofName? name with
  | some kind => .ok kind
  | none => .error (internal ("Unknown error kind: " ++ name))

/-- The value, or a fault with this message. -/
def require {α : Type} (value : Option α) (message : String) : Result α :=
  match value with
  | some a => .ok a
  | none => .error (internal message)

end Error

end Bourse
