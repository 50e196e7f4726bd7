import Bourse.Error.Basic
import Bourse.Text.Blank
import Bourse.Text.Numeral

/-! # Configuration of the transport

Time limits, the size limit of responses and how the client names itself, with the values that are
refused. -/

namespace Bourse

/-- A whole number of seconds in nanoseconds. -/
def secondsSpan (n : Nat) : Nanoseconds := n * 1000000000

/-- A whole number of milliseconds in nanoseconds. -/
def millisSpan (n : Nat) : Nanoseconds := n * 1000000

/-- A span of at least a second as text: seconds with as many decimals as it takes. -/
def spanText (span : Nanoseconds) : String :=
  let fraction := Text.dropEnd (· == '0') (Text.paddedDigits 9 (span % 1000000000))
  String.ofList (Text.digits (span / 1000000000)
    ++ (if fraction = [] then [] else '.' :: fraction) ++ ['s'])

/-- The configuration of a transport. -/
structure HttpConfig where
  timeout : Nanoseconds := secondsSpan 30
  connectTimeout : Nanoseconds := secondsSpan 10
  verbose : Bool := false
  userAgent : String := "unicex/0.1.0"
  maxResponseSize : Nat := 10485760
  poolMaxIdlePerHost : Nat := 10
  poolIdleTimeout : Nanoseconds := secondsSpan 90
  deriving DecidableEq

namespace HttpConfig

/-- The longest time limit. -/
def maxTimeout : Nanoseconds := secondsSpan 300

/-- Refuses limits that make no sense. -/
def validate (c : HttpConfig) : Result Unit :=
  if c.timeout = 0 then .error (.internal "HTTP timeout must be greater than zero")
  else if maxTimeout < c.timeout then
    .error (.internal ("HTTP timeout " ++ spanText c.timeout ++ " exceeds 5 minutes"))
  else if c.maxResponseSize = 0 then .error (.internal "max_response_size cannot be zero")
  else .ok ()

end HttpConfig

/-- Characters that a header value may have: all but control characters, of which the tab is
allowed. -/
def isHeaderChar (c : Char) : Bool := c == '\t' || (0x20 ≤ c.toNat && c.toNat != 0x7F)

/-- Whether a text can be sent as the value of a header. -/
def isHeaderValue (s : String) : Bool := s.toList.all isHeaderChar

/-- Whether a text can be sent as the name of a header. -/
def isHeaderName (s : String) : Bool :=
  s != "" && s.toList.all fun c => c.isAlphanum || "!#$%&'*+-.^_`|~".toList.contains c

/-- The configuration of a transport that can be built with it. -/
def HttpConfig.build (c : HttpConfig) : Result HttpConfig := do
  c.validate
  if isHeaderValue c.userAgent then return c
  else throw (.unreachable "Failed to build HTTP client: builder error")

end Bourse
