import Bourse.Credentials
import Bourse.Http.Config
import Bourse.Json.Basic

/-! # Configuration of a client

What its owner decides about a client: credentials, limits, whether it trades for real, and options
and addresses in place of those of the venue. -/

namespace Bourse

/-- The configuration of a client. -/
structure ClientConfig where
  credentials : Credentials := {}
  /-- Whether requests wait for their turn. -/
  enableRateLimit : Bool := true
  /-- Milliseconds between two requests, in place of the venue's own. -/
  rateLimit : Option Nat := none
  timeout : Nanoseconds := secondsSpan 30
  connectTimeout : Nanoseconds := secondsSpan 10
  /-- Whether the client works in the sandbox of the venue. -/
  sandbox : Bool := false
  userAgent : Option String := none
  verbose : Bool := false
  options : Table Json := .empty
  /-- Addresses by tier, in place of those of the venue. -/
  urlOverrides : Table String := .empty

namespace ClientConfig

/-- The configuration with an option. -/
def withOption (c : ClientConfig) (key : String) (value : Json) : ClientConfig :=
  { c with options := c.options.put key value }

/-- The configuration with an address for a tier. -/
def withUrl (c : ClientConfig) (tier url : String) : ClientConfig :=
  { c with urlOverrides := c.urlOverrides.put tier url }

/-- The transport of a client. -/
def http (c : ClientConfig) : HttpConfig :=
  let defaults : HttpConfig := {}
  { defaults with
    timeout := c.timeout
    connectTimeout := c.connectTimeout
    verbose := c.verbose
    userAgent := c.userAgent.getD defaults.userAgent }

end ClientConfig

end Bourse
