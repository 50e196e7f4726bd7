import Bourse.Classify.Classifier
import Bourse.Client.Config
import Bourse.Client.Session
import Bourse.Venue.Adapter
import Bourse.Venue.Endpoint

/-! # Clients

A client is an adapter with a configuration. What it takes from the venue and what its owner may
replace is settled here; its calls are in the other modules. -/

namespace Bourse

/-- A client of a venue. -/
structure Client where
  adapter : Adapter
  config : ClientConfig

namespace Client

/-- A client, if a transport can be built with its configuration. -/
def make (adapter : Adapter) (config : ClientConfig) : Result Client := do
  let _ ← config.http.build
  return { adapter, config }

/-- What is known about the venue. -/
def description (c : Client) : Description := c.adapter.description

/-- The id of the venue. -/
def id (c : Client) : String := c.description.id

/-- The options of the venue, and in front of them those of the client's owner. -/
def options (c : Client) : Table Json := c.description.options.putAll c.config.options.entries

/-- The endpoints of the venue. -/
def endpoints (c : Client) : EndpointTable := .ofDescription c.description

/-- How the venue states precision. -/
def precisionMode (c : Client) : PrecisionMode := c.description.precisionMode

/-- Refuses to go on without the credentials that the venue requires. -/
def checkCredentials (c : Client) : Result Unit :=
  c.config.credentials.check c.id c.description.required

/-- Milliseconds between two requests. -/
def rateLimit (c : Client) : Nat := c.config.rateLimit.getD c.description.rateLimit

/-- The bucket that a client starts with. -/
def bucket (c : Client) : Option Bucket :=
  if c.config.enableRateLimit then some (.full (millisSpan c.rateLimit) 1 0) else none

/-- The world in which a client starts to work. -/
def world (c : Client) (wire : Wire) : World := { wire, bucket := c.bucket }

end Client

end Bourse
