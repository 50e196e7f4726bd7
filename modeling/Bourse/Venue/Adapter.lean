import Bourse.Failure
import Bourse.Record.Currency
import Bourse.Record.Market
import Bourse.Record.Order
import Bourse.Venue.Description
import Bourse.Venue.Inquiry
import Bourse.Venue.Signing

/-! # Adapters

An adapter is all that sets a venue apart: its description, how its requests are signed, how its
responses tell of failures, and how its records read. -/

namespace Bourse

/-- A venue as a client sees it. -/
structure Adapter where
  description : Description
  /-- Prepares a request; without a rule of the venue it is not signed. -/
  sign : Request → SignContext → Result PreparedRequest := fun r ctx => .ok (r.unsigned ctx)
  /-- The failure that a response tells of in the venue's own way. -/
  inspect : Response → Option Json → Attempt (Option Error) := fun _ _ => .ok none
  /-- Reads a market; a record of something else is none. -/
  parseMarket : Json → Result (Option Market)
  /-- Reads an order of a market, if the market is known. -/
  parseOrder : Json → Option Market → Result Order
  /-- Reads a state of an order. -/
  parseStatus : String → Option OrderStatus := fun _ => none
  /-- How the markets of the venue are found out. -/
  markets : Inquiry (List Market)
  /-- How its currencies are found out, if it tells them apart from the markets. -/
  currencies : Inquiry (Option (List Currency)) := pure none

namespace Adapter

/-- Reads a list of market records in order and drops those of something else; one bad record spoils
the list. -/
def readMarkets (parse : Json → Result (Option Market)) (records : List Json) :
    Result (List Market) :=
  (records.mapM parse).map (·.filterMap id)

end Adapter

end Bourse
