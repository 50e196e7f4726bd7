import Bourse.Classify.Tables
import Bourse.Credentials
import Bourse.Http.Method
import Bourse.Precision

/-! # Descriptions of venues

What a client has to know about a venue before it calls it: addresses for each tier of its
interface, the catalogue of its paths, its tables of failures and its conventions. -/

namespace Bourse

/-- Paths of one tier that are called with one method. -/
structure CatalogueEntry where
  tier : String
  method : HttpMethod
  paths : List String

/-- A venue. -/
structure Description where
  id : String
  name : String
  version : Option String := none
  /-- Milliseconds between two requests. -/
  rateLimit : Nat := 1000
  hostname : Option String := none
  /-- Addresses by tier. -/
  urls : Table String := .empty
  /-- Addresses of the sandbox by tier. -/
  testUrls : Table String := .empty
  catalogue : List CatalogueEntry := []
  exceptions : ExceptionTable := .empty
  statuses : StatusTable := .standard
  precisionMode : PrecisionMode := .decimalPlaces
  required : RequiredCredentials := .keyAndSecret
  options : Table Json := .empty

namespace Description

/-- What stands for the host in an address. -/
def hostPlaceholder : List Char := '\x7b' :: ("hostname".toList ++ ['\x7d'])

/-- An address with the venue's host put in. -/
def withHost (d : Description) (url : String) : String :=
  match d.hostname with
  | some host => String.ofList (Text.replaceAll hostPlaceholder host.toList url.toList)
  | none => url

/-- The address of a tier. An override is taken as it is; otherwise the sandbox or the live address
of the tier counts, and the other one never stands in for it. -/
def baseUrl (d : Description) (tier : String) (sandbox : Bool) (overrides : Table String) :
    Result String :=
  match overrides.get? tier with
  | some url => .ok url
  | none =>
    if sandbox then
      match d.testUrls.get? tier with
      | some url => .ok (d.withHost url)
      | none =>
        .error (.make .notSupported (d.id ++ " has no sandbox url for \"" ++ tier ++ "\""))
    else
      match d.urls.get? tier with
      | some url => .ok (d.withHost url)
      | none => .error (.internal (d.id ++ " has no url for api tier \"" ++ tier ++ "\""))

end Description

end Bourse
