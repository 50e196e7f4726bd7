import Bourse.Http.Method
import Bourse.Json.Access
import Bourse.Text.Utf8

/-! # Requests and responses

A `Request` is what a caller asks of a venue, before it is signed; a `PreparedRequest` is what goes
on the wire; a `Response` is what came back. -/

namespace Bourse

/-- A call of a venue: where, how and with what. -/
structure Request where
  path : String
  /-- The part of the venue's interface that is called. -/
  tier : String
  method : HttpMethod := .get
  params : Table Json := .empty
  headers : Table String := .empty
  body : Option String := none

/-- A request as it goes on the wire. -/
structure PreparedRequest where
  url : String
  method : HttpMethod
  headers : Table String
  body : Option String

/-- An answer of a venue. -/
structure Response where
  status : Nat
  headers : Table String := .empty
  body : String := ""
  /-- When the answer was received, in milliseconds of the epoch. -/
  receivedAt : Int := 0

namespace Response

/-- Whether the status reports success. -/
def isSuccess (r : Response) : Bool := 200 ≤ r.status && r.status < 300

/-- The value of a header. Names in a response are in lower case; the wanted one may be in any. -/
def header? (r : Response) (name : String) : Option String := r.headers.get? (Text.lower name)

/-- The number of bytes of a body that are shown. -/
def previewSize : Nat := 200

/-- The start of the body, cut between two characters. -/
def preview (r : Response) : String :=
  if Text.byteLength r.body.toList ≤ previewSize then r.body else Text.takeBytes previewSize r.body

end Response

/-- An address and a path with one slash between them; an empty path adds none. -/
def joinUrl (base path : String) : String :=
  match base.toList.getLast? == some '/', path.toList with
  | true, '/' :: rest => base ++ String.ofList rest
  | true, _ => base ++ path
  | false, '/' :: _ => base ++ path
  | false, [] => base
  | false, _ => base ++ "/" ++ path

end Bourse
