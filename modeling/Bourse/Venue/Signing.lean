import Bourse.Credentials
import Bourse.Encoding.Query
import Bourse.Http.Message

/-! # Preparing requests

What a venue's signing rule is given, and the rule for requests that need no signature. -/

namespace Bourse

/-- What a request is signed with. -/
structure SignContext where
  venue : String
  baseUrl : String
  credentials : Credentials := {}
  /-- Milliseconds of the epoch. -/
  timestamp : Int := 0
  options : Table Json := .empty

/-- A header in place of one that may be there. -/
def Request.withHeader (r : Request) (name value : String) : Request :=
  { r with headers := r.headers.put name value }

/-- Prepares a request without signing it. Parameters travel in the query, or as JSON in the body if
the method has one and the caller gave none. -/
def Request.unsigned (r : Request) (ctx : SignContext) : PreparedRequest :=
  let url := joinUrl ctx.baseUrl r.path
  if r.params.isEmpty then ⟨url, r.method, r.headers, r.body⟩
  else if r.method.usesQuery then
    ⟨url ++ "?" ++ Query.encode r.params, r.method, r.headers, r.body⟩
  else
    match r.body with
    | some body => ⟨url, r.method, r.headers, some body⟩
    | none =>
      let headers :=
        if r.headers.contains "Content-Type" then r.headers
        else r.headers.put "Content-Type" "application/json"
      ⟨url, r.method, headers, some (Json.ofTable r.params).compact⟩

end Bourse
