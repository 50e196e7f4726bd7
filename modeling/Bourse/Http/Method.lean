import Bourse.Text.CaseMap

/-! # Request methods

The four methods that venues use. Parameters travel in the query of some and in the body of the
others. -/

namespace Bourse

/-- A request method. -/
inductive HttpMethod where
  | get
  | post
  | put
  | delete
  deriving DecidableEq, Repr

namespace HttpMethod

/-- The method on the wire. -/
def name : HttpMethod → String
  | .get => "GET"
  | .post => "POST"
  | .put => "PUT"
  | .delete => "DELETE"

/-- The method inside an endpoint name. -/
def camel : HttpMethod → String
  | .get => "Get"
  | .post => "Post"
  | .put => "Put"
  | .delete => "Delete"

/-- The method with a name, in any case. -/
def ofName? (name : String) : Option HttpMethod :=
  [get, post, put, delete].find? fun m => m.name == Text.upper name

/-- Whether parameters travel in the query. -/
def usesQuery : HttpMethod → Bool
  | .get | .delete => true
  | .post | .put => false

end HttpMethod

end Bourse
