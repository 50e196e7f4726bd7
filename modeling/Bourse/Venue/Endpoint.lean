import Bourse.Venue.Description

/-! # Endpoints by name

Every path of a venue's catalogue is called by a name made of its tier, its method and the words of
the path. Of two catalogue entries with one name the later one counts. -/

namespace Bourse

/-- A path of the catalogue with its name. -/
structure Endpoint where
  name : String
  tier : String
  method : HttpMethod
  path : String

namespace Endpoint

/-- Whether a character belongs to a word of a path. -/
def isWordChar (c : Char) : Bool := c.isAlphanum

/-- The words of a path with capitals at their starts, one behind the other. `start` says whether
the next letter begins a word. -/
def camelFrom : (start : Bool) → List Char → List Char
  | _, [] => []
  | start, c :: cs =>
    if isWordChar c then (if start then c.toUpper else c) :: camelFrom false cs
    else camelFrom true cs

/-- The name of a path under a tier and a method. -/
def nameOf (tier : String) (method : HttpMethod) (path : String) : String :=
  tier ++ method.camel ++ String.ofList (camelFrom true path.toList)

/-- The endpoint of a path. -/
def of (tier : String) (method : HttpMethod) (path : String) : Endpoint :=
  ⟨nameOf tier method path, tier, method, path⟩

end Endpoint

/-- The endpoints of a catalogue by name. -/
abbrev EndpointTable := Table Endpoint

namespace EndpointTable

/-- All endpoints of a catalogue, in its order. -/
def listed (d : Description) : List Endpoint :=
  d.catalogue.flatMap fun e => e.paths.map (Endpoint.of e.tier e.method)

/-- The table of a venue's endpoints. -/
def ofDescription (d : Description) : EndpointTable :=
  .ofList ((listed d).map fun e => (e.name, e))

/-- The endpoint with a name. -/
def resolve (t : EndpointTable) (name : String) : Result Endpoint :=
  Error.require (t.get? name) ("Undefined endpoint \"" ++ name ++ "\"")

/-- The names in ascending order. -/
def names (t : EndpointTable) : List String := (Table.sorted t).map Prod.fst

end EndpointTable

end Bourse
