import Bourse.Error.Basic

/-! # Credentials

What a client shows to a venue to be let in. A venue requires some of the credentials, and an empty
one counts as missing. Secrets have a text form that does not give them away. -/

namespace Bourse

/-- The credentials of an account, as far as they are known. -/
structure Credentials where
  apiKey : Option String := none
  secret : Option String := none
  password : Option String := none
  uid : Option String := none
  deriving DecidableEq

/-- Which credentials a venue requires. -/
structure RequiredCredentials where
  apiKey : Bool := false
  secret : Bool := false
  password : Bool := false
  uid : Bool := false
  deriving DecidableEq, Repr

namespace RequiredCredentials

/-- Key and secret. -/
def keyAndSecret : RequiredCredentials := { apiKey := true, secret := true }

/-- Key, secret and password. -/
def keySecretAndPassword : RequiredCredentials :=
  { apiKey := true, secret := true, password := true }

end RequiredCredentials

namespace Credentials

/-- A credential that is there and not empty. -/
def present? (value : Option String) : Option String := value.filter fun s => s != ""

/-- The required credentials with their names, in the order in which they are asked for. -/
def demanded (c : Credentials) (r : RequiredCredentials) : List (String × Option String) :=
  [(r.apiKey, "apiKey", c.apiKey), (r.secret, "secret", c.secret),
    (r.password, "password", c.password), (r.uid, "uid", c.uid)].filterMap
      fun (needed, name, value) => if needed then some (name, value) else none

/-- Refuses credentials that lack a required one; the first such is named. -/
def check (c : Credentials) (venue : String) (r : RequiredCredentials) : Result Unit :=
  match (c.demanded r).find? fun e => (present? e.2).isNone with
  | some (name, _) =>
    .error (.make .authenticationError (venue ++ " requires \"" ++ name ++ "\" credential"))
  | none => .ok ()

/-- A credential by name, which has to be there. -/
def expose (value : Option String) (name : String) : Result String :=
  match present? value with
  | some s => .ok s
  | none => .error (.make .authenticationError ("Missing \"" ++ name ++ "\" credential"))

/-- The key. -/
def needKey (c : Credentials) : Result String := expose c.apiKey "apiKey"

/-- The secret. -/
def needSecret (c : Credentials) : Result String := expose c.secret "secret"

/-- The password. -/
def needPassword (c : Credentials) : Result String := expose c.password "password"

/-! ### Text form -/

/-- What is shown in the place of a secret. -/
def redacted : String := "[REDACTED]"

/-- A credential in the text form: whether it is there, and nothing else. -/
def shown (value : Option String) : String :=
  match value with
  | some _ => "Some(" ++ redacted ++ ")"
  | none => "None"

/-- The text form of credentials. -/
def text (c : Credentials) : String :=
  "Credentials \x7b api_key: " ++ shown c.apiKey ++ ", secret: " ++ shown c.secret
    ++ ", password: " ++ shown c.password ++ ", uid: " ++ shown c.uid ++ " \x7d"

end Credentials

end Bourse
