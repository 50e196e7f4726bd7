import Bourse.Classify.Tables
import Bourse.Classify.WaitHint

/-! # Classifying responses

Whether a response reports a failure, and which. Evidence is looked for in stages: the code and the
message of a decoded body in the venue's tables, well-known phrases in a body that is no JSON, and
at last the status. -/

namespace Bourse

/-- What is needed to classify the responses of a venue. -/
structure Classifier where
  venue : String
  exceptions : ExceptionTable
  statuses : StatusTable

namespace Classifier

/-- The object in a body that tells about a failure: a nested one, or the body itself. -/
def errorSource (body : Json) : Json :=
  match body.get? "error" with
  | some (.obj entries) => .obj entries
  | _ => body

/-- The code in a body. -/
def errorCode? (body : Json) : Option String :=
  Json.either Json.getText? (errorSource body) "code" "error_code"

/-- The message in a body. -/
def errorMessage? (body : Json) : Option String :=
  let source := errorSource body
  (Json.either Json.getText? source "msg" "message").or (source.getText? "error")

/-- Whether a text has one of some phrases. -/
def hasPhrase (phrases : List String) (text : String) : Bool :=
  phrases.any fun p => Text.contains text p

/-- The kind that phrases in a body point to, whatever their case: a shield against attacks before
maintenance before a venue that is down. -/
def phraseKind? (body : String) : Option ErrorKind :=
  let text := Text.lower body
  if hasPhrase ["cloudflare", "incapsula", "ddos"] text then some .ddosProtection
  else if hasPhrase ["maintenance"] text then some .onMaintenance
  else if hasPhrase ["temporarily unavailable", "service unavailable"] text then
    some .exchangeNotAvailable
  else none

/-- The kind that a decoded body has by the tables: its code counts before its message, and whole
messages before keywords. -/
def tableKind? (t : ExceptionTable) (code message : Option String) : Option ErrorKind :=
  ((code.bind t.exactKind?).or (message.bind t.exactKind?)).or (message.bind t.broadKind?)

/-- The kind that the body gives away, with the code that goes with it. -/
def bodyKind? (c : Classifier) (response : Response) (decoded : Option Json) :
    Option (ErrorKind × Option String) :=
  match decoded with
  | some body =>
    let code := errorCode? body
    (tableKind? c.exceptions code (errorMessage? body)).map fun kind => (kind, code)
  | none => (phraseKind? response.body).map fun kind => (kind, none)

/-- The kind that the status has. -/
def statusKind? (c : Classifier) (response : Response) : Option ErrorKind :=
  (c.statuses.get? response.status).or
    (if response.isSuccess then none else some .exchangeError)

/-- The kind and the code of the failure that a response reports. -/
def kind? (c : Classifier) (response : Response) (decoded : Option Json) :
    Option (ErrorKind × Option String) :=
  (c.bodyKind? response decoded).or ((c.statusKind? response).map fun kind => (kind, none))

/-- The failure that a response reports. Its message is the venue and the body, cut to length. -/
def detect (c : Classifier) (response : Response) (decoded : Option Json) :
    Attempt (Option ClassifiedError) := do
  let retryAfter ← response.retryAfter
  return (c.kind? response decoded).map fun (kind, code) =>
    { kind, code, retryAfter
      message := Error.truncate (c.venue ++ " " ++ response.body)
      data := decoded }

/-- Passes a response that reports no failure. -/
def classify (c : Classifier) (response : Response) (decoded : Option Json) : Attempt Unit := do
  match ← c.detect response decoded with
  | some e => .fail (.classified e)
  | none => return ()

end Classifier

end Bourse
