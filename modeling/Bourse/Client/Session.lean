import Bourse.Failure
import Bourse.Http.Wire
import Bourse.Limiter
import Bourse.Registry

/-! # Sessions

A session is what happens when calls are made on a client, one after the other. It runs in a world
that holds the wire, the markets that are known, the bucket of the limiter and a record of the times
at which requests went out. A failure ends the call that it happens in and leaves the world as it is
at that point. -/

namespace Bourse

/-- What the calls of a session share. -/
structure World where
  wire : Wire := {}
  registry : Registry := {}
  /-- The bucket of the limiter, if requests are limited. -/
  bucket : Option Bucket := none
  /-- Nanoseconds since the session began. -/
  elapsed : Nat := 0
  /-- When requests were handed to the wire, the latest first. -/
  departures : List Nat := []

/-- A step of a session. -/
abbrev Session := ExceptT Failure (StateM World)

namespace Session

variable {α : Type}

/-- An attempt as a step that leaves the world alone. -/
def ofAttempt (a : Attempt α) : Session α := fun w => (a, w)

/-- An outcome as a step that leaves the world alone. -/
def ofResult (r : Result α) : Session α := ofAttempt (.ofResult r)

/-- The step that fails with an error. -/
def fail (e : Error) : Session α := ofResult (.error e)

/-- The step that reads something off the world. -/
def read (f : World → α) : Session α := fun w => (.ok (f w), w)

instance : MonadLift Result Session := ⟨ofResult⟩

/-- The outcome of a step that has failed or succeeded as a value. Only an end of the run is not
caught. -/
def outcome (s : Session α) : Session (Result α) := fun w =>
  match s w with
  | (.ok a, w') => (.ok (.ok a), w')
  | (.error (.failed e), w') => (.ok (.error e), w')
  | (.error .aborted, w') => (.error .aborted, w')

end Session

end Bourse
