import Bourse.Binary64.Text
import Bourse.Failure
import Bourse.Http.Message
import Bourse.Power
import Bourse.Text.Blank
import Bourse.Time.MailDate

/-! # How long to wait

A response may ask to wait before the next request: for a number of seconds, or until a date. A
number of seconds that a span of 64 bits cannot hold is no hint but ends the run. -/

namespace Bourse

/-- What a text says about waiting. -/
inductive WaitHint where
  | nothing
  | wait (span : Nanoseconds)
  /-- A finite number of seconds that no span can hold. -/
  | unbounded
  deriving DecidableEq, Repr

namespace WaitHint

/-- A number of seconds as a hint: negative ones are none, and the span is the nearest whole number
of nanoseconds, an exact half going to the even one. -/
def ofSeconds (x : Binary64) : WaitHint :=
  if x.negative && !x.isZero then .nothing
  else if twoTo 64 * x.den ≤ x.num then .unbounded
  else .wait (Rounding.halfEven.divide (x.num * 1000000000) x.den)

/-- The hint in a text that was read at `now`. A date that has passed asks for no wait. -/
def parse (now : Instant) (s : String) : WaitHint :=
  let t := Text.trim s
  match Binary64.ofText? t with
  | some (.finite x) => ofSeconds x
  | some _ => .nothing
  | none =>
    match MailDate.parse? t.toList with
    | some date => .wait ((date - now).toNat * 1000000)
    | none => .nothing

/-- The span, if waiting is asked for at all. -/
def span? : WaitHint → Attempt (Option Nanoseconds)
  | .nothing => .ok none
  | .wait span => .ok (some span)
  | .unbounded => .error .aborted

end WaitHint

/-- The wait that a response asks for. -/
def Response.retryAfter (r : Response) : Attempt (Option Nanoseconds) :=
  match r.header? "retry-after" with
  | some text => (WaitHint.parse r.receivedAt text).span?
  | none => .ok none

end Bourse
