import Bourse.Error.Basic

/-! # Attempts

Almost everything that goes wrong is an error that the caller receives. One thing is not: a span of
time that cannot be represented ends the run. An attempt tells the two apart. -/

namespace Bourse

/-- Why an attempt has no result. -/
inductive Failure where
  /-- The caller receives an error. -/
  | failed (e : Error)
  /-- The run has ended. -/
  | aborted

/-- An operation that may fail or end the run. -/
abbrev Attempt := Except Failure

/-- An operation that can only fail, as an attempt. -/
def Attempt.ofResult {α : Type} : Result α → Attempt α
  | .ok a => .ok a
  | .error e => .error (.failed e)

/-- The attempt that fails with an error. -/
def Attempt.fail {α : Type} (e : Error) : Attempt α := .error (.failed e)

end Bourse
