import Bourse.Error.Basic
import Bourse.Text.Cut

/-! # Tables of failures

How a venue tells what went wrong: codes and messages with one meaning each, keywords inside
messages, and the statuses of responses. -/

namespace Bourse

/-- Codes and messages that have a kind, and keywords in the order in which they are tried. -/
structure ExceptionTable where
  exact : Table ErrorKind := .empty
  broad : List (String × ErrorKind) := []

namespace ExceptionTable

/-- The table without entries. -/
def empty : ExceptionTable := {}

/-- Gives a code or message a kind, in place of the one it had. -/
def withExact (t : ExceptionTable) (key : String) (kind : ErrorKind) : ExceptionTable :=
  { t with exact := t.exact.put key kind }

/-- Adds a keyword behind the others. -/
def withBroad (t : ExceptionTable) (keyword : String) (kind : ErrorKind) : ExceptionTable :=
  { t with broad := t.broad ++ [(keyword, kind)] }

/-- The table with these entries, added in order. -/
def ofLists (exact broad : List (String × ErrorKind)) : ExceptionTable :=
  { exact := .ofList exact, broad }

/-- The kind of a code or message. -/
def exactKind? (t : ExceptionTable) (key : String) : Option ErrorKind := t.exact.get? key

/-- The kind of the first keyword that a message contains. -/
def broadKind? (t : ExceptionTable) (message : String) : Option ErrorKind :=
  (t.broad.find? fun e => Text.contains message e.1).map Prod.snd

/-- Whether the table has no entry. -/
def isEmpty (t : ExceptionTable) : Bool := t.exact.isEmpty && t.broad.isEmpty

end ExceptionTable

/-- Kinds by status; the latest entry of a status counts. -/
structure StatusTable where
  entries : List (Nat × ErrorKind)

namespace StatusTable

/-- The table without entries. -/
def empty : StatusTable := ⟨[]⟩

/-- What statuses mean unless a venue says otherwise. -/
def standard : StatusTable := ⟨[
  (400, .badRequest), (401, .authenticationError), (403, .permissionDenied),
  (404, .exchangeNotAvailable), (407, .authenticationError), (408, .requestTimeout),
  (409, .exchangeNotAvailable), (410, .exchangeNotAvailable), (418, .ddosProtection),
  (422, .exchangeError), (429, .rateLimitExceeded), (451, .exchangeNotAvailable),
  (500, .exchangeNotAvailable), (501, .exchangeNotAvailable), (502, .exchangeNotAvailable),
  (503, .exchangeNotAvailable), (504, .requestTimeout), (511, .authenticationError),
  (520, .exchangeNotAvailable), (521, .exchangeNotAvailable), (522, .exchangeNotAvailable),
  (525, .exchangeNotAvailable), (526, .exchangeNotAvailable), (530, .exchangeNotAvailable)]⟩

/-- Gives a status a kind. -/
def put (t : StatusTable) (status : Nat) (kind : ErrorKind) : StatusTable :=
  ⟨(status, kind) :: t.entries⟩

/-- The kind of a status. A fault of the server that is not listed makes the venue unavailable. -/
def get? (t : StatusTable) (status : Nat) : Option ErrorKind :=
  match t.entries.lookup status with
  | some kind => some kind
  | none => if 500 ≤ status ∧ status < 600 then some .exchangeNotAvailable else none

end StatusTable

end Bourse
