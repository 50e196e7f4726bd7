import Bourse.Venue.Signing

/-! # Inquiries

What a venue has to be asked before something about it is known: a question, and by its answer the
next one, until there is a result. An inquiry says what is asked and does nothing else; who runs it
decides how questions are asked. -/

namespace Bourse

/-- A question to a venue. -/
inductive Question where
  /-- An endpoint of the catalogue, by its name. -/
  | endpoint (name : String) (params : Table Json)
  /-- A path of a tier, whether the catalogue lists it or not. -/
  | path (path tier : String) (method : HttpMethod) (params : Table Json)
  /-- A request with all that belongs to it. -/
  | request (r : Request)

/-- Questions to a venue that lead to a result. -/
inductive Inquiry (α : Type) where
  | done (r : Result α)
  /-- Asks a question and goes on with the answer. -/
  | ask (question : Question) (next : Result Json → Inquiry α)

namespace Inquiry

variable {α β : Type}

/-- An inquiry and what follows from its result; a failure ends both. -/
def bind (q : Inquiry α) (f : α → Inquiry β) : Inquiry β :=
  match q with
  | done (.ok a) => f a
  | done (.error e) => done (.error e)
  | ask question next => ask question fun answer => (next answer).bind f

instance : Monad Inquiry where
  pure a := done (.ok a)
  bind := bind

/-- One question, to an endpoint of the catalogue. -/
def question (endpoint : String) (params : Table Json) : Inquiry Json :=
  ask (.endpoint endpoint params) done

instance : MonadLift Result Inquiry := ⟨done⟩

end Inquiry

end Bourse
