import Bourse.Proofs.Client.OneAttempt

/-! # What a call does to the world

Whatever a call asks, and whatever is answered, all that it does to the world is to deliver requests
that were prepared for a tier (`Prepares`), and to write down what it has learnt about markets. A
preorder on worlds along which these go is one along which every call goes.

* `along_send`, `along_request`, `along_fetch`: the ways to send a request;
* `along_run`, `along_call`: an inquiry, and any call. -/

namespace Bourse

/-- A call on a client. -/
inductive Call where
  | loadMarkets
  | reloadMarkets
  | setMarkets (markets : List Market) (currencies : Option (List Currency))
  | marketsLoaded
  | market (symbol : String)
  | marketById (id : String)
  | marketOrStub (id : String)
  | currency (code : String)
  | codeOf (id : String)
  | symbols
  | priceText (symbol : String) (price : Decimal)
  | amountText (symbol : String) (amount : Decimal)
  | costText (symbol : String) (cost : Decimal)
  | feeText (symbol : String) (fee : Decimal)
  | currencyText (code : String) (amount : Decimal)
  | fetch (endpoint : String) (params : Table Json)
  | request (path tier : String) (method : HttpMethod) (params : Table Json)
  | send (r : Request)

namespace Call

/-- What a call gives. -/
def Value : Call → Type
  | loadMarkets | reloadMarkets | setMarkets .. => Table Market
  | marketsLoaded => Bool
  | market _ | marketById _ | marketOrStub _ => Market
  | currency _ => Currency
  | symbols => List String
  | codeOf _ | priceText .. | amountText .. | costText .. | feeText .. | currencyText .. => String
  | fetch .. | request .. | send _ => Json

/-- The call as a step of a session. -/
def run (c : Client) : (call : Call) → Session call.Value
  | loadMarkets => c.loadMarkets
  | reloadMarkets => c.reloadMarkets
  | setMarkets markets currencies => c.setMarkets markets currencies
  | marketsLoaded => Client.marketsLoaded
  | market symbol => c.market symbol
  | marketById id => c.marketById id
  | marketOrStub id => Client.marketOrStub id
  | currency code => Client.currency code
  | codeOf id => Client.codeOf id
  | symbols => Client.symbols
  | priceText symbol price => c.priceText symbol price
  | amountText symbol amount => c.amountText symbol amount
  | costText symbol cost => c.costText symbol cost
  | feeText symbol fee => c.feeText symbol fee
  | currencyText code amount => c.currencyText code amount
  | fetch endpoint params => c.fetch endpoint params
  | request path tier method params => c.request path tier method params
  | send r => c.send r

/-- Whether the call is there to set the registry. -/
def isLearning : Call → Bool
  | loadMarkets | reloadMarkets | setMarkets .. => true
  | _ => false

/-- Whether the call sends a request of the caller's choice. -/
def isRequest : Call → Bool
  | fetch .. | request .. | send _ => true
  | _ => false

/-- The tier on which a call sends its request, if it is a call that sends one of the caller's
choice. -/
def tier? (c : Client) : Call → Option String
  | .fetch endpoint _ => (c.endpoints.get? endpoint).map Endpoint.tier
  | .request _ tier _ _ => some tier
  | .send r => some r.tier
  | _ => none

end Call

/-- What a call finds around it: the network and its answers to come, and the time. -/
structure Surroundings where
  reachable : Bool := true
  script : List Reply := []
  clock : Instant := 0
  elapsed : Nat := 0

/-- The world in these surroundings. -/
def World.within (w : World) (x : Surroundings) : World :=
  { w with
    wire := { w.wire with reachable := x.reachable, script := x.script, clock := x.clock }
    elapsed := x.elapsed }

/-- A call in its surroundings. -/
structure Turn where
  around : Surroundings
  call : Call

namespace Client

open Session

variable (c : Client)

/-- The world after a turn. -/
def turn (w : World) (t : Turn) : World := (t.call.run c (w.within t.around)).2

/-- The world after some turns. -/
def play (w : World) (turns : List Turn) : World := turns.foldl c.turn w

/-! ### Calls that are answered from what is known -/

/-- Calls that neither set the registry nor send a request change nothing. -/
theorem keepsWorld_call {call : Call} (hlearning : call.isLearning = false)
    (hrequest : call.isRequest = false) : (call.run c).KeepsWorld := by
  cases call with
  | loadMarkets => cases hlearning
  | reloadMarkets => cases hlearning
  | setMarkets => cases hlearning
  | marketsLoaded => exact keepsWorld_read _
  | market symbol => exact c.keepsWorld_market symbol
  | marketById id => exact c.keepsWorld_marketById id
  | marketOrStub id => exact (keepsWorld_read _).bind fun _ => .pure _
  | currency code => exact keepsWorld_currency code
  | codeOf id => exact (keepsWorld_read _).bind fun _ => .pure _
  | symbols => exact keepsWorld_read _
  | priceText symbol price =>
    exact c.keepsWorld_formatted symbol price .round (·.precision.price)
  | amountText symbol amount =>
    exact c.keepsWorld_formatted symbol amount .truncate (·.precision.amount)
  | costText symbol cost =>
    exact c.keepsWorld_formatted symbol cost .truncate fun m =>
      m.precision.cost.or m.precision.price
  | feeText symbol fee => exact c.keepsWorld_formatted symbol fee .round (·.precision.price)
  | currencyText code amount =>
    exact (keepsWorld_currency code).bind fun _ => keepsWorld_ofResult _
  | fetch endpoint params => cases hrequest
  | request path tier method params => cases hrequest
  | send r => cases hrequest

/-! ### Calls that send a request -/

/-- The request is what some request of the tier is prepared as. -/
def Prepares (tier : String) (p : PreparedRequest) : Prop :=
  ∃ r now, r.tier = tier ∧ c.prepare r now = .ok p

variable {c} {R : World → World → Prop} [IsPreorder World R] {tier : String}

/-- **A request** is delivered as it is prepared for its tier, or fails and nothing has happened. -/
theorem along_send {r : Request}
    (hdeliver : ∀ p, c.Prepares r.tier p → (c.deliver p).Along R) : (c.send r).Along R := by
  intro w
  rw [send_apply]
  cases hprepare : c.prepare r w.wire.clock with
  | error e => exact refl w
  | ok p => exact hdeliver p ⟨r, _, rfl, hprepare⟩ w

theorem along_request (hdeliver : ∀ p, c.Prepares tier p → (c.deliver p).Along R)
    (path : String) (method : HttpMethod) (params : Table Json) :
    (c.request path tier method params).Along R := by
  refine along_ofResult_bind fun r hr => along_send ?_
  have htier : r.tier = tier := (composed_of_compose hr).tier_eq
  rw [htier]
  exact hdeliver

/-- **A call of an endpoint** sends a request of the endpoint's tier. -/
theorem along_fetch {endpoint : String} (hdeliver : ∀ e, c.endpoints.get? endpoint = some e →
      ∀ p, c.Prepares e.tier p → (c.deliver p).Along R) (params : Table Json) :
    (c.fetch endpoint params).Along R := by
  refine along_ofResult_bind fun e he => ?_
  exact along_request (hdeliver e (EndpointTable.resolve_eq_ok_iff.1 he)) e.path e.method params

/-- **A call of the caller's choice** sends requests of its tier. -/
theorem along_request_call {call : Call} (hcall : call.isRequest = true)
    (hdeliver : ∀ tier, call.tier? c = some tier →
      ∀ p, c.Prepares tier p → (c.deliver p).Along R) : (call.run c).Along R := by
  cases call with
  | fetch endpoint params =>
    refine along_fetch (fun e he => hdeliver e.tier ?_) params
    rw [Call.tier?, he]
    rfl
  | request path tier method params => exact along_request (hdeliver tier rfl) path method params
  | send r => exact along_send (hdeliver r.tier rfl)
  | _ => cases hcall

/-! ### Inquiries, and any call -/

variable (hdeliver : ∀ tier p, c.Prepares tier p → (c.deliver p).Along R)
include hdeliver

theorem along_ask (question : Question) : (c.ask question).Along R := by
  cases question with
  | endpoint name params => exact along_fetch (fun e _ => hdeliver e.tier) params
  | path path tier method params => exact along_request (hdeliver tier) path method params
  | request r => exact along_send (hdeliver r.tier)

/-- **An inquiry**, by induction on its questions. -/
theorem along_run {α : Type} (q : Inquiry α) : (c.run q).Along R := by
  induction q with
  | done r => exact (keepsWorld_ofResult r).along
  | ask question next ih =>
    unfold run
    exact (along_ask hdeliver question).outcome.bind ih

/-- A call that is not there to set the registry only delivers requests. -/
theorem along_call_of_not_isLearning {call : Call} (h : call.isLearning = false) :
    (call.run c).Along R := by
  cases hrequest : call.isRequest with
  | true => exact along_request_call hrequest fun tier _ => hdeliver tier
  | false => exact (c.keepsWorld_call h hrequest).along

variable (hregistry : ∀ (w : World) (registry : Registry), R w { w with registry })
include hregistry

theorem along_reloadMarkets : c.reloadMarkets.Along R := by
  refine (along_run hdeliver _).bind fun markets => ?_
  refine (along_run hdeliver _).bind fun currencies => ?_
  exact fun w => hregistry w _

/-- **Any call** goes along what deliveries do, and the writing of what is known. -/
theorem along_call (call : Call) : (call.run c).Along R := by
  cases hlearning : call.isLearning with
  | true =>
    cases call with
    | loadMarkets =>
      refine (keepsWorld_read _).along.bind fun registry => ?_
      split
      · exact (KeepsWorld.pure _).along
      · exact along_reloadMarkets hdeliver hregistry
    | reloadMarkets => exact along_reloadMarkets hdeliver hregistry
    | setMarkets markets currencies => exact fun w => hregistry w _
    | _ => cases hlearning
  | false => exact along_call_of_not_isLearning hdeliver hlearning

end Client

end Bourse
