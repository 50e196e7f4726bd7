import Bourse.Okx.Trading
import Bourse.Proofs.Client.LongWait
import Bourse.Proofs.Client.OneAttempt
import Bourse.Proofs.Encoding.Base64

/-! # Calls about one order

Placing, canceling and asking for an order on OKX are one call each: the market is looked up, one
endpoint is called, and the order is read from the answer. A `Dialogue` is what a call and the venue
say to each other; a call returns an order exactly if its dialogue ends with a good response and the
order can be read from it (`run_eq_ok_iff`). -/

namespace Bourse

namespace Okx

open Session

/-- A call about one order. -/
inductive OrderCall where
  | create (r : OrderRequest)
  | cancel (id symbol : String)
  | fetch (id symbol : String)

namespace OrderCall

def run (x : Exchange) : OrderCall → Session Order
  | create r => x.createOrder r
  | cancel id symbol => x.cancelOrder id symbol
  | fetch id symbol => x.fetchOrder id symbol

@[simp] theorem run_create (x : Exchange) (r : OrderRequest) : (create r).run x = x.createOrder r :=
  rfl

def symbol : OrderCall → String
  | create r => r.symbol
  | cancel _ symbol | fetch _ symbol => symbol

def endpoint : OrderCall → String
  | create _ => "privatePostTradeOrder"
  | cancel _ _ => "privatePostTradeCancelOrder"
  | fetch _ _ => "privateGetTradeOrder"

/-- The parameters, the market being known. -/
def params (c : Client) (market : Market) : OrderCall → Session (Table Json)
  | create r => do
    let params ← orderParams c market r
    return match r.clientOrderId with
      | some id => params.put "clOrdId" (.str id)
      | none => params
  | cancel id _ | fetch id _ => return (Client.marketParam "instId" market).put "ordId" (.str id)

/-- What a call asks the venue about: a market that is known by then, and the parameters. -/
def ask (c : Client) (call : OrderCall) : Session (Market × Table Json) := do
  let market ← c.loadedMarket call.symbol
  let params ← call.params c market
  return (market, params)

/-- The order in an answer. -/
def read (c : Client) (market : Market) (answer : Json) : OrderCall → Result Order
  | create r => do return confirm (← readSingle c answer market) r
  | cancel _ _ | fetch _ _ => readSingle c answer market

/-- **A call in three parts**: a question, one call of an endpoint, and the reading of the
answer. -/
theorem run_eq (c : Client) (call : OrderCall) :
    call.run (exchange c) = (do
      let (market, params) ← call.ask c
      let answer ← c.fetch call.endpoint params
      ofResult (call.read c market answer)) := by
  have hread (x : Result Order) (f : Order → Order) :
      ofResult (x >>= fun o => pure (f o)) = ofResult x >>= fun o => pure (f o) := by
    cases x <;> rfl
  cases call with
  | create r =>
    -- completing the acknowledgement is the last step of the call, and part of the reading here
    simp only [run, exchange, createOrder, ask, params, read, OrderCall.symbol, endpoint,
      bind_assoc, pure_bind, hread]
    rfl
  | cancel _ _ | fetch _ _ =>
    simp only [run, exchange, callOrder, ask, params, read, OrderCall.symbol, endpoint, bind_assoc,
      pure_bind]
    rfl

/-! ### Dialogues -/

/-- What a call that begins in a world and the venue say to each other: the question, for which
markets may have to be loaded, the request for it, and the response to that request. -/
structure Dialogue (c : Client) (call : OrderCall) (w : World) where
  market : Market
  params : Table Json
  /-- The world in which the request goes out. -/
  before : World
  request : PreparedRequest
  response : Response
  asked : call.ask c w = (.ok (market, params), before)
  composed : c.outgoing call.endpoint params before.wire.clock = .ok request
  received : (before.wire.transmit c.config.http request).1 = .ok response

variable {c : Client} {call : OrderCall} {w : World}

theorem Dialogue.fetch_apply (d : Dialogue c call w) :
    (c.fetch call.endpoint d.params d.before).1 = c.verdict d.response := by
  rw [Client.fetch_apply, d.composed]
  simp only [Client.deliver_apply, d.received]

/-- **A call returns an order** exactly if it has had a dialogue, the response in it is good, and
the order can be read from its value. -/
theorem run_eq_ok_iff {o : Order} :
    (call.run (exchange c) w).1 = .ok o ↔ ∃ (d : Dialogue c call w) (answer : Json),
      c.verdict d.response = .ok answer ∧ call.read c d.market answer = .ok o := by
  rw [run_eq, fst_bind_eq_ok_iff]
  constructor
  · rintro ⟨⟨market, params⟩, hasked, hrest⟩
    obtain ⟨answer, hfetch, hread⟩ := fst_bind_eq_ok_iff.1 hrest
    rw [fst_ofResult_eq_ok_iff] at hread
    have hpair : call.ask c w = (.ok (market, params), (call.ask c w).2) := Prod.ext hasked rfl
    -- the world after the question is named, since the dialogue keeps it
    generalize (call.ask c w).2 = before at hfetch hpair
    rw [Client.fetch_apply] at hfetch
    cases hout : c.outgoing call.endpoint params before.wire.clock with
    | error e =>
      rw [hout] at hfetch
      cases hfetch
    | ok request =>
      simp only [hout, Client.deliver_apply] at hfetch
      cases hsent : (before.wire.transmit c.config.http request).1 with
      | error e =>
        rw [hsent] at hfetch
        cases hfetch
      | ok response =>
        rw [hsent] at hfetch
        exact ⟨⟨market, params, before, request, response, hpair, hout, hsent⟩, answer, hfetch,
          hread⟩
  · rintro ⟨d, answer, hverdict, hread⟩
    refine ⟨(d.market, d.params), congrArg Prod.fst d.asked, fst_bind_eq_ok_iff.2 ⟨answer, ?_, ?_⟩⟩
    · rw [d.asked]
      exact d.fetch_apply.trans hverdict
    · exact fst_ofResult_eq_ok_iff.2 hread

/-- The request of a dialogue is the last one that the call hands to the wire. -/
theorem Dialogue.handed_run (d : Dialogue c call w) :
    (call.run (exchange c) w).2.wire.handed = d.request :: d.before.wire.handed := by
  have hfetch : (c.fetch call.endpoint d.params d.before).2.wire.handed =
      d.request :: d.before.wire.handed := by
    rw [Client.fetch_apply, d.composed]
    show (c.deliver d.request d.before).2.wire.handed = _
    rw [Client.deliver_apply]
    exact Client.handed_transmit c.config.http d.before.wire d.request
  rw [run_eq, bind_apply, d.asked]
  show ((c.fetch call.endpoint d.params >>= fun answer =>
    ofResult (call.read c d.market answer)) d.before).2.wire.handed = _
  rw [bind_apply]
  generalize c.fetch call.endpoint d.params d.before = fetched at hfetch ⊢
  rcases fetched with ⟨_ | _, after⟩ <;> exact hfetch

/-! ### Failures in a dialogue -/

/-- An order comes from the first of a list of records. -/
theorem exists_record_of_read {market : Market} {answer : Json} {o : Order}
    (h : call.read c market answer = .ok o) : ∃ raw, firstRecord answer = .ok raw := by
  cases call with
  | create r =>
    obtain ⟨placed, hplaced, -⟩ := bind_eq_ok_iff.1 h
    obtain ⟨raw, hraw, -⟩ := bind_eq_ok_iff.1 hplaced
    exact ⟨raw, hraw⟩
  | cancel _ _ | fetch _ _ =>
    obtain ⟨raw, hraw, -⟩ := bind_eq_ok_iff.1 h
    exact ⟨raw, hraw⟩

/-- **The response behind an order** is JSON in which the hook finds no failure. -/
theorem Dialogue.exists_body (d : Dialogue c call w) {answer : Json} {o : Order}
    (hverdict : c.verdict d.response = .ok answer) (hread : call.read c d.market answer = .ok o) :
    ∃ body, Client.decodeBody d.response.body = some body ∧
      c.adapter.inspect d.response (some body) = .ok none := by
  obtain ⟨haccepts, -, hvalue⟩ := Client.verdict_eq_ok_iff.1 hverdict
  obtain ⟨raw, hraw⟩ := exists_record_of_read hread
  cases hvalue with
  | json hjson =>
    have hbody := Client.decodeBody_eq_some_iff.2 hjson
    exact ⟨answer, hbody, hbody ▸ haccepts.hook⟩
  -- there is no record in a blank body or in a text, so that no order is read from them
  | null hblank => cases hraw
  | text hchar hother => cases hraw

end OrderCall

/-- **A failure is found, wherever it stands.** The hook passes a body with a code exactly if that
code and those of all records are zero; otherwise it reports the failure that the body tells of,
with the kind that the table of the venue assigns to it, unless the response asks for too long a
wait. A body without a code is passed. So a call about an order that returns one has had a response
without a failure in it, as long as its body has a code. -/
theorem failures_are_found (config : ClientConfig) :
    (∀ (response : Response) (body : Json) (envelope : String),
      body.getText? "code" = some envelope →
      (adapter.inspect response (some body) = .ok none ↔
        envelope = "0" ∧ ∀ item ∈ body.list "data", Passes item) ∧
      (¬ (envelope = "0" ∧ ∀ item ∈ body.list "data", Passes item) →
        (∃ code message, Tells body code message) ∧ ∀ code message, Tells body code message →
          response.AsksTooLong ∧ adapter.inspect response (some body) = .error .aborted ∨
          ∃ e, adapter.inspect response (some body) = .ok (some (.classified e)) ∧
            e.code = some code ∧ exceptions.Assigns code message e.kind)) ∧
    (∀ (response : Response) (body : Json), body.getText? "code" = none →
      adapter.inspect response (some body) = .ok none) ∧
    ∀ (call : OrderCall) (w : World) (o : Order),
      (call.run (exchange ⟨adapter, config⟩) w).1 = .ok o →
      ∃ (d : OrderCall.Dialogue ⟨adapter, config⟩ call w) (body : Json),
        (call.run (exchange ⟨adapter, config⟩) w).2.wire.handed =
          d.request :: d.before.wire.handed ∧
        Client.decodeBody d.response.body = some body ∧
        ∀ envelope, body.getText? "code" = some envelope →
          envelope = "0" ∧ ∀ item ∈ body.list "data", Passes item := by
  refine ⟨fun response body envelope hcode => ?_, fun response body hcode => ?_,
    fun call w o hrun => ?_⟩
  · refine ⟨inspect_eq_none_iff hcode, fun hfails => ⟨exists_tells hcode hfails, ?_⟩⟩
    intro code message htells
    exact inspect_reports htells
  · exact inspect_of_silent (not_tellsOfFailure_of_no_code hcode)
  · obtain ⟨d, answer, hverdict, hread⟩ := OrderCall.run_eq_ok_iff.1 hrun
    obtain ⟨body, hbody, hhook⟩ := d.exists_body hverdict hread
    exact ⟨d, body, d.handed_run, hbody, fun envelope hcode => (inspect_eq_none_iff hcode).1 hhook⟩

/-! ### A client at work -/

/-- A client with credentials. -/
def trader : Client :=
  ⟨adapter, { credentials :=
    { apiKey := some "key", secret := some "secret", password := some "pass" } }⟩

/-- A market on which prices and amounts are whole tenths. -/
def tenths : Market :=
  { Market.ofPair "BTC-USDT" "BTC" "USDT" with
    precision := { amount := some (.tick 1), price := some (.tick 1) } }

/-- A world in which this market is known and the next request is answered with a body. -/
def answering (body : String) : World :=
  { wire := { script := [.answer { status := 200, content := .bytes (Text.bytes body) }] }
    registry := .ofMarkets [tenths] none .tickSize }

/-- The orders of the trader go out, whatever their parameters are. -/
theorem outgoing_trader (params : Table Json) :
    ∃ p, trader.outgoing "privatePostTradeOrder" params 0 = .ok p ∧ namesHost p.url = true ∧
      Wire.isSendable p = true := by
  -- the digest is left open: it need not be computed to see that it can stand in a header
  obtain ⟨p, hp, hurl, digest, hheaders⟩ : ∃ p,
      trader.outgoing "privatePostTradeOrder" params 0 = .ok p ∧
      p.url = joinUrl (trader.description.withHost "https://{hostname}/api/v5")
        (Template.fill "trade/order" params) ∧ ∃ digest, p.headers.entries =
        [("Content-Type", "application/json"), ("OK-ACCESS-KEY", "key"),
          ("OK-ACCESS-SIGN", Base64.encode digest),
          ("OK-ACCESS-TIMESTAMP", "1970-01-01T00:00:00.000Z"), ("OK-ACCESS-PASSPHRASE", "pass")] :=
    ⟨_, rfl, rfl, _, rfl⟩
  have hpath : Template.fill "trade/order" params = "trade/order" := rfl
  refine ⟨p, hp, ?_, ?_⟩
  · rw [hurl, hpath]
    decide +kernel
  · simp only [Wire.isSendable, hheaders, List.all_cons, List.all_nil,
      Base64.isHeaderValue_encode]
    decide

/-- The acknowledgement of an order, without its amount and price. -/
def acknowledged : String :=
  "\x7b\"code\":\"0\",\"data\":[\x7b\"ordId\":\"7\",\"sCode\":\"0\"\x7d]\x7d"

def acknowledgedRecord : Json := .obj [("ordId", .str "7"), ("sCode", .str "0")]

def acknowledgedBody : Json := .obj [("code", .str "0"), ("data", .arr [acknowledgedRecord])]

theorem decodeBody_acknowledged : Client.decodeBody acknowledged = some acknowledgedBody := by
  cbv

/-- The dialogue about an order of the trader that is acknowledged. -/
theorem exists_dialogue_trader {r : OrderRequest} {params : Table Json}
    (hask : (OrderCall.create r).ask trader (answering acknowledged) =
      (.ok (tenths, params), answering acknowledged)) :
    ∃ d : OrderCall.Dialogue trader (.create r) (answering acknowledged),
      d.market = tenths ∧ d.params = params ∧ d.before = answering acknowledged ∧
        d.response = { status := 200, body := acknowledged } := by
  obtain ⟨p, hp, hurl, hsendable⟩ := outgoing_trader params
  have hurl' : (answering acknowledged).wire.isUrl p.url = true := hurl
  have hresponse : ((answering acknowledged).wire.transmit trader.config.http p).1 =
      .ok { status := 200, body := acknowledged } := by
    unfold Wire.transmit
    simp only [hurl', hsendable]
    rfl
  exact ⟨⟨tenths, params, _, p, _, hask, hp, hresponse⟩, rfl, rfl, rfl, rfl⟩

theorem verdict_acknowledged {response : Response}
    (h : response = { status := 200, body := acknowledged }) :
    trader.verdict response = .ok acknowledgedBody := by
  subst h
  refine Client.verdict_eq_ok_iff.2 ⟨⟨by decide, ?_, ?_⟩, nofun,
    .json (Client.decodeBody_eq_some_iff.1 decodeBody_acknowledged)⟩
  · rw [decodeBody_acknowledged]
    rfl
  · rw [decodeBody_acknowledged]
    refine ⟨?_, ?_, nofun, by decide⟩
    · rintro _ ⟨⟩ _ ⟨⟩
      rfl
    · rintro _ ⟨⟩ _ ⟨⟩

/-- An order on whole tenths. -/
def tenthsOrder : OrderRequest :=
  { symbol := "BTC/USDT", type := .limit, side := .sell
    amount := ⟨false, 5, 1, by decide, by decide⟩
    price := some ⟨false, 250001, 1, by decide, by decide⟩ }

/-- The parameters of a limit order of the trader. -/
def limitParams (size price : String) : Table Json :=
  .ofList [("instId", .str "BTC-USDT"), ("tdMode", .str "cash"), ("side", .str "sell"),
    ("ordType", .str "limit"), ("sz", .str size), ("px", .str price)]

/-- A body with a record without a code, one with the number zero, and one that has failed. -/
def rejected : Json :=
  .obj [("code", .str "0"), ("data", .arr [.obj [("ordId", .str "7")], .obj [("sCode", .ofInt 0)],
    .obj [("sCode", .str "51008"), ("sMsg", .str "Insufficient balance")]])]

/-- The failure is found behind two other records, and an order that is acknowledged is returned. -/
theorem failures_are_found_third :
    (∃ e, adapter.inspect { status := 200 } (some rejected) = .ok (some (.classified e)) ∧
      e.code = some "51008" ∧ e.kind = .insufficientFunds) ∧
    ∃ o, ((OrderCall.create tenthsOrder).run (exchange trader) (answering acknowledged)).1 = .ok o ∧
      ∃ (d : OrderCall.Dialogue trader (.create tenthsOrder) (answering acknowledged))
        (body : Json), Client.decodeBody d.response.body = some body := by
  constructor
  · have hdata : rejected.list "data" =
        [.obj [("ordId", .str "7")], .obj [("sCode", .ofInt 0)]] ++
          .obj [("sCode", .str "51008"), ("sMsg", .str "Insufficient balance")] :: [] := rfl
    have htells : Tells rejected "51008" "Insufficient balance" :=
      .record rfl hdata (by decide) rfl (by decide)
    have hfails : ¬ ("0" = "0" ∧ ∀ item ∈ rejected.list "data", Passes item) := by decide
    have hfound := (((failures_are_found {}).1 { status := 200 } rejected "0" rfl).2 hfails).2
    rcases hfound _ _ htells with ⟨⟨text, hheader, -⟩, -⟩ | ⟨e, he, hcode, hkind⟩
    · cases hheader
    · refine ⟨e, he, hcode, ?_⟩
      rw [← kindOf_eq_iff.2 hkind]
      decide
  · have hask : (OrderCall.create tenthsOrder).ask trader (answering acknowledged) =
        (.ok (tenths, limitParams "0.5" "25000.1"), answering acknowledged) := rfl
    obtain ⟨d, hmarket, -, -, hresponse⟩ := exists_dialogue_trader hask
    obtain ⟨o, ho⟩ : ∃ o, (OrderCall.create tenthsOrder).read trader tenths acknowledgedBody =
        .ok o := ⟨_, rfl⟩
    have hrun : ((OrderCall.create tenthsOrder).run (exchange trader)
        (answering acknowledged)).1 = .ok o :=
      OrderCall.run_eq_ok_iff.2 ⟨d, _, verdict_acknowledged hresponse, hmarket ▸ ho⟩
    obtain ⟨d, body, -, hbody, -⟩ := (failures_are_found trader.config).2.2 _ _ o hrun
    exact ⟨o, hrun, d, body, hbody⟩

/-- **A failure is not reported** if the response asks for too long a wait as well. -/
theorem long_wait_hides_failure :
    ¬ ∀ (response : Response) (body : Json) (code message : String), Tells body code message →
      ∃ e, adapter.inspect response (some body) = .ok (some (.classified e)) ∧
        e.code = some code := by
  intro h
  let response : Response :=
    { status := 200, headers := .ofList [("retry-after", "1e30")] }
  have hwait : response.retryAfter = .error .aborted := by
    rfl
  have htells : Tells (.obj [("code", .str "51008")]) "51008" "" :=
    .envelope rfl (by decide) (by decide)
  obtain ⟨e, he, -⟩ := h response _ _ _ htells
  have hends : adapter.inspect response (some (.obj [("code", .str "51008")])) =
      .error .aborted :=
    inspect_eq_aborted_iff.2 ⟨Response.retryAfter_eq_aborted_iff.1 hwait, _, _, _, rfl, htells⟩
  rw [hends] at he
  cases he

end Okx

end Bourse
