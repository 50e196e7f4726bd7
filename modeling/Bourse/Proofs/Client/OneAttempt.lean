import Bourse.Proofs.Client.Arguments
import Bourse.Proofs.Client.Verdict
import Bourse.Proofs.Result

/-! # One attempt

A call of an endpoint puts one request together or fails on the way; the request goes to the wire
once, and what the wire gives back is the answer or is judged.

* `outgoing_eq_error_iff`: what can stop a call before anything is sent;
* `fetch_apply`, `deliver_apply`: a call in two parts, up to the request and from there on;
* `one_attempt`: the property. The run ends without an answer only where the verdict has none
  (`long_wait_ends_the_run`). -/

namespace Bourse

open Session

/-! ### Addresses -/

theorem Description.baseUrl_eq_error_iff {d : Description} {tier : String} {sandbox : Bool}
    {overrides : Table String} {e : Error} :
    d.baseUrl tier sandbox overrides = .error e ↔ overrides.get? tier = none ∧
      (sandbox = false ∧ d.urls.get? tier = none ∧
        e = .internal (d.id ++ " has no url for api tier \"" ++ tier ++ "\"") ∨
      sandbox = true ∧ d.testUrls.get? tier = none ∧
        e = .make .notSupported (d.id ++ " has no sandbox url for \"" ++ tier ++ "\"")) := by
  unfold Description.baseUrl
  cases overrides.get? tier with
  | some url => simp
  | none =>
    cases sandbox with
    | true => cases d.testUrls.get? tier <;> simp [eq_comm]
    | false => cases d.urls.get? tier <;> simp [eq_comm]

theorem EndpointTable.resolve_eq_ok_iff {t : EndpointTable} {name : String} {e : Endpoint} :
    t.resolve name = .ok e ↔ Table.get? t name = some e := require_eq_ok_iff

namespace Client

variable {c : Client} {endpoint : String} {params : Table Json} {now : Instant}

/-! ### Before anything is sent -/

/-- The request that a call of an endpoint hands to the wire, or the failure that stops it. -/
def outgoing (c : Client) (endpoint : String) (params : Table Json) (now : Instant) :
    Result PreparedRequest := do
  let e ← c.endpoints.resolve endpoint
  let request ← c.compose e.path e.tier e.method params
  c.prepare request now

/-- What stops a call before anything is sent. -/
inductive LocalFailure (c : Client) (endpoint : String) (params : Table Json) (now : Instant) :
    Error → Prop
  | unknown : c.endpoints.get? endpoint = none →
      LocalFailure c endpoint params now (.internal ("Undefined endpoint \"" ++ endpoint ++ "\""))
  | missing {e : Endpoint} {n : String} : c.endpoints.get? endpoint = some e →
      missing? e.path params = some n →
      LocalFailure c endpoint params now (.make .argumentsRequired
        (c.id ++ " " ++ e.path ++ " requires a \"" ++ n ++ "\" argument"))
  | noUrl {e : Endpoint} : c.endpoints.get? endpoint = some e → missing? e.path params = none →
      c.config.urlOverrides.get? e.tier = none → c.config.sandbox = false →
      c.description.urls.get? e.tier = none →
      LocalFailure c endpoint params now
        (.internal (c.id ++ " has no url for api tier \"" ++ e.tier ++ "\""))
  | noSandboxUrl {e : Endpoint} : c.endpoints.get? endpoint = some e →
      missing? e.path params = none → c.config.urlOverrides.get? e.tier = none →
      c.config.sandbox = true → c.description.testUrls.get? e.tier = none →
      LocalFailure c endpoint params now
        (.make .notSupported (c.id ++ " has no sandbox url for \"" ++ e.tier ++ "\""))
  | unsigned {e : Endpoint} {url : String} {err : Error} : c.endpoints.get? endpoint = some e →
      missing? e.path params = none →
      c.description.baseUrl e.tier c.config.sandbox c.config.urlOverrides = .ok url →
      c.adapter.sign (filledRequest e.path e.tier e.method params) (c.signContext url now)
        = .error err →
      LocalFailure c endpoint params now err

theorem outgoing_of_unknown (h : c.endpoints.get? endpoint = none) :
    c.outgoing endpoint params now =
      .error (.internal ("Undefined endpoint \"" ++ endpoint ++ "\"")) := by
  rw [outgoing, EndpointTable.resolve, h]
  rfl

theorem outgoing_of_missing {e : Endpoint} {n : String} (h : c.endpoints.get? endpoint = some e)
    (hn : missing? e.path params = some n) :
    c.outgoing endpoint params now = .error (.make .argumentsRequired
      (c.id ++ " " ++ e.path ++ " requires a \"" ++ n ++ "\" argument")) := by
  rw [outgoing, EndpointTable.resolve, h]
  show (c.compose e.path e.tier e.method params >>= fun r => c.prepare r now) = _
  rw [compose_of_missing hn]
  rfl

theorem outgoing_of_present {e : Endpoint} (h : c.endpoints.get? endpoint = some e)
    (hn : missing? e.path params = none) :
    c.outgoing endpoint params now =
      c.prepare (filledRequest e.path e.tier e.method params) now := by
  rw [outgoing, EndpointTable.resolve, h]
  show (c.compose e.path e.tier e.method params >>= fun r => c.prepare r now) = _
  rw [compose_of_present hn]
  rfl

/-- **What stops a call** before anything is sent. -/
theorem outgoing_eq_error_iff {err : Error} :
    c.outgoing endpoint params now = .error err ↔ c.LocalFailure endpoint params now err := by
  constructor
  · intro hout
    cases hname : c.endpoints.get? endpoint with
    | none =>
      rw [outgoing_of_unknown hname] at hout
      cases hout
      exact .unknown hname
    | some e =>
      cases hmissing : missing? e.path params with
      | some n =>
        rw [outgoing_of_missing hname hmissing] at hout
        cases hout
        exact .missing hname hmissing
      | none =>
        rw [outgoing_of_present hname hmissing, prepare, bind_eq_error_iff] at hout
        rcases hout with hurl | ⟨url, hurl, hsign⟩
        · obtain ⟨hover, ⟨hlive, hnone, rfl⟩ | ⟨hsandbox, hnone, rfl⟩⟩ :=
            Description.baseUrl_eq_error_iff.1 hurl
          · exact .noUrl hname hmissing hover hlive hnone
          · exact .noSandboxUrl hname hmissing hover hsandbox hnone
        · exact .unsigned hname hmissing hurl hsign
  · intro hfail
    cases hfail with
    | unknown hname => exact outgoing_of_unknown hname
    | missing hname hmissing => exact outgoing_of_missing hname hmissing
    | noUrl hname hmissing hover hlive hnone =>
      rw [outgoing_of_present hname hmissing, prepare, bind_eq_error_iff]
      exact .inl (Description.baseUrl_eq_error_iff.2 ⟨hover, .inl ⟨hlive, hnone, rfl⟩⟩)
    | noSandboxUrl hname hmissing hover hsandbox hnone =>
      rw [outgoing_of_present hname hmissing, prepare, bind_eq_error_iff]
      exact .inl (Description.baseUrl_eq_error_iff.2 ⟨hover, .inr ⟨hsandbox, hnone, rfl⟩⟩)
    | unsigned hname hmissing hurl hsign =>
      rw [outgoing_of_present hname hmissing, prepare, bind_eq_error_iff]
      exact .inr ⟨_, hurl, hsign⟩

/-! ### From the request on -/

/-- **Waiting** always ends, and only time and the bucket are not as before. -/
theorem exists_throttle (cost : Rat) (w : World) :
    ∃ bucket elapsed, throttle cost w = (.ok (), { w with bucket, elapsed }) := by
  unfold throttle
  split
  · exact ⟨w.bucket, w.elapsed, rfl⟩
  · exact ⟨_, _, rfl⟩

theorem transmit_apply (c : Client) (p : PreparedRequest) (w : World) :
    c.transmit p w = (Attempt.ofResult (w.wire.transmit c.config.http p).1,
      { w with
        wire := (w.wire.transmit c.config.http p).2
        departures := w.elapsed :: w.departures }) := rfl

theorem handed_transmit (config : HttpConfig) (wire : Wire) (p : PreparedRequest) :
    (wire.transmit config p).2.handed = p :: wire.handed := by
  unfold Wire.transmit
  dsimp only
  repeat' split
  all_goals rfl

/-- Waits for a turn, hands a request to the wire, and judges what comes back. -/
def deliver (c : Client) (p : PreparedRequest) : Session Json := do
  throttle 1
  let response ← c.transmit p
  ofAttempt (c.verdict response)

/-- **What comes back** is the failure of the wire as it is, or the verdict on a response. -/
theorem deliver_apply (c : Client) (p : PreparedRequest) (w : World) :
    c.deliver p w = (match (w.wire.transmit c.config.http p).1 with
      | .ok response => c.verdict response
      | .error e => .error (.failed e),
      { (throttle 1 w).2 with
        wire := (w.wire.transmit c.config.http p).2
        departures := (throttle 1 w).2.elapsed :: w.departures }) := by
  obtain ⟨bucket, elapsed, hthrottle⟩ := exists_throttle 1 w
  unfold deliver
  rw [bind_apply, hthrottle]
  show (c.transmit p >>= fun response => ofAttempt (c.verdict response))
    { w with bucket, elapsed } = _
  rw [bind_apply, transmit_apply]
  dsimp only
  rcases w.wire.transmit c.config.http p with ⟨_ | _, wire⟩ <;> rfl

theorem ofAttempt_bind_pure {α β : Type} (a : Attempt α) (b : β) :
    (ofAttempt a >>= fun _ => pure b) = ofAttempt (a >>= fun _ => pure b) := by
  funext w
  cases a <;> rfl

theorem send_apply (c : Client) (r : Request) (w : World) :
    c.send r w = match c.prepare r w.wire.clock with
      | .ok p => c.deliver p w
      | .error e => (.error (.failed e), w) := by
  unfold send
  simp only [ofAttempt_bind_pure]
  show (ofResult (c.prepare r w.wire.clock) >>= c.deliver) w = _
  cases c.prepare r w.wire.clock <;> rfl

theorem fetch_of_unknown (h : c.endpoints.get? endpoint = none) (w : World) :
    c.fetch endpoint params w =
      (.error (.failed (.internal ("Undefined endpoint \"" ++ endpoint ++ "\""))), w) := by
  show (ofResult (c.endpoints.resolve endpoint) >>= fun e =>
    c.request e.path e.tier e.method params) w = _
  rw [EndpointTable.resolve, h]
  rfl

theorem fetch_of_endpoint {e : Endpoint} (h : c.endpoints.get? endpoint = some e) (w : World) :
    c.fetch endpoint params w = c.request e.path e.tier e.method params w := by
  show (ofResult (c.endpoints.resolve endpoint) >>= fun e =>
    c.request e.path e.tier e.method params) w = _
  rw [EndpointTable.resolve_eq_ok_iff.2 h, ofResult_bind_ok]

/-- **A call in two parts**, up to the request and from there on. -/
theorem fetch_apply (c : Client) (endpoint : String) (params : Table Json) (w : World) :
    c.fetch endpoint params w = match c.outgoing endpoint params w.wire.clock with
      | .ok p => c.deliver p w
      | .error e => (.error (.failed e), w) := by
  cases hname : c.endpoints.get? endpoint with
  | none => rw [fetch_of_unknown hname, outgoing_of_unknown hname]
  | some e =>
    rw [fetch_of_endpoint hname]
    cases hmissing : missing? e.path params with
    | some n => rw [request_of_missing hmissing, outgoing_of_missing hname hmissing]
    | none => rw [request_of_present hmissing, outgoing_of_present hname hmissing, send_apply]

/-! ### The call as a whole -/

/-- The client with another hook of the adapter and other tables of failures. -/
def judging (c : Client) (inspect : Response → Option Json → Attempt (Option Error))
    (exceptions : ExceptionTable) (statuses : StatusTable) : Client :=
  { c with adapter := { c.adapter with
      inspect, description := { c.adapter.description with exceptions, statuses } } }

theorem outgoing_judging (c : Client)
    (inspect : Response → Option Json → Attempt (Option Error)) (exceptions : ExceptionTable)
    (statuses : StatusTable) (endpoint : String) (params : Table Json) (now : Instant) :
    (c.judging inspect exceptions statuses).outgoing endpoint params now =
      c.outgoing endpoint params now := rfl

/-- What becomes of a call whose request is handed to the wire. -/
structure Delivered (c : Client) (endpoint : String) (params : Table Json) (w : World)
    (p : PreparedRequest) : Prop where
  /-- It is handed over once. -/
  handed : (c.fetch endpoint params w).2.wire.handed = p :: w.wire.handed
  /-- A failure of the wire is the answer. -/
  lost : ∀ e, (w.wire.transmit c.config.http p).1 = .error e →
    (c.fetch endpoint params w).1 = .error (.failed e)
  /-- Neither the adapter nor the tables have a say in it. -/
  unjudged : ∀ e, (w.wire.transmit c.config.http p).1 = .error e →
    ∀ inspect exceptions statuses, (c.judging inspect exceptions statuses).fetch endpoint params w
      = c.fetch endpoint params w
  /-- The value is that of a good response. -/
  value : ∀ response, (w.wire.transmit c.config.http p).1 = .ok response → ∀ v,
    ((c.fetch endpoint params w).1 = .ok v ↔
      c.Accepts response ∧ response.retryAfter ≠ .error .aborted ∧ ValueOf response.body v)
  /-- The failure that the adapter finds is the answer. -/
  hooked : ∀ response, (w.wire.transmit c.config.http p).1 = .ok response → ∀ e,
    c.adapter.inspect response (decodeBody response.body) = .ok (some e) →
      (c.fetch endpoint params w).1 = .error (.failed e)
  /-- Every other response is an error for the caller. -/
  refused : ∀ response, (w.wire.transmit c.config.http p).1 = .ok response →
    ¬ c.Accepts response →
    c.adapter.inspect response (decodeBody response.body) ≠ .error .aborted →
    response.retryAfter ≠ .error .aborted → ∃ e, (c.fetch endpoint params w).1 = .error (.failed e)
  /-- The run ends if the adapter ends it, or if it finds nothing and the response asks for a wait
  that no span of time can hold. -/
  aborted_iff : (c.fetch endpoint params w).1 = .error .aborted ↔
    ∃ response, (w.wire.transmit c.config.http p).1 = .ok response ∧
      (c.adapter.inspect response (decodeBody response.body) = .error .aborted ∨
        c.adapter.inspect response (decodeBody response.body) = .ok none ∧
          response.retryAfter = .error .aborted)

theorem delivered_of_outgoing {w : World} {p : PreparedRequest}
    (h : c.outgoing endpoint params w.wire.clock = .ok p) : c.Delivered endpoint params w p := by
  have hfetch : c.fetch endpoint params w = c.deliver p w := by
    rw [fetch_apply, h]
  have hlost : ∀ e, (w.wire.transmit c.config.http p).1 = .error e →
      (c.fetch endpoint params w).1 = .error (.failed e) := by
    intro e he
    rw [hfetch, deliver_apply, he]
  have hverdict : ∀ response, (w.wire.transmit c.config.http p).1 = .ok response →
      (c.fetch endpoint params w).1 = c.verdict response := by
    intro response hresponse
    rw [hfetch, deliver_apply, hresponse]
  constructor
  · rw [hfetch, deliver_apply]
    exact handed_transmit c.config.http w.wire p
  · exact hlost
  · intro e he inspect exceptions statuses
    have hconfig : (c.judging inspect exceptions statuses).config = c.config := rfl
    have hjudged : (c.judging inspect exceptions statuses).fetch endpoint params w =
        (c.judging inspect exceptions statuses).deliver p w := by
      rw [fetch_apply, outgoing_judging, h]
    rw [hjudged, hfetch, deliver_apply, deliver_apply, hconfig, he]
  · intro response hresponse v
    rw [hverdict response hresponse]
    exact verdict_eq_ok_iff
  · intro response hresponse e hhook
    rw [hverdict response hresponse]
    exact verdict_of_hook hhook
  · intro response hresponse hrefused hhook hwait
    rw [hverdict response hresponse]
    exact verdict_of_not_accepts hrefused hhook hwait
  · constructor
    · intro haborted
      cases hsent : (w.wire.transmit c.config.http p).1 with
      | error e =>
        rw [hlost e hsent] at haborted
        cases haborted
      | ok response =>
        rw [hverdict response hsent] at haborted
        exact ⟨response, rfl, verdict_eq_aborted_iff.1 haborted⟩
    · rintro ⟨response, hresponse, habort⟩
      rw [hverdict response hresponse]
      exact verdict_eq_aborted_iff.2 habort

/-- **One attempt, nothing swallowed.** A call of an endpoint fails before anything is sent, with
the world as it was, or it hands one request to the wire. -/
theorem one_attempt (c : Client) (endpoint : String) (params : Table Json) (w : World) :
    (∃ e, c.LocalFailure endpoint params w.wire.clock e ∧
      c.fetch endpoint params w = (.error (.failed e), w)) ∨
    ∃ p, (∀ e, ¬ c.LocalFailure endpoint params w.wire.clock e) ∧
      c.outgoing endpoint params w.wire.clock = .ok p ∧ c.Delivered endpoint params w p := by
  cases hout : c.outgoing endpoint params w.wire.clock with
  | error e =>
    refine .inl ⟨e, outgoing_eq_error_iff.1 hout, ?_⟩
    rw [fetch_apply, hout]
  | ok p =>
    refine .inr ⟨p, fun e he => ?_, rfl, delivered_of_outgoing hout⟩
    rw [outgoing_eq_error_iff.2 he] at hout
    cases hout

/-- A venue with one path and no signatures. -/
def demo : Adapter where
  description :=
    { id := "demo", name := "Demo", urls := .ofList [("public", "https://demo.com")]
      catalogue := [⟨"public", .get, ["time"]⟩] }
  parseMarket := fun _ => .ok none
  parseOrder := fun _ _ => .error (.internal "no orders")
  markets := pure []

/-- The request for its path. -/
def demoRequest : PreparedRequest := ⟨"https://demo.com/time", .get, .empty, none⟩

theorem outgoing_demo :
    (⟨demo, {}⟩ : Client).outgoing "publicGetTime" .empty 0 = .ok demoRequest := by
  rfl

/-- A call of its path that is answered with a text. -/
theorem one_attempt_demo :
    let c : Client := ⟨demo, {}⟩
    let w : World := c.world { script := [.answer
      { status := 200, content := .bytes (Text.bytes "noon") }] }
    (c.fetch "publicGetTime" .empty w).1 = .ok (.str "noon") ∧
      ((c.fetch "publicGetTime" .empty w).2.wire.handed.map PreparedRequest.url) =
        ["https://demo.com/time"] := by
  intro c w
  have hout : c.outgoing "publicGetTime" .empty w.wire.clock = .ok demoRequest := outgoing_demo
  obtain ⟨e, hfail, -⟩ | ⟨p, -, hp, hdelivered⟩ := one_attempt c "publicGetTime" .empty w
  · rw [outgoing_eq_error_iff.2 hfail] at hout
    cases hout
  · obtain rfl : demoRequest = p := Except.ok.inj (hout.symm.trans hp)
    let response : Response := { status := 200, body := "noon" }
    have hresponse : (w.wire.transmit c.config.http demoRequest).1 = .ok response := by
      rfl
    have hdecoded : decodeBody "noon" = none := by
      rfl
    have hvalue : ValueOf response.body (.str "noon") :=
      .text ⟨'n', by decide, by decide⟩ (decodeBody_eq_none_iff.1 hdecoded)
    have haccepts : c.Accepts response := by
      refine ⟨by decide, rfl, ?_⟩
      show c.classifier.Unmatched response (decodeBody "noon")
      rw [hdecoded]
      refine ⟨?_, ?_, fun _ => by decide, rfl⟩
      · rintro body ⟨⟩
      · rintro body ⟨⟩
    refine ⟨(hdelivered.value response hresponse _).2 ⟨haccepts, ?_, hvalue⟩, ?_⟩
    · rintro ⟨⟩
    · rw [hdelivered.handed]
      rfl

/-- **A wait without end ends the run**: a venue that is down and asks for a wait of more seconds
than a span of time can hold is not reported as an error. -/
theorem long_wait_ends_the_run :
    let c : Client := ⟨demo, {}⟩
    let answer : Answer := { status := 500, headers := [("retry-after", "1e30")] }
    (c.fetch "publicGetTime" .empty (c.world { script := [.answer answer] })).1 =
      .error .aborted := by
  intro c answer
  let response : Response :=
    { status := 500, headers := .ofList [("retry-after", "1e30")] }
  have hwait : response.retryAfter = .error .aborted := by
    rfl
  have hverdict : c.verdict response = .error .aborted :=
    verdict_eq_aborted_iff.2 (.inr ⟨rfl, hwait⟩)
  have hout : c.outgoing "publicGetTime" .empty
      (c.world { script := [.answer answer] }).wire.clock = .ok demoRequest := outgoing_demo
  rw [fetch_apply, hout]
  show (c.deliver demoRequest (c.world { script := [.answer answer] })).1 = _
  rw [deliver_apply]
  exact hverdict

end Client

end Bourse
