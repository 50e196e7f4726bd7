import Bourse.Binance.Trading
import Bourse.Okx.Trading
import Bourse.Proofs.Binance.Signing
import Bourse.Proofs.Client.Handed
import Bourse.Proofs.Http.Url

/-! # Clients in the sandbox

A client that is configured for the sandbox never reaches live trading, whatever else its owner
configures and whatever is called on it. On OKX every request is marked; on Binance every request
goes to the test network, unless the owner has given an address for its tier; and a tier without an
address of the sandbox cannot be called.

* `Okx.marked_of_prepares`, `Binance.url_of_prepares`: what a prepared request is like;
* `run_of_no_url`: calls on a tier without an address;
* `sandbox_never_live`: the property, for single calls and for sessions. -/

namespace Bourse

open Session

/-! ### Tiers without an address -/

namespace Client

variable {c : Client} {w : World}

theorem eq_of_make {adapter : Adapter} {config : ClientConfig} (h : make adapter config = .ok c) :
    c = ⟨adapter, config⟩ := by
  obtain ⟨_, -, h⟩ := bind_eq_ok_iff.1 h
  exact (Except.ok.inj h).symm

theorem send_of_no_url {r : Request} {e : Error}
    (h : c.description.baseUrl r.tier c.config.sandbox c.config.urlOverrides = .error e) :
    c.send r w = (.error (.failed e), w) := by
  have hprepare : c.prepare r w.wire.clock = .error e := bind_eq_error_iff.2 (.inl h)
  rw [send_apply, hprepare]

theorem request_of_no_url {path tier : String} {method : HttpMethod} {params : Table Json}
    {e : Error}
    (h : c.description.baseUrl tier c.config.sandbox c.config.urlOverrides = .error e) :
    ∃ err, c.request path tier method params w = (.error (.failed err), w) := by
  cases hmissing : missing? path params with
  | some n => exact ⟨_, request_of_missing hmissing w⟩
  | none =>
    refine ⟨e, ?_⟩
    rw [request_of_present hmissing]
    exact send_of_no_url h

/-- **A call on a tier without an address** fails, and nothing has happened then. -/
theorem run_of_no_url {call : Call} {tier : String} {e : Error} (htier : call.tier? c = some tier)
    (h : c.description.baseUrl tier c.config.sandbox c.config.urlOverrides = .error e) :
    ∃ err, call.run c w = (.error (.failed err), w) := by
  cases call with
  | fetch endpoint params =>
    obtain ⟨entry, hentry, rfl⟩ := Option.map_eq_some_iff.1 htier
    show ∃ err, c.fetch endpoint params w = _
    rw [fetch_of_endpoint hentry]
    exact request_of_no_url h
  | request path tier' method params =>
    obtain rfl : tier' = tier := Option.some.inj htier
    exact request_of_no_url h
  | send r =>
    obtain rfl : r.tier = tier := Option.some.inj htier
    exact ⟨e, send_of_no_url h⟩
  | _ => cases htier

end Client

/-! ### OKX -/

namespace Okx

/-- The header that tells a request of the sandbox from a live one. -/
def IsMarked (p : PreparedRequest) : Prop := p.headers.get? "x-simulated-trading" = some "1"

theorem isMarked_markDemo {options : Table Json} (h : isDemo options = true)
    (p : PreparedRequest) : IsMarked (markDemo options p) := by
  unfold IsMarked markDemo
  rw [if_pos h]
  exact (p.headers.get?_put _ _ _).trans (if_pos rfl)

theorem isMarked_of_sign {r : Request} {ctx : SignContext} {p : PreparedRequest}
    (hdemo : isDemo ctx.options = true) (h : sign r ctx = .ok p) : IsMarked p := by
  obtain ⟨q, -, rfl⟩ := map_eq_ok_iff.1 h
  exact isMarked_markDemo hdemo q

theorem client_of_make {config : ClientConfig} {x : Exchange} (h : make config = .ok x) :
    x.client = ⟨adapter, withDemo config⟩ := by
  obtain ⟨c, hc, rfl⟩ := map_eq_ok_iff.1 h
  exact Client.eq_of_make hc

/-- The option of the sandbox counts before whatever the owner has put there. -/
theorem isDemo_of_sandbox {config : ClientConfig} (h : config.sandbox = true) :
    isDemo (⟨adapter, withDemo config⟩ : Client).options = true := by
  have hdemo : (withDemo config).options.get? "demoTrading" = some (.bool true) := by
    rw [withDemo, if_pos h]
    exact (config.options.get?_put _ _ _).trans (if_pos rfl)
  have hoption : (⟨adapter, withDemo config⟩ : Client).options.get? "demoTrading"
      = some (.bool true) := by
    show ((description.options.putAll (withDemo config).options.entries).get? "demoTrading") = _
    rw [Table.get?_putAll _ (withDemo config).options.distinct]
    show ((withDemo config).options.get? "demoTrading").or _ = _
    rw [hdemo]
    rfl
  rw [isDemo, hoption]

/-- **Every request is marked.** -/
theorem marked_of_prepares {config : ClientConfig} (h : config.sandbox = true) {tier : String}
    {p : PreparedRequest} (hp : (⟨adapter, withDemo config⟩ : Client).Prepares tier p) :
    IsMarked p := by
  obtain ⟨r, now, -, hprepare⟩ := hp
  obtain ⟨url, -, hsign⟩ := bind_eq_ok_iff.1 hprepare
  exact isMarked_of_sign (isDemo_of_sandbox h) hsign

end Okx

/-! ### Binance -/

namespace Binance

/-- The address of the test network. -/
def testUrl : String := "https://testnet.binance.vision/api/v3"

theorem client_of_make {config : ClientConfig} {x : Exchange} (h : make config = .ok x) :
    x.client = ⟨adapter, config⟩ := by
  obtain ⟨c, hc, rfl⟩ := map_eq_ok_iff.1 h
  exact Client.eq_of_make hc

theorem url_of_sign {r : Request} {ctx : SignContext} {p : PreparedRequest}
    (h : sign r ctx = .ok p) : ∃ tail, p.url = ctx.baseUrl ++ tail := by
  obtain ⟨path, hpath⟩ := joinUrl_eq_append ctx.baseUrl r.path
  have hjoined : ∃ tail, p.url = joinUrl ctx.baseUrl r.path ++ tail := by
    unfold sign at h
    split at h
    · obtain ⟨_, _, text, -, -, htravels, -, -⟩ := signPrivate_cases h
      unfold Travels at htravels
      split at htravels
      · exact ⟨"?" ++ text, by rw [htravels.1, String.append_assoc]⟩
      · exact ⟨"", by rw [htravels.1, String.append_empty]⟩
    · cases h
      exact url_unsigned r ctx
  obtain ⟨tail, htail⟩ := hjoined
  exact ⟨path ++ tail, by rw [htail, hpath, String.append_assoc]⟩

/-- Both tiers of the sandbox have the address of the test network. -/
theorem baseUrl_of_sandbox {tier url : String} {overrides : Table String}
    (hover : overrides.get? tier = none)
    (h : description.baseUrl tier true overrides = .ok url) : url = testUrl := by
  have hhost : description.withHost testUrl = testUrl := by
    decide
  have htest : ∀ u, description.testUrls.get? tier = some u → u = testUrl := by
    intro u hu
    have hmem : (tier, u) ∈ description.testUrls.entries := description.testUrls.mem_entries.2 hu
    have hentries : description.testUrls.entries =
        [("public", testUrl), ("private", testUrl)] := rfl
    rw [hentries] at hmem
    simp at hmem
    rcases hmem with ⟨-, hu⟩ | ⟨-, hu⟩
    · exact hu
    · exact hu
  unfold Description.baseUrl at h
  rw [hover] at h
  cases htier : description.testUrls.get? tier with
  | none =>
    rw [htier] at h
    cases h
  | some u =>
    rw [htier] at h
    cases h
    rw [htest u htier, hhost]

/-- **Every request goes to the test network** if its tier has no address of the owner's. -/
theorem url_of_prepares {config : ClientConfig} (h : config.sandbox = true) {tier : String}
    {p : PreparedRequest} (hp : (⟨adapter, config⟩ : Client).Prepares tier p)
    (hover : config.urlOverrides.get? tier = none) : ∃ tail, p.url = testUrl ++ tail := by
  obtain ⟨r, now, rfl, hprepare⟩ := hp
  obtain ⟨url, hurl, hsign⟩ := bind_eq_ok_iff.1 hprepare
  have hbase : url = testUrl := by
    refine baseUrl_of_sandbox hover ?_
    rw [← h]
    exact hurl
  obtain ⟨tail, htail⟩ := url_of_sign hsign
  exact ⟨tail, by rw [htail, ← hbase]; rfl⟩

end Binance

/-! ### The clients -/

/-- What a client of the sandbox may do: every request that it hands to the wire is `Safe` on its
tier, and a tier without an address of the sandbox or of the owner cannot be called. -/
structure StaysInSandbox (c : Client) (Safe : (tier : String) → PreparedRequest → Prop) : Prop where
  /-- A call hands over requests of its own tier only. -/
  calls : ∀ call : Call, call.isRequest = true → (call.run c).Hands fun p =>
    ∃ tier, call.tier? c = some tier ∧ Safe tier p
  /-- Nothing else that is called in a session hands over other requests. -/
  session : ∀ (w : World) (turns : List Turn), ∃ new,
    (c.play w turns).wire.handed = new ++ w.wire.handed ∧ ∀ p ∈ new, ∃ tier, Safe tier p
  /-- Without an address a call fails, and nothing has happened then. -/
  refused : ∀ (call : Call) (tier : String), call.tier? c = some tier →
    c.config.urlOverrides.get? tier = none → c.description.testUrls.get? tier = none →
    ∀ w, ∃ e, call.run c w = (.error (.failed e), w)

theorem staysInSandbox_of_prepares {c : Client} {Safe : String → PreparedRequest → Prop}
    (hsandbox : c.config.sandbox = true) (h : ∀ tier p, c.Prepares tier p → Safe tier p) :
    StaysInSandbox c Safe := by
  constructor
  · exact fun call hcall => Client.hands_request_call h hcall
  · exact Client.hands_play h
  · intro call tier htier hover htest w
    have hurl : c.description.baseUrl tier c.config.sandbox c.config.urlOverrides = .error _ :=
      Description.baseUrl_eq_error_iff.2 ⟨hover, .inr ⟨hsandbox, htest, rfl⟩⟩
    exact Client.run_of_no_url htier hurl

/-- **A client of the sandbox never reaches live trading**, whatever else is configured. -/
theorem sandbox_never_live {config : ClientConfig} (h : config.sandbox = true) :
    (∀ x, Okx.make config = .ok x → StaysInSandbox x.client fun _ p =>
      p.headers.get? "x-simulated-trading" = some "1") ∧
    (∀ x, Binance.make config = .ok x → StaysInSandbox x.client fun tier p =>
      config.urlOverrides.get? tier = none →
        ∃ tail, p.url = "https://testnet.binance.vision/api/v3" ++ tail) := by
  constructor
  · intro x hx
    rw [Okx.client_of_make hx]
    refine staysInSandbox_of_prepares ?_ fun tier p hp => Okx.marked_of_prepares h hp
    show (Okx.withDemo config).sandbox = true
    rw [Okx.withDemo, if_pos h]
    exact h
  · intro x hx
    rw [Binance.client_of_make hx]
    exact staysInSandbox_of_prepares h fun tier p hp => Binance.url_of_prepares h hp

/-- A configuration that asks for the sandbox and against it at once. -/
def undecided : ClientConfig :=
  { sandbox := true, options := .ofList [("demoTrading", .bool false)]
    credentials := { apiKey := some "key", secret := some "secret" } }

/-- The clients that are made with it stay in the sandbox. -/
theorem sandbox_never_live_undecided : undecided.sandbox = true ∧
    (∃ x, Okx.make undecided = .ok x ∧ StaysInSandbox x.client fun _ p =>
      p.headers.get? "x-simulated-trading" = some "1") ∧
    (∃ x, Binance.make undecided = .ok x ∧ StaysInSandbox x.client fun tier p =>
      undecided.urlOverrides.get? tier = none →
        ∃ tail, p.url = "https://testnet.binance.vision/api/v3" ++ tail) := by
  have hsandbox : undecided.sandbox = true := rfl
  obtain ⟨hokx, hbinance⟩ := sandbox_never_live hsandbox
  obtain ⟨x, hx⟩ : ∃ x, Okx.make undecided = .ok x := ⟨_, by rfl⟩
  obtain ⟨y, hy⟩ : ∃ y, Binance.make undecided = .ok y := ⟨_, by rfl⟩
  exact ⟨hsandbox, ⟨x, hx, hokx x hx⟩, ⟨y, hy, hbinance y hy⟩⟩

end Bourse
