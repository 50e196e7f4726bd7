import Bourse.Proofs.Client.Sandbox

/-! # Credentials at the gate

The private tier is closed to a client that lacks a credential of its venue: a call fails before
anything is sent, and the failure names the first credential that is missing. On every other tier
the credentials have no influence at all: two clients that differ only in them do the same, and so
nothing of them can be in a request or in an answer.

* `check_of_firstMissing`: the check of the credentials, by what comes first in their list;
* `run_of_sign_error`: a call whose request cannot be signed leaves the world as it was;
* `run_withCredentials`: a call that is signed without credentials does not depend on them;
* `guards_credentials`: the property, for both venues. -/

namespace Bourse

namespace Credentials

/-- A credential that is not there, or empty. -/
def Lacks (value : Option String) : Prop := value = none ∨ value = some ""

/-- The first in a list of named credentials that is missing. -/
def FirstMissing (listed : List (String × Option String)) (name : String) : Prop :=
  ∃ before value after, listed = before ++ (name, value) :: after ∧ Lacks value ∧
    ∀ e ∈ before, ¬ Lacks e.2

theorem isNone_present?_iff {value : Option String} :
    (present? value).isNone = true ↔ Lacks value := by
  unfold present? Lacks
  cases value with
  | none => simp
  | some s =>
    by_cases h : s = ""
    · simp [h]
    · simp [h, Option.filter]

/-- If a credential is missing, one of them is the first. -/
theorem exists_firstMissing {listed : List (String × Option String)}
    (h : ∃ e ∈ listed, Lacks e.2) : ∃ name, FirstMissing listed name := by
  induction listed with
  | nil =>
    obtain ⟨e, he, -⟩ := h
    cases he
  | cons d listed ih =>
    by_cases hd : Lacks d.2
    · exact ⟨d.1, [], d.2, listed, rfl, hd, by simp⟩
    · obtain ⟨e, he, hlacks⟩ := h
      have hmem : e ∈ listed := by
        rcases List.mem_cons.1 he with rfl | he
        · exact absurd hlacks hd
        · exact he
      obtain ⟨name, before, value, after, heq, hvalue, hbefore⟩ := ih ⟨e, hmem, hlacks⟩
      refine ⟨name, d :: before, value, after, by rw [heq]; rfl, hvalue, fun e' he' => ?_⟩
      rcases List.mem_cons.1 he' with rfl | he'
      · exact hd
      · exact hbefore e' he'

/-- **The check refuses** in the name of the first credential that is missing. -/
theorem check_of_firstMissing {c : Credentials} {r : RequiredCredentials} {name : String}
    (h : FirstMissing (c.demanded r) name) (venue : String) :
    c.check venue r = .error
      (.make .authenticationError (venue ++ " requires \"" ++ name ++ "\" credential")) := by
  obtain ⟨before, value, after, heq, hvalue, hbefore⟩ := h
  have hfind : (c.demanded r).find? (fun e => (present? e.2).isNone) = some (name, value) := by
    rw [heq, List.find?_append, List.find?_eq_none.2]
    · simp [isNone_present?_iff.2 hvalue]
    · intro e he
      rw [isNone_present?_iff]
      exact hbefore e he
  rw [check, hfind]

end Credentials

namespace Client

open Session Credentials

variable {c : Client} {w : World}

/-! ### Calls that cannot be signed -/

/-- The parameters of a call supply the placeholders of its path. -/
def Supplied (c : Client) : Call → Prop
  | .fetch endpoint params => ∀ e, c.endpoints.get? endpoint = some e →
      ∀ n ∈ Template.placeholders e.path, params.contains n = true
  | .request path _ _ params => ∀ n ∈ Template.placeholders path, params.contains n = true
  | _ => True

theorem send_of_sign_error {r : Request} {url : String} {e : Error}
    (hurl : c.description.baseUrl r.tier c.config.sandbox c.config.urlOverrides = .ok url)
    (hsign : c.adapter.sign r (c.signContext url w.wire.clock) = .error e) :
    c.send r w = (.error (.failed e), w) := by
  have hprepare : c.prepare r w.wire.clock = .error e :=
    bind_eq_error_iff.2 (.inr ⟨url, hurl, hsign⟩)
  rw [send_apply, hprepare]

/-- **A call whose request cannot be signed** fails with the reason, and nothing has happened. -/
theorem run_of_sign_error {call : Call} {tier url : String} {e : Error}
    (hurl : c.description.baseUrl tier c.config.sandbox c.config.urlOverrides = .ok url)
    (hsign : ∀ r : Request, r.tier = tier →
      c.adapter.sign r (c.signContext url w.wire.clock) = .error e)
    (htier : call.tier? c = some tier) (hsupplied : c.Supplied call) :
    call.run c w = (.error (.failed e), w) := by
  have hrequest : ∀ path method params,
      (∀ n ∈ Template.placeholders path, params.contains n = true) →
      c.request path tier method params w = (.error (.failed e), w) := by
    intro path method params hpresent
    rw [request_of_present (missing?_eq_none_iff.2 hpresent)]
    exact send_of_sign_error hurl (hsign _ rfl)
  cases call with
  | fetch endpoint params =>
    obtain ⟨entry, hentry, rfl⟩ := Option.map_eq_some_iff.1 htier
    show c.fetch endpoint params w = _
    rw [fetch_of_endpoint hentry]
    exact hrequest _ _ _ (hsupplied entry hentry)
  | request path tier' method params =>
    obtain rfl : tier' = tier := Option.some.inj htier
    exact hrequest _ _ _ hsupplied
  | send r =>
    obtain rfl : r.tier = tier := Option.some.inj htier
    exact send_of_sign_error hurl (hsign r rfl)
  | _ => cases htier

/-! ### Calls that need no credentials -/

/-- The client with other credentials. -/
def withCredentials (c : Client) (credentials : Credentials) : Client :=
  { c with config := { c.config with credentials } }

/-- Requests of a tier are prepared in the same way whatever the credentials are, and whenever. -/
def SignsBlindly (adapter : Adapter) (tier : String) : Prop :=
  ∀ (r : Request) (ctx : SignContext) (credentials : Credentials) (timestamp : ℤ), r.tier = tier →
    adapter.sign r { ctx with credentials, timestamp } = adapter.sign r ctx

theorem send_withCredentials {r : Request} (h : SignsBlindly c.adapter r.tier)
    (credentials : Credentials) : (c.withCredentials credentials).send r w = c.send r w := by
  have hprepare : (c.withCredentials credentials).prepare r w.wire.clock
      = c.prepare r w.wire.clock := by
    show (c.description.baseUrl r.tier c.config.sandbox c.config.urlOverrides >>= fun url =>
      c.adapter.sign r { c.signContext url w.wire.clock with credentials }) = _
    congr 1
    funext url
    exact h r (c.signContext url w.wire.clock) credentials w.wire.clock rfl
  rw [send_apply, send_apply, hprepare]
  rfl

/-- **A call on a tier that is signed without credentials** does the same with any of them: it gives
the same answer and leaves the same world, with the same requests handed to the wire. -/
theorem run_withCredentials {call : Call} (hcall : call.isRequest = true)
    (h : ∀ tier, call.tier? c = some tier → SignsBlindly c.adapter tier)
    (credentials : Credentials) : call.run (c.withCredentials credentials) w = call.run c w := by
  have hrequest : ∀ path tier method params, SignsBlindly c.adapter tier →
      (c.withCredentials credentials).request path tier method params w
        = c.request path tier method params w := by
    intro path tier method params hblind
    cases hmissing : missing? path params with
    | some n =>
      rw [request_of_missing hmissing, request_of_missing hmissing]
      rfl
    | none =>
      rw [request_of_present hmissing, request_of_present hmissing]
      exact send_withCredentials hblind credentials
  cases call with
  | fetch endpoint params =>
    show (c.withCredentials credentials).fetch endpoint params w = c.fetch endpoint params w
    cases hentry : c.endpoints.get? endpoint with
    | none =>
      have hentry' : (c.withCredentials credentials).endpoints.get? endpoint = none := hentry
      rw [fetch_of_unknown hentry, fetch_of_unknown hentry']
    | some e =>
      have hentry' : (c.withCredentials credentials).endpoints.get? endpoint = some e := hentry
      rw [fetch_of_endpoint hentry, fetch_of_endpoint hentry']
      refine hrequest _ _ _ _ (h e.tier ?_)
      rw [Call.tier?, hentry]
      rfl
  | request path tier method params => exact hrequest _ _ _ _ (h tier rfl)
  | send r => exact send_withCredentials (h r.tier rfl) credentials
  | _ => cases hcall

end Client

/-! ### The venues -/

namespace Binance

theorem sign_of_firstMissing {r : Request} {ctx : SignContext} {name : String}
    (htier : r.tier = "private")
    (h : Credentials.FirstMissing (ctx.credentials.demanded .keyAndSecret) name) :
    sign r ctx = .error (.make .authenticationError
      (ctx.venue ++ " requires \"" ++ name ++ "\" credential")) := by
  rw [sign, if_pos htier, signPrivate, Credentials.check_of_firstMissing h]
  rfl

theorem signsBlindly {tier : String} (h : tier ≠ "private") :
    Client.SignsBlindly adapter tier := by
  rintro r ctx credentials timestamp rfl
  show sign r _ = sign r ctx
  rw [sign, sign, if_neg h, if_neg h]
  rfl

end Binance

namespace Okx

theorem sign_of_firstMissing {r : Request} {ctx : SignContext} {name : String}
    (htier : r.tier = "private")
    (h : Credentials.FirstMissing (ctx.credentials.demanded .keySecretAndPassword) name) :
    sign r ctx = .error (.make .authenticationError
      (ctx.venue ++ " requires \"" ++ name ++ "\" credential")) := by
  rw [sign, if_pos htier, signPrivate, Credentials.check_of_firstMissing h]
  rfl

theorem signsBlindly {tier : String} (h : tier ≠ "private") :
    Client.SignsBlindly adapter tier := by
  rintro r ctx credentials timestamp rfl
  show sign r _ = sign r ctx
  rw [sign, sign, if_neg h, if_neg h]
  rfl

theorem credentials_withDemo (config : ClientConfig) :
    (withDemo config).credentials = config.credentials := by
  unfold withDemo
  split <;> rfl

end Okx

/-! ### The property -/

open Credentials in
/-- What a client does with its credentials, of which its venue requires these. -/
structure GuardsCredentials (c : Client) (required : List (String × Option String)) : Prop where
  /-- If a required credential is missing, one of them is the first. -/
  named : (∃ e ∈ required, Lacks e.2) → ∃ name, FirstMissing required name
  /-- Then a private call is refused in its name, and nothing has happened: the wire, too, is as it
  was. -/
  refused : ∀ (call : Call) (name url : String) (w : World), FirstMissing required name →
    call.tier? c = some "private" →
    c.description.baseUrl "private" c.config.sandbox c.config.urlOverrides = .ok url →
    c.Supplied call → call.run c w = (.error (.failed (.make .authenticationError
      (c.id ++ " requires \"" ++ name ++ "\" credential"))), w)
  /-- On every other tier requests do not depend on the credentials, nor on the time. -/
  signed : ∀ (r : Request) (ctx : SignContext) (credentials : Credentials) (timestamp : ℤ),
    r.tier ≠ "private" →
    c.adapter.sign r { ctx with credentials, timestamp } = c.adapter.sign r ctx
  /-- Nor does anything else of a call: the answer, and what is handed to the wire. -/
  blind : ∀ (call : Call) (credentials : Credentials) (w : World), call.isRequest = true →
    call.tier? c ≠ some "private" →
    call.run (c.withCredentials credentials) w = call.run c w

theorem guardsCredentials_of_sign {c : Client} {r : RequiredCredentials}
    (hprivate : ∀ (q : Request) (ctx : SignContext) (name : String), q.tier = "private" →
      Credentials.FirstMissing (ctx.credentials.demanded r) name →
      c.adapter.sign q ctx = .error (.make .authenticationError
        (ctx.venue ++ " requires \"" ++ name ++ "\" credential")))
    (hpublic : ∀ tier ≠ "private", Client.SignsBlindly c.adapter tier) :
    GuardsCredentials c (c.config.credentials.demanded r) where
  named := Credentials.exists_firstMissing
  refused := by
    intro call name url w hfirst htier hurl hsupplied
    refine Client.run_of_sign_error hurl (fun q hq => ?_) htier hsupplied
    exact hprivate q (c.signContext url w.wire.clock) name hq hfirst
  signed := by
    intro q ctx credentials timestamp htier
    exact hpublic q.tier htier q ctx credentials timestamp rfl
  blind := by
    intro call credentials w hcall htier
    refine Client.run_withCredentials hcall (fun tier h => hpublic tier ?_) credentials
    rintro rfl
    exact htier h

/-- **Credentials gate the private tier and touch nothing else**, on both venues and in every
configuration. -/
theorem guards_credentials (config : ClientConfig) :
    (∀ x, Binance.make config = .ok x → GuardsCredentials x.client
      [("apiKey", config.credentials.apiKey), ("secret", config.credentials.secret)]) ∧
    (∀ x, Okx.make config = .ok x → GuardsCredentials x.client
      [("apiKey", config.credentials.apiKey), ("secret", config.credentials.secret),
        ("password", config.credentials.password)]) := by
  constructor
  · intro x hx
    rw [Binance.client_of_make hx]
    exact guardsCredentials_of_sign (r := .keyAndSecret)
      (fun q ctx name => Binance.sign_of_firstMissing) (fun tier => Binance.signsBlindly)
  · intro x hx
    rw [Okx.client_of_make hx, ← Okx.credentials_withDemo config]
    exact guardsCredentials_of_sign (r := .keySecretAndPassword)
      (fun q ctx name => Okx.sign_of_firstMissing) (fun tier => Okx.signsBlindly)

/-- A configuration with a key, an empty secret and no password. -/
def emptySecret : ClientConfig :=
  { credentials := { apiKey := some "key", secret := some "" } }

theorem firstMissing_emptySecret (after : List (String × Option String)) :
    Credentials.FirstMissing (("apiKey", some "key") :: ("secret", some "") :: after) "secret" :=
  ⟨[("apiKey", some "key")], some "", after, rfl, .inr rfl, by simp [Credentials.Lacks]⟩

/-- Both clients refuse private calls in the name of the secret, and make public ones alike. -/
theorem guards_credentials_of_empty_secret :
    (∃ x, Binance.make emptySecret = .ok x ∧ ∀ w : World,
      x.client.request "account" "private" .get .empty w = (.error (.failed
        (.make .authenticationError "binance requires \"secret\" credential")), w)) ∧
    (∃ x, Okx.make emptySecret = .ok x ∧
      (∀ w : World, x.client.request "account/balance" "private" .get .empty w = (.error (.failed
        (.make .authenticationError "okx requires \"secret\" credential")), w)) ∧
      ∀ (credentials : Credentials) (w : World),
        (x.client.withCredentials credentials).request "public/time" "public" .get .empty w
          = x.client.request "public/time" "public" .get .empty w) := by
  obtain ⟨hbinance, hokx⟩ := guards_credentials emptySecret
  obtain ⟨x, hx⟩ : ∃ x, Binance.make emptySecret = .ok x := ⟨_, by rfl⟩
  obtain ⟨y, hy⟩ : ∃ y, Okx.make emptySecret = .ok y := ⟨_, by rfl⟩
  have hfirst := firstMissing_emptySecret
  have hnone : ∀ path, Template.placeholders path = [] → ∀ n ∈ Template.placeholders path,
      (Table.empty : Table Json).contains n = true := by
    intro path hpath n hn
    rw [hpath] at hn
    cases hn
  refine ⟨⟨x, hx, fun w => ?_⟩, ⟨y, hy, fun w => ?_, fun credentials w => ?_⟩⟩
  · have hguards := hbinance x hx
    rw [Binance.client_of_make hx] at hguards ⊢
    exact hguards.refused (.request "account" "private" .get .empty) "secret" _ w (hfirst []) rfl
      rfl (hnone _ (by decide))
  · have hguards := hokx y hy
    rw [Okx.client_of_make hy] at hguards ⊢
    exact hguards.refused (.request "account/balance" "private" .get .empty) "secret" _ w
      (hfirst [("password", none)]) rfl rfl (hnone _ (by decide))
  · exact (hokx y hy).blind (.request "public/time" "public" .get .empty) credentials w rfl
      (by simp [Call.tier?])

end Bourse
