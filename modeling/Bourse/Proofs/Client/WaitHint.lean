import Bourse.Binance.Venue
import Bourse.Client.Request
import Bourse.Okx.Venue
import Bourse.Proofs.Binary64.Value
import Bourse.Proofs.Classify.Stages
import Bourse.Proofs.Result
import Bourse.Proofs.Rounding

/-! # Wait hints in failures

A response may say in a header for how many seconds to wait. `Response.Asks` says what it asks for,
from the number in the header to the nanosecond (`retryAfter_of_asks`). A failure that a client
finds in the response comes from the hook of the adapter (`hint_of_inspect`) or from the classifier
(`hint_of_silent`), and each of them has to pass the hint on:

* the classifier does at every stage (`Classifier.retryAfter_of_classify`), and so does the hook of
  OKX (`Okx.inspect_cases`);
* the hook of Binance does not (`Binance.retryAfter_refusal`), so that a body which says of itself
  that it is no success loses the hint, and no other body (`hint_of_failure`,
  `refusal_loses_hint`). -/

namespace Bourse

open Rounding

/-! ### Seconds -/

/-- **A number of seconds** that a span can hold is a wait, to the nearest nanosecond. -/
theorem WaitHint.ofSeconds_eq_wait {x : Binary64} {span : Nanoseconds} (h0 : 0 ≤ x.toRat)
    (hlt : x.toRat < twoTo 64) (hspan : Rounds .halfEven (x.toRat * 1000000000) span) :
    ofSeconds x = .wait span := by
  have hden : (0 : ℚ) < x.den := by exact_mod_cast x.den_pos
  have hsign : ¬ (x.negative && !x.isZero) = true := Binary64.toRat_nonneg_iff.1 h0
  rw [Binary64.toRat_of_nonneg h0] at hlt hspan
  have hfits : ¬ twoTo 64 * x.den ≤ x.num := by
    rw [not_le]
    rw [div_lt_iff₀ hden] at hlt
    exact_mod_cast hlt
  have hrounds := rounds_divide .halfEven (x.num * 1000000000) x.den_pos
  rw [Nat.cast_mul, mul_div_right_comm, Nat.cast_ofNat] at hrounds
  rw [ofSeconds, if_neg hsign, if_neg hfits, hrounds.unique hspan]

/-- What a response asks for: nothing without the header, and otherwise a number of seconds. -/
inductive Response.Asks (r : Response) : Option Nanoseconds → Prop
  | nothing : r.header? "retry-after" = none → r.Asks none
  | seconds {text : String} {x : Binary64} {span : Nanoseconds} :
      r.header? "retry-after" = some text →
      Binary64.ofText? (Text.trim text) = some (.finite x) → 0 ≤ x.toRat → x.toRat < twoTo 64 →
      Rounds .halfEven (x.toRat * 1000000000) span → r.Asks (some span)

variable {response : Response} {decoded : Option Json} {wait : Option Nanoseconds} {e : Error}

theorem Response.retryAfter_of_asks (h : response.Asks wait) : response.retryAfter = .ok wait := by
  unfold Response.retryAfter
  cases h with
  | nothing hheader => rw [hheader]
  | seconds hheader htext h0 hlt hspan =>
    rw [hheader]
    simp only [WaitHint.parse, htext, WaitHint.ofSeconds_eq_wait h0 hlt hspan]
    rfl

/-! ### The classifier -/

/-- **Every stage of the classifier** passes the hint on. -/
theorem Classifier.retryAfter_of_classify {t : Classifier} (hwait : response.retryAfter = .ok wait)
    (h : t.classify response decoded = .error (.failed e)) : e.retryAfter = wait := by
  obtain ⟨wait', kind, code, hwait', -, rfl⟩ := classify_eq_failed_iff.1 h
  exact Except.ok.inj (hwait'.symm.trans hwait)

/-- A status that is no success is a failure, if the header can be read. -/
theorem Classifier.exists_classify_of_status {t : Classifier}
    (hwait : response.retryAfter = .ok wait)
    (hstatus : ¬ (200 ≤ response.status ∧ response.status ≤ 299)) :
    ∃ e, t.classify response decoded = .error (.failed e) := by
  rw [classify_of_ok hwait]
  cases hkind : t.kind? response decoded with
  | none => exact absurd (kind?_eq_none_iff.1 hkind).2 hstatus
  | some found => exact ⟨_, rfl⟩

/-! ### The hooks -/

/-- **The hook of OKX** passes the hint on with each failure that it finds. -/
theorem Okx.inspect_cases (hwait : response.retryAfter = .ok wait) (decoded : Option Json) :
    Okx.inspect response decoded = .ok none ∨
    ∃ e, Okx.inspect response decoded = .ok (some e) ∧ e.retryAfter = wait := by
  unfold Okx.inspect
  cases decoded with
  | none => exact .inl rfl
  | some body =>
    cases hfailure : Okx.failure? body with
    | none =>
      simp only [hfailure]
      exact .inl trivial
    | some failed =>
      simp only [hfailure, hwait]
      exact .inr ⟨_, rfl, rfl⟩

/-- Whether a decoded body says of itself that it is no success. -/
def Binance.refuses (decoded : Option Json) : Bool :=
  match decoded.bind fun body => body.at? "success" with
  | some (.bool false) => true
  | _ => false

/-- **The hook of Binance** finds a failure in such bodies alone, and it is one without a hint. -/
theorem Binance.inspect_cases (response : Response) (decoded : Option Json) :
    (Binance.refuses decoded = true ∧
      ∃ body, Binance.inspect response decoded = some (refusal response body)) ∨
    Binance.refuses decoded = false ∧ Binance.inspect response decoded = none := by
  cases decoded with
  | none => exact .inr ⟨rfl, rfl⟩
  | some body =>
    simp only [Binance.refuses, Binance.inspect, Option.bind_some]
    by_cases hsuccess : body.at? "success" = some (.bool false)
    · rw [hsuccess]
      exact .inl ⟨rfl, body, rfl⟩
    · refine .inr ⟨?_, ?_⟩ <;> split
      · exact absurd ‹_› hsuccess
      · rfl
      · exact absurd ‹_› hsuccess
      · rfl

theorem Binance.retryAfter_refusal (response : Response) (body : Json) :
    (Binance.refusal response body).retryAfter = none := rfl

/-! ### Clients -/

namespace Client

/-- What the hook finds is the failure. -/
theorem handleResponse_of_inspect {c : Client}
    (h : c.adapter.inspect response decoded = .ok (some e)) :
    c.handleResponse response decoded = .error (.failed e) := by
  unfold handleResponse
  rw [h]
  rfl

/-- What the hook passes over goes to the classifier. -/
theorem handleResponse_of_silent {c : Client} (h : c.adapter.inspect response decoded = .ok none) :
    c.handleResponse response decoded = c.classifier.classify response decoded := by
  unfold handleResponse
  rw [h]
  rfl

/-- A failure that the hook passes over has the hint from the classifier. -/
theorem hint_of_silent {c : Client} (hwait : response.retryAfter = .ok wait)
    (hsilent : c.adapter.inspect response decoded = .ok none)
    (h : c.handleResponse response decoded = .error (.failed e)) : e.retryAfter = wait := by
  rw [handleResponse_of_silent hsilent] at h
  exact Classifier.retryAfter_of_classify hwait h

/-- A failure that the hook finds has its hint from the hook. -/
theorem hint_of_inspect {c : Client} {found : Error}
    (hfound : c.adapter.inspect response decoded = .ok (some found))
    (h : c.handleResponse response decoded = .error (.failed e)) :
    e.retryAfter = found.retryAfter := by
  rw [handleResponse_of_inspect hfound] at h
  cases h
  rfl

/-- **The hint in a failure.** On OKX every failure has the hint of its response, and on Binance
every one but those of bodies that say of themselves that they are no success. -/
theorem hint_of_failure (config : ClientConfig) (hasks : response.Asks wait) :
    (∀ e, (⟨Okx.adapter, config⟩ : Client).handleResponse response decoded = .error (.failed e) →
      e.retryAfter = wait) ∧
    ∀ e, (⟨Binance.adapter, config⟩ : Client).handleResponse response decoded =
        .error (.failed e) →
      e.retryAfter = if Binance.refuses decoded then none else wait := by
  have hwait := Response.retryAfter_of_asks hasks
  constructor
  · intro e h
    rcases Okx.inspect_cases hwait decoded with hsilent | ⟨found, hfound, hhint⟩
    · exact hint_of_silent hwait hsilent h
    · rw [hint_of_inspect hfound h, hhint]
  · intro e h
    rcases Binance.inspect_cases response decoded with
      ⟨hrefuses, body, hfound⟩ | ⟨hpasses, hnone⟩
    · rw [if_pos hrefuses]
      exact hint_of_inspect (congrArg Except.ok hfound) h
    · rw [hpasses, if_neg Bool.false_ne_true]
      exact hint_of_silent hwait (congrArg Except.ok hnone) h

/-- A response that is refused for its rate and asks for a wait of half a minute. -/
def throttled (body : String) : Response :=
  { status := 429, headers := .ofList [("retry-after", "30")], body }

theorem asks_throttled (body : String) : (throttled body).Asks (some 30000000000) := by
  obtain ⟨x, htext, hpositive, hnum, hden⟩ : ∃ x : Binary64,
      Binary64.ofText? (Text.trim "30") = some (.finite x) ∧ x.negative = false ∧
      x.num = 8444249301319680 ∧ x.den = 281474976710656 :=
    ⟨⟨false, 8444249301319680, -48, by decide⟩, rfl, rfl, rfl, rfl⟩
  have hvalue : x.toRat = 30 := by
    rw [Binary64.toRat, hpositive, hnum, hden]
    norm_num
  refine .seconds rfl htext ?_ ?_ ?_
  · norm_num [hvalue]
  · norm_num [hvalue, twoTo]
  · norm_num [hvalue, Rounds]

/-- The client of Binance fails by the status, and with the hint. -/
theorem hint_of_failure_throttled :
    (throttled "").Asks (some 30000000000) ∧
    ∃ e, (⟨Binance.adapter, {}⟩ : Client).handleResponse (throttled "") none =
        .error (.failed e) ∧
      e.retryAfter = some 30000000000 := by
  have hasks := asks_throttled ""
  have hsilent : (⟨Binance.adapter, {}⟩ : Client).adapter.inspect (throttled "") none =
      .ok none := rfl
  obtain ⟨e, he⟩ := Classifier.exists_classify_of_status
    (t := (⟨Binance.adapter, {}⟩ : Client).classifier)
    (Response.retryAfter_of_asks hasks) (by decide)
  have hfails := (handleResponse_of_silent hsilent).trans he
  exact ⟨hasks, e, hfails, (hint_of_failure {} hasks).2 e hfails⟩

/-- A body that says of itself that it is no success. -/
def refused : String := "\x7b\"success\":false,\"code\":-1003,\"msg\":\"Too many requests\"\x7d"

/-- **A refusal loses the hint**: the client of Binance fails without the wait that is asked for. -/
theorem refusal_loses_hint :
    ¬ ∀ (config : ClientConfig) (response : Response) (wait : Option Nanoseconds) (e : Error),
      response.Asks wait →
      (⟨Binance.adapter, config⟩ : Client).handleResponse response (decodeBody response.body) =
        .error (.failed e) →
      e.retryAfter = wait := by
  intro h
  have hbody : decodeBody refused = some (.obj [("success", .bool false), ("code", .ofInt (-1003)),
      ("msg", .str "Too many requests")]) := by
    cbv
  have hfails : ∃ body, (⟨Binance.adapter, {}⟩ : Client).handleResponse (throttled refused)
      (decodeBody refused) = .error (.failed (Binance.refusal (throttled refused) body)) := by
    rw [hbody]
    exact ⟨_, rfl⟩
  obtain ⟨body, hfails⟩ := hfails
  have hkept := h {} (throttled refused) _ _ (asks_throttled _) hfails
  rw [Binance.retryAfter_refusal] at hkept
  cases hkept

end Client

end Bourse
