import Bourse.Proofs.Client.WaitHint
import Bourse.Proofs.Okx.Failures

/-! # Waits that end the run

A text that spells `2 ^ 64` seconds or more is no span of time and no absence of one: reading it
ends the run (`WaitHint.TooLong`). The classifier reads the header of every response before it looks
at anything else, and so has no outcome for a response that asks for such a wait, not even for a
good one; the hook of OKX has none if it also finds a failure, and the hook of Binance never reads
the header (`no_outcome_iff`). Nothing else in a response has this effect. -/

namespace Bourse

variable {response : Response} {decoded : Option Json}

/-! ### Numbers of seconds -/

namespace WaitHint

/-- A text spells a number of seconds that no span can hold. -/
def TooLong (text : String) : Prop :=
  ∃ x, Binary64.ofText? (Text.trim text) = some (.finite x) ∧ (2 : ℚ) ^ 64 ≤ x.toRat

theorem ofSeconds_eq_unbounded_iff {x : Binary64} :
    ofSeconds x = .unbounded ↔ (2 : ℚ) ^ 64 ≤ x.toRat := by
  unfold ofSeconds
  by_cases hsign : (x.negative && !x.isZero) = true
  · rw [if_pos hsign]
    have hbelow : ¬ 0 ≤ x.toRat := fun h => Binary64.toRat_nonneg_iff.1 h hsign
    refine ⟨nofun, fun h => absurd ?_ hbelow⟩
    exact le_trans (by positivity) h
  · -- the comparison of the code multiplies by the denominator
    have hden : (0 : ℚ) < x.den := by exact_mod_cast x.den_pos
    have hfits : (2 : ℚ) ^ 64 ≤ x.toRat ↔ twoTo 64 * x.den ≤ x.num := by
      rw [Binary64.toRat_of_nonneg (Binary64.toRat_nonneg_iff.2 hsign), le_div_iff₀ hden]
      norm_num [twoTo]
      exact_mod_cast Iff.rfl
    rw [if_neg hsign, hfits]
    split <;> simp [*]

/-- **A text is no hint but ends the run** exactly if it spells too many seconds: other numbers,
dates and other texts never do. -/
theorem parse_eq_unbounded_iff {now : Instant} {text : String} :
    parse now text = .unbounded ↔ TooLong text := by
  simp only [parse, TooLong]
  cases Binary64.ofText? (Text.trim text) with
  | none => cases MailDate.parse? (Text.trim text).toList <;> simp
  | some x => cases x <;> simp [ofSeconds_eq_unbounded_iff]

theorem span?_eq_aborted_iff {h : WaitHint} : h.span? = .error .aborted ↔ h = .unbounded := by
  cases h <;> simp [span?]

end WaitHint

/-! ### Responses -/

/-- The header of a response asks for a wait that no span can hold. -/
def Response.AsksTooLong (r : Response) : Prop :=
  ∃ text, r.header? "retry-after" = some text ∧ WaitHint.TooLong text

/-- **Reading the header** ends the run exactly if it asks for too long a wait. -/
theorem Response.retryAfter_eq_aborted_iff :
    response.retryAfter = .error .aborted ↔ response.AsksTooLong := by
  unfold Response.retryAfter AsksTooLong
  cases response.header? "retry-after" with
  | none => simp
  | some text =>
    simp only [WaitHint.span?_eq_aborted_iff, WaitHint.parse_eq_unbounded_iff, Option.some.injEq,
      exists_eq_left']

theorem Response.exists_retryAfter_iff :
    (∃ wait, response.retryAfter = .ok wait) ↔ ¬ response.AsksTooLong := by
  rw [← retryAfter_eq_aborted_iff]
  rcases Classifier.retryAfter_cases response with h | ⟨wait, h⟩ <;> simp [h]

/-! ### Who reads the header -/

/-- **The hook of OKX** reads the header for a failure that it has found, and otherwise never. -/
theorem Okx.inspect_eq_aborted_iff :
    Okx.inspect response decoded = .error .aborted ↔
      response.AsksTooLong ∧ TellsOfFailure decoded := by
  rw [← Response.retryAfter_eq_aborted_iff]
  by_cases htells : TellsOfFailure decoded
  · rw [and_iff_left htells]
    obtain ⟨body, code, message, rfl, htells⟩ := htells
    rw [inspect_of_tells htells]
    cases response.retryAfter <;> simp [Except.map]
  · rw [inspect_of_silent htells]
    simp [htells]

theorem Okx.exists_inspect_iff :
    (∃ found, Okx.inspect response decoded = .ok found) ↔
      ¬ (response.AsksTooLong ∧ TellsOfFailure decoded) := by
  rw [← inspect_eq_aborted_iff]
  by_cases htells : TellsOfFailure decoded
  · obtain ⟨body, code, message, rfl, htells⟩ := htells
    rw [inspect_of_tells htells]
    rcases Classifier.retryAfter_cases response with h | ⟨wait, h⟩ <;> simp [h, Except.map]
  · simp [inspect_of_silent htells]

/-- **A failure that a body tells of** is reported, with its code and its kind, unless the response
asks for too long a wait. -/
theorem Okx.inspect_reports {body : Json} {code message : String} (h : Tells body code message) :
    response.AsksTooLong ∧ Okx.inspect response (some body) = .error .aborted ∨
    ∃ e, Okx.inspect response (some body) = .ok (some (.classified e)) ∧ e.code = some code ∧
      exceptions.Assigns code message e.kind := by
  rw [inspect_of_tells h]
  rcases Classifier.retryAfter_cases response with hwait | ⟨wait, hwait⟩
  · refine .inl ⟨Response.retryAfter_eq_aborted_iff.1 hwait, ?_⟩
    rw [hwait]
    rfl
  · refine .inr ⟨report response body code message wait, ?_, rfl, kindOf_eq_iff.1 rfl⟩
    rw [hwait]
    rfl

/-- **Which responses have no outcome.** Reading a text ends the run exactly if it spells too many
seconds, reading a header exactly if it asks for too long a wait, and so does the classifier,
whatever the status, the body and the tables are. The hook of OKX ends the run if the body tells of
a failure as well, and the hook of Binance never does. In all other cases there is an outcome. -/
theorem no_outcome_iff (t : Classifier) (now : Instant) (text : String) (response : Response)
    (decoded : Option Json) :
    (WaitHint.parse now text = .unbounded ↔ WaitHint.TooLong text) ∧
    (response.retryAfter = .error .aborted ↔ response.AsksTooLong) ∧
    ((∃ wait, response.retryAfter = .ok wait) ↔ ¬ response.AsksTooLong) ∧
    (t.classify response decoded = .error .aborted ↔ response.AsksTooLong) ∧
    (Okx.adapter.inspect response decoded = .error .aborted ↔
      response.AsksTooLong ∧ Okx.TellsOfFailure decoded) ∧
    ((∃ found, Okx.adapter.inspect response decoded = .ok found) ↔
      ¬ (response.AsksTooLong ∧ Okx.TellsOfFailure decoded)) ∧
    ∃ found, Binance.adapter.inspect response decoded = .ok found := by
  refine ⟨WaitHint.parse_eq_unbounded_iff, Response.retryAfter_eq_aborted_iff,
    Response.exists_retryAfter_iff, ?_, Okx.inspect_eq_aborted_iff, Okx.exists_inspect_iff,
    _, rfl⟩
  rw [Classifier.classify_eq_aborted_iff, Response.retryAfter_eq_aborted_iff]

/-- **A good response ends the run** if it asks for `1e30` seconds. -/
theorem good_response_ends_the_run :
    ¬ ∀ (t : Classifier) (response : Response) (decoded : Option Json),
      response.isSuccess = true → t.classify response decoded ≠ .error .aborted := by
  intro h
  let response : Response :=
    { status := 200, headers := .ofList [("retry-after", "1e30")], body := "\x7b\x7d" }
  have hwait : response.retryAfter = .error .aborted := by
    rfl
  exact h (⟨Okx.adapter, {}⟩ : Client).classifier response (some (.obj [])) rfl
    (Classifier.classify_eq_aborted_iff.2 hwait)

end Bourse
