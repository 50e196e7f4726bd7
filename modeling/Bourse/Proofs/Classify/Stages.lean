import Bourse.Classify.Classifier
import Mathlib.Tactic

/-! # The stages of classification

A response is good for the classifier if no stage finds anything in it (`Unmatched`) and its status
reports success. What its `Retry-After` header says decides before all stages whether there is an
answer at all.

* `kind?_eq_none_iff`: when no stage finds anything;
* `classify_eq_ok_iff`, `classify_eq_failed_iff`, `classify_eq_aborted_iff`: when a response passes,
  when a failure is reported and which, and when there is no outcome. -/

namespace Bourse

theorem Response.isSuccess_iff {r : Response} :
    r.isSuccess = true ↔ 200 ≤ r.status ∧ r.status ≤ 299 := by
  simp only [Response.isSuccess, Bool.and_eq_true, decide_eq_true_eq]
  omega

theorem WaitHint.span?_ne_failed (h : WaitHint) (e : Error) : h.span? ≠ .error (.failed e) := by
  cases h <;> simp [WaitHint.span?]

/-- Reading the header is no failure that a caller receives. -/
theorem Response.retryAfter_ne_failed (r : Response) (e : Error) :
    r.retryAfter ≠ .error (.failed e) := by
  unfold Response.retryAfter
  split
  · exact WaitHint.span?_ne_failed _ e
  · simp

namespace Classifier

/-- No stage finds anything in a response with this decoded body. -/
structure Unmatched (t : Classifier) (response : Response) (decoded : Option Json) : Prop where
  code : ∀ body, decoded = some body → ∀ code, errorCode? body = some code →
    t.exceptions.exactKind? code = none
  message : ∀ body, decoded = some body → ∀ message, errorMessage? body = some message →
    t.exceptions.exactKind? message = none ∧ t.exceptions.broadKind? message = none
  phrase : decoded = none → phraseKind? response.body = none
  status : t.statuses.get? response.status = none

variable {t : Classifier} {response : Response} {decoded : Option Json}

theorem tableKind?_eq_none_iff {exceptions : ExceptionTable} {code message : Option String} :
    tableKind? exceptions code message = none ↔
      (∀ c, code = some c → exceptions.exactKind? c = none) ∧
      ∀ m, message = some m → exceptions.exactKind? m = none ∧ exceptions.broadKind? m = none := by
  cases code <;> cases message <;> simp [tableKind?, and_assoc]

theorem bodyKind?_eq_none_iff :
    t.bodyKind? response decoded = none ↔
      (∀ body, decoded = some body → tableKind? t.exceptions (errorCode? body)
        (errorMessage? body) = none) ∧
      (decoded = none → phraseKind? response.body = none) := by
  cases decoded <;> simp [bodyKind?]

theorem statusKind?_eq_none_iff :
    t.statusKind? response = none ↔
      t.statuses.get? response.status = none ∧ response.isSuccess = true := by
  simp [statusKind?]

/-- **Nothing is found** if no stage finds anything and the status reports success. -/
theorem kind?_eq_none_iff :
    t.kind? response decoded = none ↔
      t.Unmatched response decoded ∧ 200 ≤ response.status ∧ response.status ≤ 299 := by
  rw [← Response.isSuccess_iff, kind?, Option.or_eq_none_iff, Option.map_eq_none_iff,
    bodyKind?_eq_none_iff, statusKind?_eq_none_iff]
  constructor
  · rintro ⟨⟨hbody, hphrase⟩, hstatus, hsuccess⟩
    refine ⟨⟨?_, ?_, hphrase, hstatus⟩, hsuccess⟩
    · exact fun body h => (tableKind?_eq_none_iff.1 (hbody body h)).1
    · exact fun body h => (tableKind?_eq_none_iff.1 (hbody body h)).2
  · rintro ⟨⟨hcode, hmessage, hphrase, hstatus⟩, hsuccess⟩
    refine ⟨⟨fun body h => ?_, hphrase⟩, hstatus, hsuccess⟩
    exact tableKind?_eq_none_iff.2 ⟨hcode body h, hmessage body h⟩

/-! ### Outcomes -/

theorem classify_of_ok {wait : Option Nanoseconds} (h : response.retryAfter = .ok wait) :
    t.classify response decoded = match t.kind? response decoded with
      | some (kind, code) => .error (.failed (.classified
          { kind, code, retryAfter := wait, data := decoded
            message := Error.truncate (t.venue ++ " " ++ response.body) }))
      | none => .ok () := by
  unfold classify detect
  rw [h]
  cases t.kind? response decoded <;> rfl

theorem classify_of_aborted (h : response.retryAfter = .error .aborted) :
    t.classify response decoded = .error .aborted := by
  unfold classify detect
  rw [h]
  rfl

theorem retryAfter_cases (r : Response) :
    r.retryAfter = .error .aborted ∨ ∃ wait, r.retryAfter = .ok wait := by
  cases h : r.retryAfter with
  | ok wait => exact .inr ⟨wait, rfl⟩
  | error f =>
    cases f with
    | failed e => exact absurd h (r.retryAfter_ne_failed e)
    | aborted => exact .inl rfl

/-- **A response passes** if no stage finds anything in it, its status reports success, and its
header can be read. -/
theorem classify_eq_ok_iff :
    t.classify response decoded = .ok () ↔ response.retryAfter ≠ .error .aborted ∧
      t.Unmatched response decoded ∧ 200 ≤ response.status ∧ response.status ≤ 299 := by
  rw [← kind?_eq_none_iff]
  rcases retryAfter_cases response with h | ⟨wait, h⟩
  · rw [classify_of_aborted h, h]
    simp
  · rw [classify_of_ok h, h]
    cases t.kind? response decoded <;> simp

/-- **There is no outcome** if the header cannot be read, whatever else the response says. -/
theorem classify_eq_aborted_iff :
    t.classify response decoded = .error .aborted ↔ response.retryAfter = .error .aborted := by
  rcases retryAfter_cases response with h | ⟨wait, h⟩
  · rw [classify_of_aborted h, h]
    simp
  · rw [classify_of_ok h, h]
    cases t.kind? response decoded <;> simp

/-- **A failure is reported** if the header can be read and a stage finds something. -/
theorem classify_eq_failed_iff {error : Error} :
    t.classify response decoded = .error (.failed error) ↔ ∃ wait kind code,
      response.retryAfter = .ok wait ∧ t.kind? response decoded = some (kind, code) ∧
      error = .classified { kind, code, retryAfter := wait, data := decoded
                            message := Error.truncate (t.venue ++ " " ++ response.body) } := by
  rcases retryAfter_cases response with h | ⟨wait, h⟩
  · rw [classify_of_aborted h, h]
    simp
  · rw [classify_of_ok h, h]
    cases t.kind? response decoded with
    | none => simp
    | some found => simp [Prod.ext_iff, eq_comm]

end Classifier

end Bourse
