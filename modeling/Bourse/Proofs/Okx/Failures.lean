import Bourse.Okx.Venue
import Bourse.Proofs.Classify.Stages
import Bourse.Proofs.Classify.Tables

/-! # How OKX tells failures

A body of OKX has a code, and the records in it may have codes of their own. `Tells` is the failure
that a body tells of: that of the first record whose code is not zero, and else that of the
envelope. The hook of the adapter finds it, in lists of records of any length and shape
(`failure?_eq_some_iff`), and finds nothing exactly if all the codes are zero
(`failure?_eq_none_iff`). What it reports has the code, and the kind that the table of the venue
assigns to it (`inspect_of_tells`, `kindOf_eq_iff`). -/

namespace Bourse.Okx

variable {body : Json} {code message : String} {response : Response}

/-- A record reports no failure: it has no code, or zero. -/
def Passes (item : Json) : Prop := ∀ code, item.getText? "sCode" = some code → code = "0"

/-- The failure that a body tells of. A body without a code tells of nothing. -/
inductive Tells (body : Json) : (code message : String) → Prop
  | record {before after : List Json} {item : Json} {envelope code : String} :
      body.getText? "code" = some envelope → body.list "data" = before ++ item :: after →
      (∀ r ∈ before, Passes r) → item.getText? "sCode" = some code → code ≠ "0" →
      Tells body code ((item.getText? "sMsg").getD "")
  | envelope {code : String} :
      body.getText? "code" = some code → (∀ r ∈ body.list "data", Passes r) → code ≠ "0" →
      Tells body code ((body.getText? "msg").getD "")

/-! ### Records -/

/-- The failure of one record. -/
def recordFailure? (item : Json) : Option (String × String) :=
  match item.getText? "sCode" with
  | some code => if code = "0" then none else some (code, (item.getText? "sMsg").getD "")
  | none => none

theorem failedRecord?_eq (body : Json) :
    failedRecord? body = (body.list "data").findSome? recordFailure? := rfl

theorem recordFailure?_eq_none_iff {item : Json} : recordFailure? item = none ↔ Passes item := by
  unfold recordFailure? Passes
  cases item.getText? "sCode" <;> simp

instance (item : Json) : Decidable (Passes item) := decidable_of_iff _ recordFailure?_eq_none_iff

theorem recordFailure?_eq_some_iff {item : Json} :
    recordFailure? item = some (code, message) ↔
      item.getText? "sCode" = some code ∧ code ≠ "0" ∧
        (item.getText? "sMsg").getD "" = message := by
  unfold recordFailure?
  cases item.getText? "sCode" with
  | none => simp
  | some c =>
    by_cases hc : c = "0"
    · simp only [hc, if_true, reduceCtorEq, Option.some.injEq, false_iff, not_and]
      rintro rfl hne
      exact absurd rfl hne
    · simp only [if_neg hc, Option.some.injEq, Prod.mk.injEq]
      constructor
      · rintro ⟨rfl, hmessage⟩
        exact ⟨rfl, hc, hmessage⟩
      · rintro ⟨rfl, -, hmessage⟩
        exact ⟨rfl, hmessage⟩

theorem failedRecord?_eq_none_iff :
    failedRecord? body = none ↔ ∀ item ∈ body.list "data", Passes item := by
  simp only [failedRecord?_eq, List.findSome?_eq_none_iff, recordFailure?_eq_none_iff]

/-- **The first record that fails** is found behind any number of others. -/
theorem failedRecord?_eq_some_iff :
    failedRecord? body = some (code, message) ↔ ∃ before item after,
      body.list "data" = before ++ item :: after ∧ (∀ r ∈ before, Passes r) ∧
        item.getText? "sCode" = some code ∧ code ≠ "0" ∧
        (item.getText? "sMsg").getD "" = message := by
  rw [failedRecord?_eq, List.findSome?_eq_some_iff]
  simp only [recordFailure?_eq_none_iff, recordFailure?_eq_some_iff]
  constructor
  · rintro ⟨before, item, after, heq, hfails, hbefore⟩
    exact ⟨before, item, after, heq, hbefore, hfails⟩
  · rintro ⟨before, item, after, heq, hbefore, hfails⟩
    exact ⟨before, item, after, heq, hfails, hbefore⟩

/-! ### Bodies -/

theorem failure?_of_code {envelope : String} (h : body.getText? "code" = some envelope) :
    failure? body = (failedRecord? body).or (if envelope = "0" then none
      else some (envelope, (body.getText? "msg").getD "")) := by
  rw [failure?, h]

/-- **Nothing is found** exactly if the code of the body and those of all records are zero. -/
theorem failure?_eq_none_iff :
    failure? body = none ↔ ∀ envelope, body.getText? "code" = some envelope →
      envelope = "0" ∧ ∀ item ∈ body.list "data", Passes item := by
  cases h : body.getText? "code" with
  | none => simp [failure?, h]
  | some envelope =>
    rw [failure?_of_code h, Option.or_eq_none_iff, failedRecord?_eq_none_iff, and_comm]
    by_cases hzero : envelope = "0" <;> simp [hzero]

/-- **What is found** is the failure that the body tells of. -/
theorem failure?_eq_some_iff :
    failure? body = some (code, message) ↔ Tells body code message := by
  constructor
  · intro hfound
    -- the records come first, and the envelope is only asked if all of them pass
    cases h : body.getText? "code" with
    | none =>
      rw [failure?, h] at hfound
      cases hfound
    | some envelope =>
      rw [failure?_of_code h] at hfound
      rcases Option.or_eq_some_iff.1 hfound with hrecord | ⟨hpass, henvelope⟩
      · obtain ⟨before, item, after, heq, hbefore, hcode, hne, rfl⟩ :=
          failedRecord?_eq_some_iff.1 hrecord
        exact .record h heq hbefore hcode hne
      · by_cases hzero : envelope = "0"
        · rw [if_pos hzero] at henvelope
          cases henvelope
        · rw [if_neg hzero] at henvelope
          cases henvelope
          exact .envelope h (failedRecord?_eq_none_iff.1 hpass) hzero
  · intro htells
    cases htells with
    | record h heq hbefore hcode hne =>
      rw [failure?_of_code h,
        failedRecord?_eq_some_iff.2 ⟨_, _, _, heq, hbefore, hcode, hne, rfl⟩, Option.some_or]
    | envelope h hpass hne =>
      rw [failure?_of_code h, failedRecord?_eq_none_iff.2 hpass, Option.none_or, if_neg hne]

/-! ### The hook -/

/-- What the hook reports for a failure. -/
def report (response : Response) (body : Json) (code message : String)
    (retryAfter : Option Nanoseconds) : ClassifiedError :=
  { kind := kindOf code message
    message := "okx " ++ response.preview
    code := some code
    data := some body
    retryAfter }

theorem kindOf_eq_iff {kind : ErrorKind} :
    kindOf code message = kind ↔ exceptions.Assigns code message kind :=
  ExceptionTable.assigns_iff.symm

/-- A decoded body tells of a failure. -/
def TellsOfFailure (decoded : Option Json) : Prop :=
  ∃ body code message, decoded = some body ∧ Tells body code message

theorem not_tellsOfFailure_of_no_code (h : body.getText? "code" = none) :
    ¬ TellsOfFailure (some body) := by
  rintro ⟨_, code, message, ⟨⟩, htells⟩
  cases htells with
  | record hcode => exact absurd (h.symm.trans hcode) nofun
  | envelope hcode => exact absurd (h.symm.trans hcode) nofun

/-- The hook passes what tells of nothing. -/
theorem inspect_of_silent {decoded : Option Json} (h : ¬ TellsOfFailure decoded) :
    inspect response decoded = .ok none := by
  cases decoded with
  | none => rfl
  | some body =>
    have hnone : failure? body = none := by
      rw [Option.eq_none_iff_forall_ne_some]
      rintro ⟨code, message⟩ hsome
      exact h ⟨body, code, message, rfl, failure?_eq_some_iff.1 hsome⟩
    simp only [inspect, hnone]

/-- **The hook reports** the failure that a body tells of, once it has read the header. -/
theorem inspect_of_tells (h : Tells body code message) :
    inspect response (some body) =
      response.retryAfter.map fun wait =>
        some (.classified (report response body code message wait)) := by
  simp only [inspect, failure?_eq_some_iff.2 h]
  cases response.retryAfter <;> rfl

/-- **The hook passes** a body with a code exactly if that code and those of all records are
zero. -/
theorem inspect_eq_none_iff {envelope : String} (h : body.getText? "code" = some envelope) :
    inspect response (some body) = .ok none ↔
      envelope = "0" ∧ ∀ item ∈ body.list "data", Passes item := by
  have hnone : failure? body = none ↔ envelope = "0" ∧ ∀ item ∈ body.list "data", Passes item := by
    rw [failure?_eq_none_iff, h]
    simp
  rw [← hnone]
  cases hfailure : failure? body with
  | none => simp [inspect, hfailure]
  | some failed =>
    obtain ⟨code, message⟩ := failed
    rw [inspect_of_tells (failure?_eq_some_iff.1 hfailure)]
    cases response.retryAfter <;> simp [Except.map]

/-- A body with a code that is not passed tells of a failure. -/
theorem exists_tells {envelope : String} (h : body.getText? "code" = some envelope)
    (hfails : ¬ (envelope = "0" ∧ ∀ item ∈ body.list "data", Passes item)) :
    ∃ code message, Tells body code message := by
  cases hfailure : failure? body with
  | none => exact absurd (failure?_eq_none_iff.1 hfailure envelope h) hfails
  | some failed => exact ⟨failed.1, failed.2, failure?_eq_some_iff.1 hfailure⟩

end Bourse.Okx
