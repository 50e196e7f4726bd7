import Bourse.Client.Request
import Bourse.Proofs.Classify.Stages
import Bourse.Proofs.Text.Blank

/-! # What a client makes of a response

The verdict on a response is the value of its body or a failure. `Accepts` says which responses are
good, and `ValueOf` what the value of a body is.

* `valueOf_iff`: a body has one value;
* `verdict_eq_ok_iff`: a value comes of a good response only;
* `verdict_of_hook`, `verdict_of_not_accepts`, `verdict_eq_aborted_iff`: the failure that the
  adapter finds, any other failure, and when there is no answer at all. -/

namespace Bourse

/-! ### The value of a body -/

/-- A body that begins, behind white space, like a JSON object or list is the text of this value. -/
def IsJson (body : String) (v : Json) : Prop :=
  ∃ c cs, Text.dropStart Text.isBlank body.toList = c :: cs ∧ (c = '\x7b' ∨ c = '[') ∧
    Json.parse? (String.ofList (c :: cs)) = some v

/-- The value of a body. -/
inductive ValueOf (body : String) : Json → Prop
  | json {v : Json} : IsJson body v → ValueOf body v
  | null : (∀ c ∈ body.toList, Text.isBlank c = true) → ValueOf body .null
  | text : (∃ c ∈ body.toList, Text.isBlank c = false) → (∀ v, ¬ IsJson body v) →
      ValueOf body (.str body)

namespace Client

theorem decodeBody_eq_some_iff {body : String} {v : Json} :
    decodeBody body = some v ↔ IsJson body v := by
  unfold decodeBody IsJson
  split
  · next cs h => simp [h]
  · next cs h => simp [h]
  · next hbrace hbracket =>
    constructor
    · rintro ⟨⟩
    · rintro ⟨c, cs, h, rfl | rfl, -⟩
      · exact absurd h (hbrace cs)
      · exact absurd h (hbracket cs)

theorem decodeBody_eq_none_iff {body : String} :
    decodeBody body = none ↔ ∀ v, ¬ IsJson body v := by
  simp only [← decodeBody_eq_some_iff]
  exact Option.eq_none_iff_forall_ne_some

/-- A blank body is no JSON. -/
theorem not_isJson_of_blank {body : String} (h : ∀ c ∈ body.toList, Text.isBlank c = true)
    (v : Json) : ¬ IsJson body v := by
  rintro ⟨c, cs, hcs, hc, -⟩
  have hblank : Text.isBlank c = true := by
    refine Text.all_dropStart_iff.2 h c ?_
    rw [hcs]
    exact List.mem_cons_self
  rcases hc with rfl | rfl <;> exact absurd hblank (by decide)

/-- **The value of a body** is what a good response gives: there is one, and no other. -/
theorem valueOf_iff {response : Response} {v : Json} :
    ValueOf response.body v ↔ payload response (decodeBody response.body) = v := by
  constructor
  · intro h
    cases h with
    | json hjson => rw [decodeBody_eq_some_iff.2 hjson]; rfl
    | null hblank =>
      rw [decodeBody_eq_none_iff.2 (not_isJson_of_blank hblank), payload,
        if_pos (Text.trim_eq_empty_iff.2 hblank)]
    | text hchar hjson =>
      have hblank : Text.trim response.body ≠ "" := by
        simpa [Text.trim_eq_empty_iff] using hchar
      rw [decodeBody_eq_none_iff.2 hjson, payload, if_neg hblank]
  · rintro rfl
    cases hdecoded : decodeBody response.body with
    | some v => exact .json (decodeBody_eq_some_iff.1 hdecoded)
    | none =>
      unfold payload
      by_cases hblank : Text.trim response.body = ""
      · rw [if_pos hblank]
        exact .null (Text.trim_eq_empty_iff.1 hblank)
      · rw [if_neg hblank]
        refine .text ?_ (decodeBody_eq_none_iff.1 hdecoded)
        simpa [Text.trim_eq_empty_iff] using hblank

/-! ### The verdict -/

/-- What a client makes of a response. -/
def verdict (c : Client) (response : Response) : Attempt Json := do
  let decoded := decodeBody response.body
  c.handleResponse response decoded
  return payload response decoded

/-- A response is good: its status reports success, the adapter finds no failure in it, and no stage
of the classifier does. -/
structure Accepts (c : Client) (response : Response) : Prop where
  status : 200 ≤ response.status ∧ response.status ≤ 299
  hook : c.adapter.inspect response (decodeBody response.body) = .ok none
  unmatched : c.classifier.Unmatched response (decodeBody response.body)

variable {c : Client} {response : Response}

/-- The failure that the adapter finds is the answer. -/
theorem verdict_of_hook {e : Error}
    (h : c.adapter.inspect response (decodeBody response.body) = .ok (some e)) :
    c.verdict response = .error (.failed e) := by
  simp only [verdict, handleResponse, h]
  rfl

theorem verdict_of_hook_error {f : Failure}
    (h : c.adapter.inspect response (decodeBody response.body) = .error f) :
    c.verdict response = .error f := by
  simp only [verdict, handleResponse, h]
  rfl

theorem verdict_of_hook_none
    (h : c.adapter.inspect response (decodeBody response.body) = .ok none) :
    c.verdict response = match c.classifier.classify response (decodeBody response.body) with
      | .ok () => .ok (payload response (decodeBody response.body))
      | .error f => .error f := by
  simp only [verdict, handleResponse, h]
  cases c.classifier.classify response (decodeBody response.body) <;> rfl

theorem verdict_of_accepts (h : c.Accepts response)
    (hwait : response.retryAfter ≠ .error .aborted) :
    c.verdict response = .ok (payload response (decodeBody response.body)) := by
  have hpass : c.classifier.classify response (decodeBody response.body) = .ok () :=
    Classifier.classify_eq_ok_iff.2 ⟨hwait, h.unmatched, h.status⟩
  rw [verdict_of_hook_none h.hook, hpass]

theorem accepts_of_verdict {v : Json} (h : c.verdict response = .ok v) :
    c.Accepts response ∧ response.retryAfter ≠ .error .aborted := by
  cases hhook : c.adapter.inspect response (decodeBody response.body) with
  | error f =>
    rw [verdict_of_hook_error hhook] at h
    cases h
  | ok found =>
    cases found with
    | some e =>
      rw [verdict_of_hook hhook] at h
      cases h
    | none =>
      rw [verdict_of_hook_none hhook] at h
      cases hclassify : c.classifier.classify response (decodeBody response.body) with
      | error f =>
        rw [hclassify] at h
        cases h
      | ok u =>
        obtain ⟨hwait, hunmatched, hstatus⟩ := Classifier.classify_eq_ok_iff.1 hclassify
        exact ⟨⟨hstatus, hhook, hunmatched⟩, hwait⟩

/-- **A value** comes of a good response only, and it is the value of the body. -/
theorem verdict_eq_ok_iff {v : Json} :
    c.verdict response = .ok v ↔
      c.Accepts response ∧ response.retryAfter ≠ .error .aborted ∧ ValueOf response.body v := by
  constructor
  · intro h
    obtain ⟨haccepts, hwait⟩ := accepts_of_verdict h
    refine ⟨haccepts, hwait, valueOf_iff.2 ?_⟩
    rw [verdict_of_accepts haccepts hwait] at h
    exact Except.ok.inj h
  · rintro ⟨haccepts, hwait, hvalue⟩
    rw [verdict_of_accepts haccepts hwait, valueOf_iff.1 hvalue]

/-- **There is no answer** if the adapter gives none, or if it finds nothing and the classifier
cannot read how long to wait. -/
theorem verdict_eq_aborted_iff :
    c.verdict response = .error .aborted ↔
      c.adapter.inspect response (decodeBody response.body) = .error .aborted ∨
      c.adapter.inspect response (decodeBody response.body) = .ok none ∧
        response.retryAfter = .error .aborted := by
  have haborted : c.classifier.classify response (decodeBody response.body) = .error .aborted ↔
      response.retryAfter = .error .aborted := Classifier.classify_eq_aborted_iff
  rw [← haborted]
  cases hhook : c.adapter.inspect response (decodeBody response.body) with
  | error f => simp [verdict_of_hook_error hhook]
  | ok found =>
    cases found with
    | some e => simp [verdict_of_hook hhook]
    | none =>
      rw [verdict_of_hook_none hhook]
      cases c.classifier.classify response (decodeBody response.body) <;> simp

/-- **Any other response is an error.** -/
theorem verdict_of_not_accepts (h : ¬ c.Accepts response)
    (hhook : c.adapter.inspect response (decodeBody response.body) ≠ .error .aborted)
    (hwait : response.retryAfter ≠ .error .aborted) :
    ∃ e, c.verdict response = .error (.failed e) := by
  cases hresult : c.verdict response with
  | ok v => exact absurd (verdict_eq_ok_iff.1 hresult).1 h
  | error f =>
    cases f with
    | failed e => exact ⟨e, rfl⟩
    | aborted =>
      rcases verdict_eq_aborted_iff.1 hresult with habort | ⟨-, habort⟩
      · exact absurd habort hhook
      · exact absurd habort hwait

end Client

end Bourse
