import Bourse.Proofs.Client.LongWait

/-! # The kind of a status and the hooks

A response that reports no success, with a body about which the tables of its venue know nothing,
has the kind of its status (`StatusTable.kind`), as far as the classifier is concerned
(`Classifier.kind?_of_misses`). The classifier is not asked if the hook of the adapter finds a
failure, and the hooks give the general kind to all that the tables miss: so on OKX a body with a
code that is not zero, and on Binance one that says of itself that it is no success, hide the status
(`kind_of_unlisted`, `hook_hides_status`). -/

namespace Bourse

variable {response : Response} {body : Json}

/-- The kind of a status that reports no success. -/
def StatusTable.kind (t : StatusTable) (status : Nat) : ErrorKind :=
  (t.get? status).getD .exchangeError

/-- The kind that a status has, if it is that of a failure. -/
def StatusTable.verdict (t : StatusTable) (status : ℕ) : Option ErrorKind :=
  (t.get? status).or (if 200 ≤ status ∧ status ≤ 299 then none else some .exchangeError)

theorem StatusTable.verdict_of_failure (t : StatusTable) {status : ℕ}
    (h : ¬ (200 ≤ status ∧ status ≤ 299)) : t.verdict status = some (t.kind status) := by
  unfold verdict kind
  rw [if_neg h]
  cases t.get? status <;> rfl

/-- **What may be tried again** after too many requests or a fault of the server: everything but a
network that asks to be let in. -/
theorem StatusTable.isRetryable_kind_iff {status : Nat}
    (h : status = 429 ∨ 500 ≤ status ∧ status ≤ 599) :
    (standard.kind status).isRetryable = true ↔ status ≠ 511 := by
  have hall : ∀ n < 100, (standard.kind (500 + n)).isRetryable = true ↔ 500 + n ≠ 511 := by decide
  rcases h with rfl | ⟨hlow, hhigh⟩
  · decide
  · obtain ⟨n, rfl⟩ := Nat.exists_eq_add_of_le hlow
    exact hall n (by omega)

/-! ### The classifier -/

namespace Classifier

variable {t : Classifier}

theorem misses_iff {exceptions : ExceptionTable} {code message : Option String} :
    exceptions.Misses code message ↔ tableKind? exceptions code message = none := by
  rw [tableKind?_eq_none_iff]
  simp only [ExceptionTable.broadKind?_eq_none_iff]
  exact ⟨fun h => ⟨h.code, h.message⟩, fun h => ⟨h.1, h.2⟩⟩

theorem statusKind?_eq (t : Classifier) (response : Response) :
    t.statusKind? response = t.statuses.verdict response.status := by
  unfold statusKind? StatusTable.verdict
  simp only [Response.isSuccess_iff]

/-- **The status decides** about a response in which nothing is found. -/
theorem kind?_of_bodyKind? {decoded : Option Json} (h : t.bodyKind? response decoded = none) :
    t.kind? response decoded =
      (t.statuses.verdict response.status).map fun kind => (kind, none) := by
  rw [kind?, h, Option.none_or, statusKind?_eq]

/-- So it does about a body that the tables miss. -/
theorem kind?_of_misses (h : t.exceptions.Misses (errorCode? body) (errorMessage? body))
    (hstatus : ¬ (200 ≤ response.status ∧ response.status ≤ 299)) :
    t.kind? response (some body) = some (t.statuses.kind response.status, none) := by
  have hbody : t.bodyKind? response (some body) = none := by
    simp only [bodyKind?, misses_iff.1 h, Option.map_none]
  rw [kind?_of_bodyKind? hbody, t.statuses.verdict_of_failure hstatus, Option.map_some]

end Classifier

namespace Client

/-- A response is reported as a failure of this kind, unless it asks for too long a wait. -/
def ReportsAs (c : Client) (response : Response) (body : Json) (kind : ErrorKind) : Prop :=
  response.AsksTooLong ∧ c.handleResponse response (some body) = .error .aborted ∨
  ∃ e, c.handleResponse response (some body) = .error (.failed e) ∧ e.kind = kind

variable {c : Client}

theorem handleResponse_of_inspect_aborted {decoded : Option Json}
    (h : c.adapter.inspect response decoded = .error .aborted) :
    c.handleResponse response decoded = .error .aborted := by
  unfold handleResponse
  rw [h]
  rfl

/-- A body that the hook passes has the kind that the classifier finds. -/
theorem reportsAs_of_kind? {kind : ErrorKind} {code : Option String}
    (hsilent : c.adapter.inspect response (some body) = .ok none)
    (hkind : c.classifier.kind? response (some body) = some (kind, code)) :
    c.ReportsAs response body kind := by
  unfold ReportsAs
  rw [handleResponse_of_silent hsilent]
  rcases Classifier.retryAfter_cases response with hwait | ⟨wait, hwait⟩
  · exact .inl ⟨Response.retryAfter_eq_aborted_iff.1 hwait, Classifier.classify_of_aborted hwait⟩
  · rw [Classifier.classify_of_ok hwait, hkind]
    exact .inr ⟨_, rfl, rfl⟩

/-- A body that the hook passes and the tables miss has the kind of its status. -/
theorem reportsAs_of_silent (hsilent : c.adapter.inspect response (some body) = .ok none)
    (hmisses : c.description.exceptions.Misses (Classifier.errorCode? body)
      (Classifier.errorMessage? body))
    (hstatus : ¬ (200 ≤ response.status ∧ response.status ≤ 299)) :
    c.ReportsAs response body (c.description.statuses.kind response.status) :=
  reportsAs_of_kind? hsilent (Classifier.kind?_of_misses hmisses hstatus)

end Client

/-! ### Bodies that the tables miss -/

/-- The table of OKX knows nothing about a body: not its code and message, wherever they stand, and
not those of its records. -/
structure Okx.Unlisted (body : Json) : Prop where
  source : exceptions.Misses (Classifier.errorCode? body) (Classifier.errorMessage? body)
  envelope : exceptions.Misses (body.getText? "code") (body.getText? "msg")
  records : ∀ item ∈ body.list "data",
    exceptions.Misses (item.getText? "sCode") (item.getText? "sMsg")

/-- The table of Binance knows nothing about a body. -/
structure Binance.Unlisted (body : Json) : Prop where
  source : exceptions.Misses (Classifier.errorCode? body) (Classifier.errorMessage? body)
  envelope : exceptions.Misses (body.getText? "code") (body.getText? "msg")

/-- **The hook of OKX** has the general kind for what the table misses. -/
theorem Okx.kindOf_of_unlisted {code message : String} (h : Unlisted body)
    (htells : Tells body code message) : kindOf code message = .exchangeError := by
  -- a message that is missing is read as the empty one, in which no keyword occurs
  have hempty : ExceptionTable.NoneOccurs exceptions.broad "" :=
    ExceptionTable.broadKind?_eq_none_iff.1 (by decide)
  cases htells with
  | record henvelope heq hbefore hcode hne =>
    have hmisses := h.records _ (heq ▸ List.mem_append_right _ List.mem_cons_self)
    exact (hcode ▸ hmisses).kind_eq hempty
  | envelope hcode hpass hne => exact (hcode ▸ h.envelope).kind_eq hempty

/-- A refusal has the kind that the table has for what stands under `code` and `msg`. -/
theorem Binance.kind_refusal (response : Response) (body : Json) : (refusal response body).kind =
    (Classifier.tableKind? exceptions (body.getText? "code") (body.getText? "msg")).getD
      .exchangeError := by
  show (Classifier.tableKind? exceptions _ (some ((body.getText? "msg").getD ""))).getD _ = _
  cases body.getText? "msg" with
  | some message => rfl
  | none =>
    -- the table does not know the empty message
    have hempty : exceptions.exactKind? "" = none ∧ exceptions.broadKind? "" = none := by decide
    simp only [Classifier.tableKind?, Option.getD_none, Option.bind_some, Option.bind_none, hempty]

/-- **The hook of Binance** has the general kind for what the table misses. -/
theorem Binance.kind_refusal_of_unlisted (h : Unlisted body) (response : Response) :
    (refusal response body).kind = .exchangeError := by
  rw [kind_refusal, Classifier.misses_iff.1 h.envelope, Option.getD_none]

theorem Binance.inspect_of_refuses (h : refuses (some body) = true) :
    Binance.inspect response (some body) = some (refusal response body) := by
  unfold refuses at h
  split at h
  · rename_i hsuccess
    rw [Option.bind_some] at hsuccess
    simp only [Binance.inspect, Option.bind_some, hsuccess]
  · cases h

namespace Client

/-- **A failure that OKX tells of** hides the status. -/
theorem reportsAs_of_tells {config : ClientConfig} {code message : String}
    (hunlisted : Okx.Unlisted body) (htells : Okx.Tells body code message) :
    (⟨Okx.adapter, config⟩ : Client).ReportsAs response body .exchangeError := by
  rcases Okx.inspect_reports htells with ⟨hlong, habort⟩ | ⟨e, he, -, hkind⟩
  · exact .inl ⟨hlong, handleResponse_of_inspect_aborted habort⟩
  · refine .inr ⟨_, handleResponse_of_inspect he, ?_⟩
    exact (Okx.kindOf_eq_iff.2 hkind).symm.trans (Okx.kindOf_of_unlisted hunlisted htells)

/-- **The kind of what the tables miss.** On both venues a response that reports no success, with
such a body, is a failure with the kind of its status, which may be tried again after too many
requests and almost every fault of the server; but if the hook finds a failure in the body, it is
one of the general kind, whatever the status is. -/
theorem kind_of_unlisted (config : ClientConfig) (response : Response) (body : Json)
    (hstatus : ¬ (200 ≤ response.status ∧ response.status ≤ 299)) :
    (Okx.Unlisted body →
      (Okx.TellsOfFailure (some body) →
        (⟨Okx.adapter, config⟩ : Client).ReportsAs response body .exchangeError) ∧
      (¬ Okx.TellsOfFailure (some body) →
        (⟨Okx.adapter, config⟩ : Client).ReportsAs response body
          (Okx.description.statuses.kind response.status))) ∧
    (Binance.Unlisted body →
      (Binance.refuses (some body) = true → ∃ e,
        (⟨Binance.adapter, config⟩ : Client).handleResponse response (some body) =
          .error (.failed e) ∧ e.kind = .exchangeError) ∧
      (Binance.refuses (some body) = false →
        (⟨Binance.adapter, config⟩ : Client).ReportsAs response body
          (Binance.description.statuses.kind response.status))) ∧
    (response.status = 429 ∨ 500 ≤ response.status ∧ response.status ≤ 599 →
      ((Okx.description.statuses.kind response.status).isRetryable = true ↔
        response.status ≠ 511) ∧
      ((Binance.description.statuses.kind response.status).isRetryable = true ↔
        response.status ≠ 511)) := by
  refine ⟨fun hunlisted => ⟨?_, fun hsilent => ?_⟩, fun hunlisted => ⟨fun hrefuses => ?_,
    fun hpasses => ?_⟩, fun hfault => ⟨?_, ?_⟩⟩
  · rintro ⟨_, code, message, ⟨⟩, htells⟩
    exact reportsAs_of_tells hunlisted htells
  · exact reportsAs_of_silent (Okx.inspect_of_silent hsilent) hunlisted.source hstatus
  · exact ⟨_, handleResponse_of_inspect (congrArg Except.ok (Binance.inspect_of_refuses hrefuses)),
      Binance.kind_refusal_of_unlisted hunlisted response⟩
  · rcases Binance.inspect_cases response (some body) with ⟨hrefuses, -⟩ | ⟨-, hnone⟩
    · exact absurd hrefuses (by rw [hpasses]; decide)
    · exact reportsAs_of_silent (congrArg Except.ok hnone) hunlisted.source hstatus
  · exact StatusTable.isRetryable_kind_iff hfault
  · exact StatusTable.isRetryable_kind_iff hfault

/-- A body of OKX with a code and nothing else. -/
def coded (code : String) : Json := .obj [("code", .str code)]

theorem unlisted_coded {code : String} (h : Okx.exceptions.exactKind? code = none) :
    Okx.Unlisted (coded code) := by
  have hmisses : Okx.exceptions.Misses (some code) none := by
    refine ⟨?_, nofun⟩
    rintro _ ⟨⟩
    exact h
  exact ⟨hmisses, hmisses, nofun⟩

/-- A venue that is down has the kind of its status, as long as its body tells of no failure. -/
theorem kind_of_unlisted_down :
    ¬ (200 ≤ 503 ∧ 503 ≤ 299) ∧ Okx.Unlisted (coded "0") ∧ ¬ Okx.TellsOfFailure (some (coded "0")) ∧
    (⟨Okx.adapter, {}⟩ : Client).ReportsAs { status := 503 } (coded "0") .exchangeNotAvailable := by
  have hstatus : ¬ (200 ≤ 503 ∧ 503 ≤ 299) := by decide
  have hunlisted : Okx.Unlisted (coded "0") := unlisted_coded (by decide)
  have hsilent : ¬ Okx.TellsOfFailure (some (coded "0")) := by
    rintro ⟨_, code, message, ⟨⟩, htells⟩
    rw [← Okx.failure?_eq_some_iff] at htells
    cases htells
  exact ⟨hstatus, hunlisted, hsilent,
    ((kind_of_unlisted {} { status := 503 } (coded "0") hstatus).1 hunlisted).2 hsilent⟩

/-- **The hook hides the status**: too many requests, with a code that the table misses, are a
failure of the general kind. -/
theorem hook_hides_status :
    ¬ ∀ (config : ClientConfig) (response : Response) (body : Json) (e : Error),
      ¬ (200 ≤ response.status ∧ response.status ≤ 299) → Okx.Unlisted body →
      (⟨Okx.adapter, config⟩ : Client).handleResponse response (some body) =
        .error (.failed e) →
      e.kind = Okx.description.statuses.kind response.status := by
  intro h
  have htells : Okx.Tells (coded "59999") "59999" "" :=
    .envelope rfl (by decide) (by decide)
  have hkind := h {} { status := 429 } (coded "59999") _ (by decide)
    (unlisted_coded (by decide)) (handleResponse_of_inspect (Okx.inspect_of_tells htells))
  exact absurd hkind (by decide)

end Client

end Bourse
