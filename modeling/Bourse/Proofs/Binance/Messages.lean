import Bourse.Proofs.Client.StatusKind
import Bourse.Proofs.Table

/-! # Codes beside messages

The table of Binance has kinds for messages and for codes, and a code counts before the message
beside it. So a body with a message of the table has the kind of its code if the table knows that
too, and for some codes this is a more general kind than that of the message (`Coarsens`): a refusal
for lack of funds is reported as an `ExchangeError` if it comes with the code of all orders that are
turned down. For every other code, and without one, the kind of the message or one that is not above
it is reported (`kind_of_listed_message`).

A body that says of itself that it is no success is judged by what stands under `code` and `msg`,
and every other one by the fields that the classifier reads (`Judged`). -/

namespace Bourse

namespace ErrorKind

/-- A kind is more general than another one. -/
def Above (general special : ErrorKind) : Prop :=
  general ≠ special ∧ special.isA general = true

instance (general special : ErrorKind) : Decidable (Above general special) := by
  unfold Above
  infer_instance

end ErrorKind

namespace Binance

variable {response : Response} {body : Json} {code message : Option String}

/-! ### What is looked up -/

/-- The code and the message by which a body is judged. -/
inductive Judged (body : Json) : Option String → Option String → Prop
  | refusal : refuses (some body) = true → Judged body (body.getText? "code") (body.getText? "msg")
  | other : refuses (some body) = false →
      Judged body (Classifier.errorCode? body) (Classifier.errorMessage? body)

/-- **What the table knows is reported**, on either way. -/
theorem reportsAs_of_judged {config : ClientConfig} {kind : ErrorKind}
    (hjudged : Judged body code message)
    (hkind : Classifier.tableKind? exceptions code message = some kind) :
    (⟨adapter, config⟩ : Client).ReportsAs response body kind := by
  cases hjudged with
  | refusal hrefuses =>
    refine .inr ⟨_, Client.handleResponse_of_inspect (congrArg Except.ok
      (inspect_of_refuses hrefuses)), ?_⟩
    rw [kind_refusal, hkind, Option.getD_some]
  | other hpasses =>
    have hsilent : Binance.inspect response (some body) = none := by
      rcases inspect_cases response (some body) with ⟨hrefuses, -⟩ | ⟨-, hnone⟩
      · exact absurd hrefuses (by rw [hpasses]; decide)
      · exact hnone
    have hfound : (⟨adapter, config⟩ : Client).classifier.kind? response (some body) =
        some (kind, Classifier.errorCode? body) := by
      show ((Classifier.tableKind? exceptions _ _).map _).or _ = _
      rw [hkind]
      rfl
    exact Client.reportsAs_of_kind? (congrArg Except.ok hsilent) hfound

/-! ### Codes and messages of the table -/

/-- Codes that say no more than that the venue has failed. -/
def generalCodes : List String := ["-1104", "-1128", "-2010", "-3010"]

/-- What stands for a key that is not accepted. -/
def keyCodes : List String := ["API key does not exist", "-1022", "-2014", "-2015"]

/-- What stands for an order that is not accepted. -/
def orderCodes : List String := ["Order would trigger immediately.", "-1013", "-1100"]

/-- A code has a more general kind than this one. -/
def Coarsens (code : String) (kind : ErrorKind) : Prop :=
  code ∈ generalCodes ∧ ErrorKind.exchangeError.Above kind ∨
  code ∈ keyCodes ∧ kind = .permissionDenied ∨ code ∈ orderCodes ∧ kind = .orderNotFound

instance (code : String) (kind : ErrorKind) : Decidable (Coarsens code kind) := by
  unfold Coarsens
  infer_instance

/-- **Every code beside every message** of the table. -/
theorem above_iff_coarsens : ∀ c ∈ exceptions.exact.entries, ∀ m ∈ exceptions.exact.entries,
    c.2.Above m.2 ↔ Coarsens c.1 m.2 := by
  decide

theorem exists_exactKind?_of_coarsens {c : String} {kind : ErrorKind} (h : Coarsens c kind) :
    ∃ general, exceptions.exactKind? c = some general := by
  have hlisted : ∀ c ∈ generalCodes ++ keyCodes ++ orderCodes,
      (exceptions.exactKind? c).isSome = true := by
    decide
  refine Option.isSome_iff_exists.1 (hlisted c ?_)
  rw [List.mem_append, List.mem_append]
  rcases h with ⟨hc, -⟩ | ⟨hc, -⟩ | ⟨hc, -⟩
  · exact .inl (.inl hc)
  · exact .inl (.inr hc)
  · exact .inr hc

/-- **The kind beside a message** of the table lies above that of the message for the codes that
coarsen it, and for no others. -/
theorem above_getD_iff {m : String} {kind : ErrorKind} (hm : exceptions.exactKind? m = some kind) :
    ((code.bind exceptions.exactKind?).getD kind).Above kind ↔
      ∃ c, code = some c ∧ Coarsens c kind := by
  constructor
  · intro habove
    cases hcode : code.bind exceptions.exactKind? with
    | none =>
      rw [hcode] at habove
      exact absurd rfl habove.1
    | some general =>
      obtain ⟨c, rfl, hc⟩ := Option.bind_eq_some_iff.1 hcode
      rw [hcode] at habove
      exact ⟨c, rfl, (above_iff_coarsens _ ((Table.mem_entries _).2 hc) _
        ((Table.mem_entries _).2 hm)).1 habove⟩
  · rintro ⟨c, rfl, hcoarsens⟩
    obtain ⟨general, hc⟩ := exists_exactKind?_of_coarsens hcoarsens
    rw [Option.bind_some, hc]
    exact (above_iff_coarsens _ ((Table.mem_entries _).2 hc) _
      ((Table.mem_entries _).2 hm)).2 hcoarsens

theorem tableKind?_of_exactKind? {m : String} {kind : ErrorKind}
    (hm : exceptions.exactKind? m = some kind) :
    Classifier.tableKind? exceptions code (some m) =
      some ((code.bind exceptions.exactKind?).getD kind) := by
  unfold Classifier.tableKind?
  rw [Option.bind_some, hm]
  cases code.bind exceptions.exactKind? <;> rfl

/-- **A message of the table and a code beside it.** A body that is judged by such a message is
reported with the kind of its code if the table knows that, and else with that of the message; the
kind is more general than that of the message exactly for the codes that coarsen it. A refusal
without a text under `msg` is reported with the kind of its code, or as an `ExchangeError`, whatever
message it has elsewhere. -/
theorem kind_of_listed_message (config : ClientConfig) (response : Response) (body : Json) :
    (∀ code m kind, Judged body code (some m) → exceptions.exactKind? m = some kind →
      ∃ reported, (⟨adapter, config⟩ : Client).ReportsAs response body reported ∧
        reported = (code.bind exceptions.exactKind?).getD kind ∧
        (reported.Above kind ↔ ∃ c, code = some c ∧ Coarsens c kind)) ∧
    (refuses (some body) = true → body.getText? "msg" = none →
      (⟨adapter, config⟩ : Client).ReportsAs response body
        (((body.getText? "code").bind exceptions.exactKind?).getD .exchangeError)) := by
  constructor
  · intro code m kind hjudged hm
    exact ⟨_, reportsAs_of_judged hjudged (tableKind?_of_exactKind? hm), rfl, above_getD_iff hm⟩
  · intro hrefuses hmsg
    refine .inr ⟨_, Client.handleResponse_of_inspect (congrArg Except.ok
      (inspect_of_refuses hrefuses)), ?_⟩
    rw [kind_refusal, hmsg, Classifier.tableKind?, Option.bind_none, Option.bind_none,
      Option.or_none, Option.or_none]

/-- The message about a lack of funds. -/
def lacksFunds : String := "Account has insufficient balance for requested action."

/-- A body with this message and a code. -/
def declined (code : String) : Json := .obj [("code", .str code), ("msg", .str lacksFunds)]

theorem judged_declined (code : String) : Judged (declined code) (some code) (some lacksFunds) :=
  .other rfl

/-- A code that the table does not know leaves the kind of the message, and that of orders which are
turned down coarsens it. -/
theorem kind_of_listed_message_funds :
    (∃ reported, (⟨adapter, {}⟩ : Client).ReportsAs { status := 400 } (declined "-9999") reported ∧
      reported = .insufficientFunds ∧ ¬ reported.Above .insufficientFunds) ∧
    ∃ reported, (⟨adapter, {}⟩ : Client).ReportsAs { status := 400 } (declined "-2010") reported ∧
      reported = .exchangeError ∧ reported.Above .insufficientFunds := by
  have hm : exceptions.exactKind? lacksFunds = some .insufficientFunds := by decide
  constructor
  · obtain ⟨reported, hreports, hkind, -⟩ :=
      (kind_of_listed_message {} { status := 400 } (declined "-9999")).1 _ _ _
        (judged_declined _) hm
    have hfunds : reported = .insufficientFunds := hkind.trans (by decide)
    exact ⟨reported, hreports, hfunds, by rw [hfunds]; decide⟩
  · obtain ⟨reported, hreports, hkind, habove⟩ :=
      (kind_of_listed_message {} { status := 400 } (declined "-2010")).1 _ _ _
        (judged_declined _) hm
    exact ⟨reported, hreports, hkind.trans (by decide), habove.2 ⟨_, rfl, by decide⟩⟩

/-- **A general code hides the message** about a lack of funds. -/
theorem general_code_hides_message :
    ¬ ∀ (config : ClientConfig) (response : Response) (body : Json) (m : String)
      (kind : ErrorKind) (e : Error), Classifier.errorMessage? body = some m →
      exceptions.exactKind? m = some kind →
      (⟨adapter, config⟩ : Client).handleResponse response (some body) = .error (.failed e) →
      ¬ e.kind.Above kind := by
  intro h
  have hm : exceptions.exactKind? lacksFunds = some .insufficientFunds := by decide
  have hfound : Classifier.tableKind? exceptions (some "-2010") (some lacksFunds) =
      some .exchangeError := by decide
  have hreports : (⟨adapter, {}⟩ : Client).ReportsAs { status := 400 } (declined "-2010")
      .exchangeError := reportsAs_of_judged (judged_declined _) hfound
  rcases hreports with ⟨⟨text, hheader, -⟩, -⟩ | ⟨e, he, hkind⟩
  · cases hheader
  · refine h {} _ _ lacksFunds _ e rfl hm he ?_
    rw [hkind]
    decide

end Binance

end Bourse
