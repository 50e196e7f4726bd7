import Bourse.Proofs.Client.StatusKind
import Bourse.Proofs.Table

/-! # What outranks the status

A failure is looked for in what a body says before the status is asked. What a body says depends on
the entries of the tables in the order in which they were added: of the kinds of a code or a whole
message the latest counts (`Given`), of the keywords in a message the earliest (`Heard`), and a code
before a message before a keyword (`Evidence`). A body that was not decoded is searched for phrases
instead, and the tables have no part in it (`Banner`). So two responses with one decoded body are
reported alike if the tables know the body, whatever their statuses and texts are, and else as their
statuses are (`evidence_outranks_status`). -/

namespace Bourse

/-! ### Tables that are built up -/

namespace ExceptionTable

/-- Something that is added to a table. -/
inductive Entry where
  | exact (key : String) (kind : ErrorKind)
  | broad (keyword : String) (kind : ErrorKind)

/-- The keyword that an entry adds. -/
def Entry.keyword? : Entry → Option (String × ErrorKind)
  | .exact _ _ => none
  | .broad keyword kind => some (keyword, kind)

/-- Adds an entry. -/
def add (t : ExceptionTable) : Entry → ExceptionTable
  | .exact key kind => t.withExact key kind
  | .broad keyword kind => t.withBroad keyword kind

/-- The table of these entries, added in order. -/
def built (entries : List Entry) : ExceptionTable := entries.foldl add empty

/-- A code or message was given this kind, and none after that. -/
def Given (entries : List Entry) (key : String) (kind : ErrorKind) : Prop :=
  ∃ before after, entries = before ++ .exact key kind :: after ∧
    ∀ other, Entry.exact key other ∉ after

/-- The earliest of the keywords that occur in a message has this kind. -/
def Heard (entries : List Entry) (message : String) (kind : ErrorKind) : Prop :=
  ∃ before keyword after, entries = before ++ .broad keyword kind :: after ∧
    keyword.toList <:+: message.toList ∧
    ∀ word other, Entry.broad word other ∈ before → ¬ word.toList <:+: message.toList

variable {entries : List Entry} {key message : String} {kind : ErrorKind}

theorem given_concat {e : Entry} : Given (entries ++ [e]) key kind ↔
    e = .exact key kind ∨ (∀ other, e ≠ .exact key other) ∧ Given entries key kind := by
  constructor
  · rintro ⟨before, after, heq, hafter⟩
    rcases List.eq_nil_or_concat after with rfl | ⟨init, last, rfl⟩
    · obtain ⟨-, hlast⟩ := List.append_inj' heq rfl
      exact .inl (List.cons.inj hlast).1
    · rw [List.concat_eq_append] at heq hafter
      rw [← List.cons_append, ← List.append_assoc] at heq
      obtain ⟨rfl, hlast⟩ := List.append_inj' heq rfl
      obtain rfl := (List.cons.inj hlast).1
      refine .inr ⟨fun other hother => hafter other ?_, before, init, rfl, fun other hmem => ?_⟩
      · rw [← hother]
        exact List.mem_append_right _ List.mem_cons_self
      · exact hafter other (List.mem_append_left _ hmem)
  · rintro (rfl | ⟨hne, before, after, rfl, hafter⟩)
    · exact ⟨entries, [], rfl, fun other => List.not_mem_nil⟩
    · refine ⟨before, after ++ [e], by simp, fun other hmem => ?_⟩
      rcases List.mem_append.1 hmem with hmem | hmem
      · exact hafter other hmem
      · exact hne other (List.mem_singleton.1 hmem).symm

/-- **The latest kind** of a code or message counts. -/
theorem exactKind?_built : (built entries).exactKind? key = some kind ↔ Given entries key kind := by
  induction entries using List.reverseRecOn with
  | nil =>
    constructor
    · nofun
    · rintro ⟨before, after, heq, -⟩
      simp at heq
  | append_singleton entries e ih =>
    rw [given_concat, ← ih, built, List.foldl_append]
    cases e with
    | exact k other =>
      show ((built entries).exact.put k other).get? key = some kind ↔ _
      rw [Table.get?_put]
      by_cases hk : key = k
      · subst hk
        simp
      · rw [if_neg hk]
        simp [Ne.symm hk, exactKind?]
    | broad word other =>
      show (built entries).exactKind? key = some kind ↔ _
      simp

theorem broad_built (entries : List Entry) :
    (built entries).broad = entries.filterMap Entry.keyword? := by
  induction entries using List.reverseRecOn with
  | nil => rfl
  | append_singleton entries e ih =>
    rw [built, List.foldl_append, List.filterMap_append, ← ih]
    cases e with
    | exact key kind => exact (List.append_nil _).symm
    | broad keyword kind => rfl

theorem Entry.keyword?_eq_some_iff {e : Entry} :
    e.keyword? = some (key, kind) ↔ e = .broad key kind := by
  cases e <;> simp [keyword?]

/-- **The earliest keyword** in a message counts. -/
theorem broadKind?_built :
    (built entries).broadKind? message = some kind ↔ Heard entries message kind := by
  simp only [broadKind?_eq_some_iff, broad_built, NoneOccurs]
  constructor
  · rintro ⟨words, keyword, rest, heq, hwords, hkeyword⟩
    obtain ⟨before, others, rfl, rfl, hothers⟩ := List.filterMap_eq_append_iff.1 heq
    obtain ⟨skipped, e, after, rfl, hskipped, he, -⟩ := List.filterMap_eq_cons_iff.1 hothers
    rw [Entry.keyword?_eq_some_iff] at he
    subst he
    refine ⟨before ++ skipped, keyword, after, by simp, hkeyword, fun word other hmem => ?_⟩
    rcases List.mem_append.1 hmem with hmem | hmem
    · exact hwords (word, other) (List.mem_filterMap.2 ⟨_, hmem, rfl⟩)
    · cases hskipped _ hmem
  · rintro ⟨before, keyword, after, rfl, hkeyword, hbefore⟩
    refine ⟨before.filterMap Entry.keyword?, keyword, after.filterMap Entry.keyword?, ?_, ?_,
      hkeyword⟩
    · rw [List.filterMap_append]
      rfl
    · rintro ⟨word, other⟩ hmem
      obtain ⟨e, he, hword⟩ := List.mem_filterMap.1 hmem
      rw [Entry.keyword?_eq_some_iff] at hword
      exact hbefore word other (hword ▸ he)

end ExceptionTable

namespace Classifier

open ExceptionTable

/-! ### What a body says -/

/-- The kind that the entries of a table have for a body with a code and a message. -/
inductive Evidence (entries : List Entry) (code message : Option String) : ErrorKind → Prop
  | code {c : String} {kind : ErrorKind} : code = some c → Given entries c kind →
      Evidence entries code message kind
  | message {m : String} {kind : ErrorKind} : (∀ c other, code = some c → ¬ Given entries c other) →
      message = some m → Given entries m kind → Evidence entries code message kind
  | keyword {m : String} {kind : ErrorKind} : (∀ c other, code = some c → ¬ Given entries c other) →
      message = some m → (∀ other, ¬ Given entries m other) → Heard entries m kind →
      Evidence entries code message kind

section
variable {entries : List Entry} {code message : Option String} {kind : ErrorKind}

theorem bind_exactKind?_built : code.bind (built entries).exactKind? = some kind ↔
    ∃ c, code = some c ∧ Given entries c kind := by
  simp only [Option.bind_eq_some_iff, exactKind?_built]

theorem bind_exactKind?_built_eq_none : code.bind (built entries).exactKind? = none ↔
    ∀ c other, code = some c → ¬ Given entries c other := by
  simp only [Option.eq_none_iff_forall_ne_some, ne_eq, bind_exactKind?_built, not_exists, not_and]
  exact forall_comm

/-- **The tables have one kind** for a body, or none. -/
theorem evidence_iff :
    Evidence entries code message kind ↔ tableKind? (built entries) code message = some kind := by
  unfold tableKind?
  constructor
  · intro h
    cases h with
    | code hc hgiven => rw [bind_exactKind?_built.2 ⟨_, hc, hgiven⟩, Option.some_or, Option.some_or]
    | message hcode hm hgiven =>
      rw [bind_exactKind?_built_eq_none.2 hcode, bind_exactKind?_built.2 ⟨_, hm, hgiven⟩,
        Option.none_or, Option.some_or]
    | keyword hcode hm hmessage hheard =>
      have hexact : (some _ : Option String).bind (built entries).exactKind? = none :=
        bind_exactKind?_built_eq_none.2 (by rintro _ other ⟨⟩; exact hmessage other)
      rw [bind_exactKind?_built_eq_none.2 hcode, hm, hexact, Option.none_or, Option.none_or]
      exact broadKind?_built.2 hheard
  · rw [Option.or_eq_some_iff, Option.or_eq_some_iff, Option.or_eq_none_iff,
      bind_exactKind?_built, bind_exactKind?_built, bind_exactKind?_built_eq_none,
      bind_exactKind?_built_eq_none, Option.bind_eq_some_iff]
    rintro ((⟨c, hc, hgiven⟩ | ⟨hcode, m, hm, hgiven⟩) | ⟨⟨hcode, hmessage⟩, m, hm, hheard⟩)
    · exact .code hc hgiven
    · exact .message hcode hm hgiven
    · exact .keyword hcode hm (fun other => hmessage m other hm) (broadKind?_built.1 hheard)

end

/-- One of some phrases occurs in a text, whatever the case of its letters. -/
def Mentions (text : String) (phrases : List String) : Prop :=
  ∃ p ∈ phrases, p.toList <:+: (Text.lower text).toList

/-- Phrases of a shield against attacks. -/
def shieldPhrases : List String := ["cloudflare", "incapsula", "ddos"]

/-- Phrases of a venue that is down. -/
def downPhrases : List String := ["temporarily unavailable", "service unavailable"]

/-- The kind that a body which is no JSON points to. -/
inductive Banner (text : String) : ErrorKind → Prop
  | shield : Mentions text shieldPhrases → Banner text .ddosProtection
  | maintenance : ¬ Mentions text shieldPhrases → Mentions text ["maintenance"] →
      Banner text .onMaintenance
  | down : ¬ Mentions text shieldPhrases → ¬ Mentions text ["maintenance"] →
      Mentions text downPhrases → Banner text .exchangeNotAvailable

theorem hasPhrase_lower_iff {text : String} {phrases : List String} :
    hasPhrase phrases (Text.lower text) = true ↔ Mentions text phrases := by
  simp only [hasPhrase, List.any_eq_true, Text.contains_iff, Mentions]

theorem banner_iff {text : String} {kind : ErrorKind} :
    Banner text kind ↔ phraseKind? text = some kind := by
  have hphrases : phraseKind? text =
      if hasPhrase shieldPhrases (Text.lower text) then some .ddosProtection
      else if hasPhrase ["maintenance"] (Text.lower text) then some .onMaintenance
      else if hasPhrase downPhrases (Text.lower text) then some .exchangeNotAvailable
      else none := rfl
  rw [hphrases]
  constructor
  · intro h
    cases h with
    | shield hshield => rw [if_pos (hasPhrase_lower_iff.2 hshield)]
    | maintenance hshield hpause =>
      rw [if_neg (mt hasPhrase_lower_iff.1 hshield), if_pos (hasPhrase_lower_iff.2 hpause)]
    | down hshield hpause hdown =>
      rw [if_neg (mt hasPhrase_lower_iff.1 hshield), if_neg (mt hasPhrase_lower_iff.1 hpause),
        if_pos (hasPhrase_lower_iff.2 hdown)]
  · by_cases hshield : Mentions text shieldPhrases
    · rw [if_pos (hasPhrase_lower_iff.2 hshield)]
      rintro ⟨⟩
      exact .shield hshield
    · rw [if_neg (mt hasPhrase_lower_iff.1 hshield)]
      by_cases hpause : Mentions text ["maintenance"]
      · rw [if_pos (hasPhrase_lower_iff.2 hpause)]
        rintro ⟨⟩
        exact .maintenance hshield hpause
      · rw [if_neg (mt hasPhrase_lower_iff.1 hpause)]
        by_cases hdown : Mentions text downPhrases
        · rw [if_pos (hasPhrase_lower_iff.2 hdown)]
          rintro ⟨⟩
          exact .down hshield hpause hdown
        · rw [if_neg (mt hasPhrase_lower_iff.1 hdown)]
          nofun

/-! ### What is reported -/

/-- What the classifier makes of a response: a failure with a kind and a code, or none. There is no
outcome if the response asks for too long a wait. -/
inductive Answers (t : Classifier) (response : Response) (decoded : Option Json) :
    Option (ErrorKind × Option String) → Prop
  | endless (found : Option (ErrorKind × Option String)) : response.AsksTooLong →
      t.classify response decoded = .error .aborted → Answers t response decoded found
  | failure {e : ClassifiedError} : ¬ response.AsksTooLong →
      t.classify response decoded = .error (.failed (.classified e)) →
      Answers t response decoded (some (e.kind, e.code))
  | pass : ¬ response.AsksTooLong → t.classify response decoded = .ok () →
      Answers t response decoded none

variable {t : Classifier} {response : Response} {decoded : Option Json}

theorem answers_kind? (t : Classifier) (response : Response) (decoded : Option Json) :
    t.Answers response decoded (t.kind? response decoded) := by
  rcases retryAfter_cases response with hwait | ⟨wait, hwait⟩
  · exact .endless _ (Response.retryAfter_eq_aborted_iff.1 hwait) (classify_of_aborted hwait)
  · have hfits : ¬ response.AsksTooLong := Response.exists_retryAfter_iff.1 ⟨wait, hwait⟩
    have hclassify : t.classify response decoded = _ := classify_of_ok hwait
    cases hkind : t.kind? response decoded with
    | none =>
      rw [hkind] at hclassify
      exact .pass hfits hclassify
    | some found =>
      rw [hkind] at hclassify
      exact .failure hfits hclassify

/-- **What a body says outranks the status.** If the tables know the code or the message of a
decoded body, every response with it is reported with the kind that they have and the code of the
body, and otherwise as its status is and without a code, whatever its text. Without a decoded body
phrases in the text come before the status, and the tables have no part in it. -/
theorem evidence_outranks_status (venue : String) (entries : List Entry) (statuses : StatusTable) :
    let t : Classifier := ⟨venue, built entries, statuses⟩
    (∀ body kind, Evidence entries (errorCode? body) (errorMessage? body) kind →
      ∀ response, t.Answers response (some body) (some (kind, errorCode? body))) ∧
    (∀ body, (∀ kind, ¬ Evidence entries (errorCode? body) (errorMessage? body) kind) →
      ∀ response, t.Answers response (some body)
        ((statuses.verdict response.status).map fun kind => (kind, none))) ∧
    (∀ response kind, Banner response.body kind → t.Answers response none (some (kind, none))) ∧
    (∀ response, (∀ kind, ¬ Banner response.body kind) →
      t.Answers response none ((statuses.verdict response.status).map fun kind => (kind, none))) ∧
    ∀ exceptions response, (⟨venue, exceptions, statuses⟩ : Classifier).classify response none =
      t.classify response none := by
  intro t
  refine ⟨?_, ?_, ?_, ?_, fun _ _ => rfl⟩
  · intro body kind hkind response
    have hfound : t.kind? response (some body) = some (kind, errorCode? body) := by
      show ((tableKind? (built entries) _ _).map _).or _ = _
      rw [evidence_iff.1 hkind]
      rfl
    exact hfound ▸ answers_kind? t response (some body)
  · intro body hnone response
    have hbody : t.bodyKind? response (some body) = none := by
      show (tableKind? (built entries) _ _).map _ = none
      rw [Option.map_eq_none_iff, Option.eq_none_iff_forall_ne_some]
      exact fun kind hkind => hnone kind (evidence_iff.2 hkind)
    exact kind?_of_bodyKind? hbody ▸ answers_kind? t response (some body)
  · intro response kind hkind
    have hfound : t.kind? response none = some (kind, none) := by
      show ((phraseKind? response.body).map _).or _ = _
      rw [banner_iff.1 hkind]
      rfl
    exact hfound ▸ answers_kind? t response none
  · intro response hnone
    have hbody : t.bodyKind? response none = none := by
      show (phraseKind? response.body).map _ = none
      rw [Option.map_eq_none_iff, Option.eq_none_iff_forall_ne_some]
      exact fun kind hkind => hnone kind (banner_iff.2 hkind)
    exact kind?_of_bodyKind? hbody ▸ answers_kind? t response none

/-- Entries of which the second takes the place of the first. -/
def secondThoughts : List Entry := [.exact "E1" .badRequest, .exact "E1" .insufficientFunds]

theorem given_secondThoughts : Given secondThoughts "E1" .insufficientFunds :=
  ⟨[.exact "E1" .badRequest], [], rfl, fun _ => List.not_mem_nil⟩

/-- A good response and one of a venue that is down, with one body. -/
theorem evidence_outranks_status_of_both :
    let t : Classifier := ⟨"demo", built secondThoughts, .standard⟩
    let body : Json := .obj [("code", .str "E1")]
    Evidence secondThoughts (errorCode? body) (errorMessage? body) .insufficientFunds ∧
      t.Answers { status := 200 } (some body) (some (.insufficientFunds, some "E1")) ∧
      t.Answers { status := 503 } (some body) (some (.insufficientFunds, some "E1")) := by
  intro t body
  have hkind : Evidence secondThoughts (errorCode? body) (errorMessage? body) .insufficientFunds :=
    .code rfl given_secondThoughts
  have hanswers :=
    (evidence_outranks_status "demo" secondThoughts .standard).1 body .insufficientFunds hkind
  exact ⟨hkind, hanswers { status := 200 }, hanswers { status := 503 }⟩

/-- **A long wait hides what the body says.** -/
theorem long_wait_hides_evidence :
    ¬ ∀ (venue : String) (entries : List Entry) (statuses : StatusTable) (response : Response)
      (body : Json) (kind : ErrorKind),
      Evidence entries (errorCode? body) (errorMessage? body) kind →
      ∃ e, (⟨venue, built entries, statuses⟩ : Classifier).classify response (some body) =
        .error (.failed e) ∧ e.kind = kind := by
  intro h
  let response : Response :=
    { status := 200, headers := .ofList [("retry-after", "1e30")] }
  have hwait : response.retryAfter = .error .aborted := by
    rfl
  obtain ⟨e, he, -⟩ := h "demo" secondThoughts .standard response (.obj [("code", .str "E1")])
    .insufficientFunds (.code rfl given_secondThoughts)
  rw [classify_of_aborted hwait] at he
  cases he

end Classifier

end Bourse
