import Bourse.Classify.Tables
import Bourse.Proofs.Text.Replace

/-! # What a table says

`Assigns` is the kind that a table has for a code that comes with a message: there is one and only
one (`assigns_iff`). `Misses` says that the table knows neither of them, and then it is the general
kind (`Misses.kind_eq`). -/

namespace Bourse

theorem Text.contains_iff {s part : String} : contains s part = true ↔ part.toList <:+: s.toList :=
  occursIn_iff_isInfix

namespace ExceptionTable

variable {t : ExceptionTable} {code message : String} {kind : ErrorKind}

/-- No keyword of these occurs in the message. -/
def NoneOccurs (keywords : List (String × ErrorKind)) (message : String) : Prop :=
  ∀ e ∈ keywords, ¬ e.1.toList <:+: message.toList

/-- The kind of a code with a message: its own one, else that of the first keyword in the message,
else the general one. -/
inductive Assigns (t : ExceptionTable) (code message : String) : ErrorKind → Prop
  | code {kind : ErrorKind} : t.exactKind? code = some kind → t.Assigns code message kind
  | keyword {before after : List (String × ErrorKind)} {word : String} {kind : ErrorKind} :
      t.exactKind? code = none → t.broad = before ++ (word, kind) :: after →
      NoneOccurs before message → word.toList <:+: message.toList → t.Assigns code message kind
  | otherwise : t.exactKind? code = none → NoneOccurs t.broad message →
      t.Assigns code message .exchangeError

/-- A code and a message, where there are any, that the table knows nothing about. -/
structure Misses (t : ExceptionTable) (code message : Option String) : Prop where
  code : ∀ c, code = some c → t.exactKind? c = none
  message : ∀ m, message = some m → t.exactKind? m = none ∧ NoneOccurs t.broad m

/-! ### Keywords -/

theorem broadKind?_eq_none_iff : t.broadKind? message = none ↔ NoneOccurs t.broad message := by
  simp only [broadKind?, Option.map_eq_none_iff, List.find?_eq_none, Text.contains_iff, NoneOccurs]

/-- **The first keyword** in the message decides. -/
theorem broadKind?_eq_some_iff :
    t.broadKind? message = some kind ↔ ∃ before word after,
      t.broad = before ++ (word, kind) :: after ∧ NoneOccurs before message ∧
        word.toList <:+: message.toList := by
  simp only [broadKind?, Option.map_eq_some_iff, List.find?_eq_some_iff_append, Text.contains_iff,
    Bool.not_eq_true', ← Bool.not_eq_true, NoneOccurs]
  constructor
  · rintro ⟨⟨word, _⟩, ⟨hword, before, after, heq, hbefore⟩, rfl⟩
    exact ⟨before, word, after, heq, hbefore, hword⟩
  · rintro ⟨before, word, after, heq, hbefore, hword⟩
    exact ⟨(word, kind), ⟨hword, before, after, heq, hbefore⟩, rfl⟩

/-! ### Kinds -/

/-- **A table has one kind** for a code with a message. -/
theorem assigns_iff :
    t.Assigns code message kind ↔
      ((t.exactKind? code).or (t.broadKind? message)).getD .exchangeError = kind := by
  constructor
  · intro h
    cases h with
    | code hcode => rw [hcode, Option.some_or, Option.getD_some]
    | keyword hcode heq hbefore hword =>
      have hbroad := broadKind?_eq_some_iff.2 ⟨_, _, _, heq, hbefore, hword⟩
      rw [hcode, hbroad, Option.none_or, Option.getD_some]
    | otherwise hcode hnone =>
      rw [hcode, broadKind?_eq_none_iff.2 hnone, Option.none_or, Option.getD_none]
  · rintro rfl
    cases hcode : t.exactKind? code with
    | some kind => exact .code hcode
    | none =>
      cases hbroad : t.broadKind? message with
      | some kind =>
        obtain ⟨before, word, after, heq, hbefore, hword⟩ := broadKind?_eq_some_iff.1 hbroad
        exact .keyword hcode heq hbefore hword
      | none => exact .otherwise hcode (broadKind?_eq_none_iff.1 hbroad)

/-- A code and a message that the table misses have the general kind, and so has a code without a
message if no keyword is empty. -/
theorem Misses.kind_eq {text : Option String} (h : t.Misses (some code) text)
    (hempty : NoneOccurs t.broad "") :
    ((t.exactKind? code).or (t.broadKind? (text.getD ""))).getD .exchangeError =
      .exchangeError := by
  refine assigns_iff.1 (.otherwise (h.code code rfl) ?_)
  cases text with
  | none => exact hempty
  | some message => exact (h.message message rfl).2

end ExceptionTable

end Bourse
