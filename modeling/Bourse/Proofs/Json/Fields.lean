import Bourse.Proofs.Json.Integers

/-! # What a record says at a key

What stands at a key and what it says are described here by cases on the value, apart from the
readings that do the work: `At` finds the value, `WrittenAs` is the text of a scalar and `ReadsAs`
the decimal of a number or a text. The readings agree with them (`getText?_eq_some_iff`,
`getDecimal?_eq_some_iff`). Nothing is written for `null` and nothing can be read from it, so that a
key which holds it counts as missing. -/

namespace Bourse

/-- The text is the numeral of a decimal, plain or, if it is not that, with an exponent. -/
inductive Decimal.SpelledBy (s : String) (d : Decimal) : Prop
  | plain : ofPlain? s = some d → SpelledBy s d
  | scientific : ofPlain? s = none → ofScientific? s = some d → SpelledBy s d

theorem Decimal.ofText?_eq_some_iff {s : String} {d : Decimal} :
    ofText? s = some d ↔ SpelledBy s d := by
  unfold ofText?
  constructor
  · intro h
    cases hplain : ofPlain? s with
    | some e =>
      rw [hplain, Option.some_or] at h
      exact .plain (hplain.trans h)
    | none =>
      rw [hplain, Option.none_or] at h
      exact .scientific hplain h
  · rintro (hplain | ⟨hplain, hscientific⟩)
    · rw [hplain, Option.some_or]
    · rw [hplain, Option.none_or, hscientific]

namespace Json

variable {v x : Json} {key : Key}

/-! ### Places -/

/-- The value `x` stands at a key of `v`: under a name among the entries of an object, or at a place
of a list. -/
inductive At : (v : Json) → Key → (x : Json) → Prop
  | entry {entries : List (String × Json)} {name : String} {x : Json} :
      entries.lookup name = some x → At (.obj entries) (.name name) x
  | item {items : List Json} {i : ℕ} {x : Json} :
      items[i]? = some x → At (.arr items) (.index i) x

theorem at?_eq_some_iff : v.at? key = some x ↔ At v key x := by
  constructor
  · intro h
    cases v with
    | obj entries =>
      cases key with
      | name s => exact .entry h
      | index i => cases h
    | arr items =>
      cases key with
      | name s => cases h
      | index i => exact .item h
    | _ => cases h
  · rintro (h | h)
    · exact h
    · exact h

/-- What is read off the value at a key is read off what stands there, if `null` has no reading. -/
theorem get?_bind_eq_some_iff {α : Type} {read : Json → Option α} (hnull : read .null = none)
    {a : α} : (v.get? key).bind read = some a ↔ ∃ x, At v key x ∧ read x = some a := by
  unfold Json.get?
  simp only [Option.bind_eq_some_iff, Option.filter_eq_some_iff, at?_eq_some_iff]
  constructor
  · rintro ⟨x, ⟨hat, -⟩, hx⟩
    exact ⟨x, hat, hx⟩
  · rintro ⟨x, hat, hx⟩
    refine ⟨x, ⟨hat, ?_⟩, hx⟩
    cases x with
    | null =>
      rw [hnull] at hx
      cases hx
    | _ => rfl

/-! ### Texts -/

/-- The text that a scalar is written as: a text as it is, a number as its numeral and a flag as its
word. -/
inductive WrittenAs : Json → String → Prop
  | text (s : String) : WrittenAs (.str s) s
  | whole (i : WordInt) : WrittenAs (.num (.int i)) (String.ofList (Text.numeral i.val))
  | binary (x : Binary64) : WrittenAs (.num (.float x)) x.displayText
  | yes : WrittenAs (.bool true) "true"
  | no : WrittenAs (.bool false) "false"

theorem scalar?_eq_some_iff {text : String} : v.scalar? = some text ↔ WrittenAs v text := by
  constructor
  · intro h
    cases v with
    | bool b => cases b <;> cases h <;> constructor
    | num n => cases n <;> cases h <;> constructor
    | str s => cases h; constructor
    | _ => cases h
  · rintro ⟨⟩ <;> rfl

/-- The record has a text at a key, or a number or a flag that is written so. -/
def HasText (key : Key) (text : String) (v : Json) : Prop := ∃ x, At v key x ∧ WrittenAs x text

theorem getText?_eq_some_iff {text : String} : v.getText? key = some text ↔ HasText key text v := by
  rw [getText?, get?_bind_eq_some_iff rfl]
  simp only [scalar?_eq_some_iff]
  rfl

theorem getText?_eq_none_iff : v.getText? key = none ↔ ∀ text, ¬ HasText key text v := by
  simp only [← getText?_eq_some_iff]
  exact Option.eq_none_iff_forall_ne_some

/-! ### Decimals -/

/-- The decimal that a number or a text is read as. -/
inductive ReadsAs : Json → Decimal → Prop
  /-- A whole number is itself, without fraction digits. -/
  | whole {i : WordInt} {d : Decimal} : d.negative = decide (i.val < 0) →
      d.coefficient = i.val.natAbs → d.scale = 0 → ReadsAs (.num (.int i)) d
  /-- A binary number is the decimal that its JSON text spells ... -/
  | binary {x : Binary64} {d : Decimal} :
      Decimal.SpelledBy (String.ofList x.jsonText) d → ReadsAs (.num (.float x)) d
  /-- ... or, where this has no room, the one that it is converted to. -/
  | converted {x : Binary64} {d : Decimal} :
      (∀ e, ¬ Decimal.SpelledBy (String.ofList x.jsonText) e) → Decimal.ofBinary? x = some d →
      ReadsAs (.num (.float x)) d
  /-- A text is the decimal that it spells, white space around it apart. -/
  | text {s : String} {d : Decimal} : Decimal.SpelledBy (Text.trim s) d → ReadsAs (.str s) d

theorem decimal?_float_eq_some_iff {x : Binary64} {d : Decimal} :
    (num (.float x)).decimal? = some d ↔ ReadsAs (num (.float x)) d := by
  have hread : (num (.float x)).decimal?
      = (Decimal.ofText? (String.ofList x.jsonText)).or (Decimal.ofBinary? x) := rfl
  rw [hread]
  constructor
  · intro h
    cases htext : Decimal.ofText? (String.ofList x.jsonText) with
    | some e =>
      rw [htext, Option.some_or] at h
      exact .binary (Decimal.ofText?_eq_some_iff.1 (htext.trans h))
    | none =>
      rw [htext, Option.none_or] at h
      refine .converted (fun e he => ?_) h
      rw [Decimal.ofText?_eq_some_iff.2 he] at htext
      cases htext
  · rintro (_ | hspelled | ⟨hnone, hbinary⟩)
    · rw [Decimal.ofText?_eq_some_iff.2 hspelled, Option.some_or]
    · have htext : Decimal.ofText? (String.ofList x.jsonText) = none :=
        Option.eq_none_iff_forall_ne_some.2 fun e he =>
          hnone e (Decimal.ofText?_eq_some_iff.1 he)
      rw [htext, Option.none_or, hbinary]

theorem decimal?_eq_some_iff {d : Decimal} : v.decimal? = some d ↔ ReadsAs v d := by
  cases v with
  | num n =>
    cases n with
    | int i =>
      rw [decimal?_num, Decimal.ofInt?_eq_some_iff]
      constructor
      · rintro ⟨hnegative, hcoefficient, hscale⟩
        exact .whole hnegative hcoefficient hscale
      · rintro ⟨hnegative, hcoefficient, hscale⟩
        exact ⟨hnegative, hcoefficient, hscale⟩
    | float x => exact decimal?_float_eq_some_iff
  | str s =>
    rw [decimal?, Decimal.ofText?_eq_some_iff]
    constructor
    · exact .text
    · rintro ⟨⟩
      assumption
  | _ =>
    constructor
    · intro h
      cases h
    · intro h
      cases h

/-- The record has at a key what reads as a decimal. -/
def HasDecimal (key : Key) (d : Decimal) (v : Json) : Prop := ∃ x, At v key x ∧ ReadsAs x d

theorem getDecimal?_eq_some_iff {d : Decimal} :
    v.getDecimal? key = some d ↔ HasDecimal key d v := by
  rw [getDecimal?, get?_bind_eq_some_iff rfl]
  simp only [decimal?_eq_some_iff]
  rfl

theorem getDecimal?_eq_none_iff : v.getDecimal? key = none ↔ ∀ d, ¬ HasDecimal key d v := by
  simp only [← getDecimal?_eq_some_iff]
  exact Option.eq_none_iff_forall_ne_some

end Json

end Bourse
