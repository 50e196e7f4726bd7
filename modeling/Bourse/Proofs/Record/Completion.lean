import Bourse.Proofs.Decimal.Checked
import Bourse.Record.Order

/-! # Completing orders

An order may know some of its amounts and prices, and completing it derives others from them, each
from one exact number: a difference, a quotient or a product (`Difference`, `Quotient`, `Product`).

* `Completes`: what completing may do to an order, field by field; `completes_complete` shows it of
  every order;
* `complete_complete`: a second completion changes the average at most, since it takes the cost for
  known that the first one derived. `Estimates` says when it does, and a third completion never
  changes anything. -/

namespace Bourse.Order

open Decimal

variable {o : Order} {whole part cost price filled : Option Decimal}

/-! ### The numbers behind the fields -/

/-- What is left of a whole without a part. -/
def Difference (whole part : Option Decimal) (x : ℚ) : Prop :=
  ∃ w p, whole = some w ∧ part = some p ∧ x = w.toRat - p.toRat

/-- The cost of each unit of a filled amount that is not zero. -/
def Quotient (cost filled : Option Decimal) (x : ℚ) : Prop :=
  ∃ c f, cost = some c ∧ filled = some f ∧ f.toRat ≠ 0 ∧ x = c.toRat / f.toRat

/-- What a filled amount costs at a price. -/
def Product (price filled : Option Decimal) (x : ℚ) : Prop :=
  ∃ p f, price = some p ∧ filled = some f ∧ x = p.toRat * f.toRat

@[simp] theorem rest?_none (whole : Option Decimal) : rest? whole none = none := by
  cases whole <;> rfl

@[simp] theorem mean?_none (filled : Option Decimal) : mean? none filled = none := by
  cases filled <;> simp [mean?]

theorem exists_rest? (whole part : Option Decimal) : ∃ difference,
    Derived (Difference whole part) difference ∧
      rest? whole part = difference.map fun d => d.max .zero := by
  refine ⟨_, derived_of_both answers_sub? whole part, ?_⟩
  cases whole with
  | none => rfl
  | some w =>
    cases part with
    | none => rfl
    | some p => cases hdifference : w.sub? p <;> simp [rest?, hdifference]

theorem derived_mean? (cost filled : Option Decimal) :
    Derived (Quotient cost filled) (mean? cost filled) := by
  cases filled with
  | none => exact ⟨nofun, fun _ => rfl⟩
  | some f =>
    by_cases hzero : f.isZero = true
    · have hnone : mean? cost (some f) = none := by simp [mean?, hzero]
      refine ⟨?_, fun _ => hnone⟩
      rintro _ ⟨_, _, -, ⟨⟩, hne, -⟩
      exact absurd (toRat_eq_zero_iff.2 hzero) hne
    · cases cost with
      | none => exact ⟨nofun, fun _ => mean?_none _⟩
      | some c =>
        have hne : f.toRat ≠ 0 := mt toRat_eq_zero_iff.1 hzero
        refine ⟨?_, fun h => absurd ⟨c, f, rfl, rfl, hne, rfl⟩ (h _)⟩
        rintro _ ⟨_, _, ⟨⟩, ⟨⟩, -, rfl⟩
        simpa [mean?, hzero] using answers_div? (a := c) hne

theorem derived_total? (price filled : Option Decimal) :
    Derived (Product price filled) (total? price filled) :=
  derived_of_both answers_mul? price filled

/-- **A rest is not negative.** -/
theorem rest?_nonneg {r : Decimal} (h : rest? whole part = some r) : 0 ≤ r.toRat := by
  obtain ⟨difference, -, heq⟩ := exists_rest? whole part
  rw [heq] at h
  obtain ⟨d, -, rfl⟩ := Option.map_eq_some_iff.1 h
  rw [toRat_max]
  exact le_max_of_le_right (toRat_eq_zero_iff.2 rfl).ge

/-- **A rest and its part are the whole** if the rest is a decimal. -/
theorem exists_rest?_of_toRat_eq {w p d : Decimal} (hle : p.toRat ≤ w.toRat)
    (hd : d.toRat = w.toRat - p.toRat) :
    ∃ r, rest? (some w) (some p) = some r ∧ p.toRat + r.toRat = w.toRat := by
  obtain ⟨difference, hderived, heq⟩ := exists_rest? (some w) (some p)
  obtain ⟨r, hr, hvalue⟩ := (hderived.answers _ ⟨w, p, rfl, rfl, rfl⟩).exact d hd
  refine ⟨r.max .zero, by rw [heq, hr]; rfl, ?_⟩
  have hzero : Decimal.zero.toRat = 0 := toRat_eq_zero_iff.2 rfl
  rw [toRat_max, hzero, hvalue, max_eq_left (sub_nonneg.2 hle), add_sub_cancel]

/-! ### One completion -/

/-- A field that was known is the same as before. -/
def Keeps (before after : Option Decimal) : Prop := ∀ d, before = some d → after = some d

/-- What completing an order does to it. -/
structure Completes (o o' : Order) : Prop where
  /-- Only four fields change ... -/
  frame : o' = { o with
    remaining := o'.remaining, filled := o'.filled, average := o'.average, cost := o'.cost }
  /-- ... and of these only what was unknown. -/
  keeps_remaining : Keeps o.remaining o'.remaining
  keeps_filled : Keeps o.filled o'.filled
  keeps_average : Keeps o.average o'.average
  keeps_cost : Keeps o.cost o'.cost
  /-- What remains is what is not filled, or zero ... -/
  remaining : o.remaining = none → ∃ difference,
    Derived (Difference o.amount o.filled) difference ∧
      o'.remaining = difference.map fun d => d.max .zero
  /-- ... and what is filled is what does not remain, or zero. -/
  filled : o.filled = none → ∃ difference,
    Derived (Difference o.amount o.remaining) difference ∧
      o'.filled = difference.map fun d => d.max .zero
  average : o.average = none → Derived (Quotient o.cost o'.filled) o'.average
  /-- The cost is that of the known average, and else of the limit price. -/
  cost : o.cost = none → Derived (Product (o.average.or o.price) o'.filled) o'.cost
  remaining_nonneg : o.remaining = none → ∀ r, o'.remaining = some r → 0 ≤ r.toRat
  filled_nonneg : o.filled = none → ∀ f, o'.filled = some f → 0 ≤ f.toRat
  /-- The two parts of an amount add up to it. -/
  sum : ∀ amount known : Decimal, o.amount = some amount →
    (o.filled = some known ∧ o.remaining = none ∨ o.filled = none ∧ o.remaining = some known) →
    known.toRat ≤ amount.toRat → (∃ d : Decimal, d.toRat = amount.toRat - known.toRat) →
    ∃ f r, o'.filled = some f ∧ o'.remaining = some r ∧ f.toRat + r.toRat = amount.toRat

theorem keeps_or (before other : Option Decimal) : Keeps before (before.or other) := by
  rintro d rfl
  rfl

theorem remaining_complete (o : Order) :
    o.complete.remaining = o.remaining.or (rest? o.amount o.filled) := rfl

theorem filled_complete (o : Order) :
    o.complete.filled = o.filled.or (rest? o.amount o.complete.remaining) := rfl

theorem average_complete (o : Order) :
    o.complete.average = o.average.or (mean? o.cost o.complete.filled) := rfl

theorem cost_complete (o : Order) :
    o.complete.cost = o.cost.or (total? (o.complete.average.or o.price) o.complete.filled) := rfl

/-- An amount that was not filled is derived from what was known to remain. -/
theorem filled_complete_of_none (h : o.filled = none) :
    o.complete.filled = rest? o.amount o.remaining := by
  rw [filled_complete, remaining_complete, h, rest?_none, Option.or_none, Option.none_or]

/-- A cost is derived from an average only if that was known. -/
theorem cost_complete_of_none (h : o.cost = none) :
    o.complete.cost = total? (o.average.or o.price) o.complete.filled := by
  rw [cost_complete, average_complete, h, mean?_none, Option.or_none, Option.none_or]

theorem sum_complete {amount known d : Decimal} (hamount : o.amount = some amount)
    (hknown : o.filled = some known ∧ o.remaining = none ∨
      o.filled = none ∧ o.remaining = some known)
    (hle : known.toRat ≤ amount.toRat) (hd : d.toRat = amount.toRat - known.toRat) :
    ∃ f r, o.complete.filled = some f ∧ o.complete.remaining = some r ∧
      f.toRat + r.toRat = amount.toRat := by
  obtain ⟨rest, hrest, hsum⟩ := exists_rest?_of_toRat_eq hle hd
  rcases hknown with ⟨hfilled, hremaining⟩ | ⟨hfilled, hremaining⟩
  · have hr : o.complete.remaining = some rest := by
      rw [remaining_complete, hremaining, hamount, hfilled, hrest, Option.none_or]
    exact ⟨known, rest, keeps_or _ _ known hfilled, hr, hsum⟩
  · have hf : o.complete.filled = some rest := by
      rw [filled_complete_of_none hfilled, hamount, hremaining, hrest]
    exact ⟨rest, known, hf, keeps_or _ _ known hremaining, by rw [add_comm, hsum]⟩

/-- **Completing adds facts that follow, and nothing else.** Every order is completed, whatever is
known of it, and where a result is out of range its field stays unknown. -/
theorem completes_complete (o : Order) : Completes o o.complete where
  frame := rfl
  keeps_remaining := keeps_or _ _
  keeps_filled := keeps_or _ _
  keeps_average := keeps_or _ _
  keeps_cost := keeps_or _ _
  remaining h := by
    rw [remaining_complete, h, Option.none_or]
    exact exists_rest? _ _
  filled h := by
    rw [filled_complete_of_none h]
    exact exists_rest? _ _
  average h := by
    rw [average_complete, h, Option.none_or]
    exact derived_mean? _ _
  cost h := by
    rw [cost_complete_of_none h]
    exact derived_total? _ _
  remaining_nonneg h r hr := by
    rw [remaining_complete, h, Option.none_or] at hr
    exact rest?_nonneg hr
  filled_nonneg h f hf := by
    rw [filled_complete_of_none h] at hf
    exact rest?_nonneg hf
  sum amount known hamount hknown hle := by
    rintro ⟨d, hd⟩
    exact sum_complete hamount hknown hle hd

/-! ### A second completion -/

theorem remaining_complete_complete (o : Order) :
    o.complete.complete.remaining = o.complete.remaining := by
  rw [remaining_complete o.complete]
  cases hremaining : o.complete.remaining with
  | some r => rfl
  | none =>
    -- the filled amount is as known or unknown as before
    have hrest := (Option.or_eq_none_iff.1 hremaining).2
    have hfilled : o.complete.filled = o.filled := by
      rw [filled_complete, hremaining, rest?_none, Option.or_none]
    rw [hfilled, Option.none_or]
    exact hrest

theorem filled_complete_complete (o : Order) :
    o.complete.complete.filled = o.complete.filled := by
  rw [filled_complete o.complete, remaining_complete_complete]
  show o.complete.filled.or (rest? o.amount o.complete.remaining) = _
  rw [filled_complete, Option.or_assoc, Option.or_self]

theorem average_complete_complete (o : Order) : o.complete.complete.average =
    o.complete.average.or (mean? o.complete.cost o.complete.filled) := by
  rw [average_complete o.complete, filled_complete_complete]

theorem cost_complete_complete (o : Order) : o.complete.complete.cost = o.complete.cost := by
  rw [cost_complete o.complete, average_complete_complete, filled_complete_complete]
  cases hcost : o.complete.cost with
  | some c => rfl
  | none =>
    -- without a cost there is no new average either
    have htotal := (Option.or_eq_none_iff.1 hcost).2
    rw [mean?_none, Option.or_none, Option.none_or]
    exact htotal

theorem complete_complete_eq (o : Order) : o.complete.complete = { o.complete with
    average := o.complete.average.or (mean? o.complete.cost o.complete.filled) } := by
  rw [(completes_complete o.complete).frame, remaining_complete_complete,
    filled_complete_complete, average_complete_complete, cost_complete_complete]

/-- The order has no average but one that follows from a cost at the limit price. -/
structure Estimates (o : Order) (mean : Decimal) : Prop where
  average : o.average = none
  cost : o.cost = none
  derived : ∃ p f c, o.price = some p ∧ o.complete.filled = some f ∧ f.isZero = false ∧
    p.mul? f = some c ∧ c.div? f = some mean

theorem mean?_eq_some_iff {mean : Decimal} : mean? cost filled = some mean ↔
    ∃ c f, cost = some c ∧ filled = some f ∧ f.isZero = false ∧ c.div? f = some mean := by
  cases filled with
  | none => simp [mean?]
  | some f =>
    cases cost with
    | none => simp
    | some c => cases hzero : f.isZero <;> simp [mean?, hzero]

theorem total?_eq_some_iff {c : Decimal} : total? price filled = some c ↔
    ∃ p f, price = some p ∧ filled = some f ∧ p.mul? f = some c := by
  cases price with
  | none => simp [total?]
  | some p => cases filled <;> simp [total?]

/-- **A second completion finds an average** exactly if the cost was taken from the limit price. -/
theorem estimates_iff {mean : Decimal} : o.Estimates mean ↔
    o.complete.average = none ∧ mean? o.complete.cost o.complete.filled = some mean := by
  constructor
  · rintro ⟨haverage, hcost, p, f, c, hprice, hfilled, hzero, hmul, hdiv⟩
    have hc : o.complete.cost = some c := by
      rw [cost_complete_of_none hcost, haverage, Option.none_or]
      exact total?_eq_some_iff.2 ⟨p, f, hprice, hfilled, hmul⟩
    refine ⟨?_, mean?_eq_some_iff.2 ⟨c, f, hc, hfilled, hzero, hdiv⟩⟩
    rw [average_complete, haverage, hcost, mean?_none, Option.none_or]
  · rintro ⟨haverage, hmean⟩
    obtain ⟨hunknown, hnone⟩ := Option.or_eq_none_iff.1 haverage
    obtain ⟨c, f, hc, hfilled, hzero, hdiv⟩ := mean?_eq_some_iff.1 hmean
    have hcost : o.cost = none := by
      rw [Option.eq_none_iff_forall_ne_some]
      intro known hknown
      -- a known cost would have given the average at once
      have hsame : o.complete.cost = o.cost := by
        rw [hknown]
        exact keeps_or _ _ known hknown
      rw [← hsame] at hnone
      exact absurd (hnone.symm.trans hmean) nofun
    rw [cost_complete_of_none hcost, hunknown, Option.none_or] at hc
    obtain ⟨p, f', hprice, hfilled', hmul⟩ := total?_eq_some_iff.1 hc
    obtain rfl := Option.some.inj (hfilled.symm.trans hfilled')
    exact ⟨hunknown, hcost, p, f, c, hprice, hfilled, hzero, hmul, hdiv⟩

/-- **Completing again** changes nothing but an average that follows from the limit price, and
completing a third time changes nothing at all. -/
theorem complete_complete (o : Order) :
    (o.complete.complete = o.complete ↔ ¬ ∃ mean, o.Estimates mean) ∧
      (∀ mean, o.Estimates mean → o.complete.average = none ∧
        o.complete.complete = { o.complete with average := some mean }) ∧
      o.complete.complete.complete = o.complete.complete := by
  have hchanges : ∀ mean, o.Estimates mean → o.complete.average = none ∧
      o.complete.complete = { o.complete with average := some mean } := fun mean hmean => by
    obtain ⟨haverage, hderived⟩ := estimates_iff.1 hmean
    refine ⟨haverage, ?_⟩
    rw [complete_complete_eq, haverage, hderived, Option.none_or]
  refine ⟨⟨?_, fun hnot => ?_⟩, hchanges, ?_⟩
  · rintro hsame ⟨mean, hmean⟩
    obtain ⟨haverage, hchanged⟩ := hchanges mean hmean
    have hsome : o.complete.average = some mean := by rw [← hsame, hchanged]
    exact absurd (haverage.symm.trans hsome) nofun
  · rw [complete_complete_eq]
    cases haverage : o.complete.average with
    | some a => rw [Option.some_or, ← haverage]
    | none =>
      have hnone : mean? o.complete.cost o.complete.filled = none := by
        rw [Option.eq_none_iff_forall_ne_some]
        intro mean hmean
        exact hnot ⟨mean, estimates_iff.2 ⟨haverage, hmean⟩⟩
      rw [hnone, Option.none_or, ← haverage]
  · rw [complete_complete_eq o.complete, average_complete_complete, cost_complete_complete,
      filled_complete_complete, Option.or_assoc, Option.or_self, ← average_complete_complete]

/-- An order of two at a limit price of 100, of which a tenth of one is filled. -/
def partlyFilled : Order :=
  { amount := some (.ofWord 2), filled := some (.tick 1), price := some (.ofWord 100) }

/-- The limit price comes back as an average, by way of the cost of what is filled. -/
theorem complete_complete_of_partlyFilled : partlyFilled.Estimates (.ofWord 100) ∧
    partlyFilled.complete.complete =
      { partlyFilled.complete with average := some (.ofWord 100) } := by
  have hestimates : partlyFilled.Estimates (.ofWord 100) :=
    ⟨rfl, rfl, .ofWord 100, .tick 1, ⟨false, 100, 1, by decide, by decide⟩, rfl, rfl, rfl,
      by decide +kernel, by decide +kernel⟩
  exact ⟨hestimates, ((complete_complete partlyFilled).2.1 _ hestimates).2⟩

/-- **Completing is not idempotent.** -/
theorem second_completion_adds_average : ¬ ∀ o : Order, o.complete.complete = o.complete := by
  intro h
  have haverage := congrArg Order.average (h partlyFilled)
  exact absurd haverage (by decide +kernel)

end Bourse.Order
