import Bourse.Proofs.Decimal.Value
import Bourse.Proofs.Record.Reading

/-! # The steps that a record tells

The precision of a market of either venue comes from one text for prices and one for amounts.
OKX has them as fields of the record. On Binance they stand in the filters, where the latest filter
of a kind counts, also if it tells no step (`Binance.latest?`). Reading keeps the numbers, in their
normal form, and that of whatever sign they are (`Steps.Kept`). So a step of the market is usable
exactly if the one that the record tells is. -/

namespace Bourse

/-! ### Steps -/

/-- What a record tells of the steps of prices and amounts. -/
structure Steps where
  price : Option Decimal
  amount : Option Decimal

/-- A step is absent, or above zero. -/
def Usable (step : Option Decimal) : Prop := ∀ d, step = some d → 0 < d.toRat

theorem usable_map_normalize {step : Option Decimal} :
    Usable (step.map Decimal.normalize) ↔ Usable step := by
  cases step with
  | none => exact ⟨fun _ => nofun, fun _ => nofun⟩
  | some d => simp [Usable, Decimal.toRat_normalize]

namespace Steps

/-- A precision has the steps in normal form. -/
structure Kept (s : Steps) (p : MarketPrecision) : Prop where
  price : p.price = s.price.map Decimal.normalize
  amount : p.amount = s.amount.map Decimal.normalize

variable {s : Steps} {p : MarketPrecision}

theorem Kept.usable_price (h : s.Kept p) : Usable p.price ↔ Usable s.price := by
  rw [h.price, usable_map_normalize]

theorem Kept.usable_amount (h : s.Kept p) : Usable p.amount ↔ Usable s.amount := by
  rw [h.amount, usable_map_normalize]

end Steps

/-! ### The latest element that counts -/

/-- If some elements of a list set a part of the state and the others leave it alone, the part is
in the end what the last of them has set. -/
theorem part_foldl {σ α β : Type} {f : σ → α → σ} {p : σ → β} {sets : α → Bool} {value : α → β}
    (hset : ∀ s a, sets a = true → p (f s a) = value a)
    (hkeep : ∀ s a, sets a = false → p (f s a) = p s) (s : σ) (l : List α) :
    p (l.foldl f s) = ((l.reverse.find? sets).map value).getD (p s) := by
  induction l using List.reverseRecOn with
  | nil => rfl
  | append_singleton l a ih =>
    rw [List.foldl_append, List.reverse_append]
    show p (f (l.foldl f s) a) = (((a :: l.reverse).find? sets).map value).getD (p s)
    cases ha : sets a with
    | true => rw [hset _ _ ha, List.find?_cons_of_pos ha, Option.map_some, Option.getD_some]
    | false => rw [hkeep _ _ ha, ih, List.find?_cons_of_neg (by simp [ha])]

/-! ### Binance -/

namespace Binance

/-- The number under a key in the latest filter of a kind. -/
def latest? (raw : Json) (kind key : String) : Option Decimal :=
  ((raw.list "filters").reverse.find? (·.hasText "filterType" kind)).bind (·.getDecimal? key)

/-- The steps of a record: those of prices and of lots. -/
def told (raw : Json) : Steps :=
  ⟨latest? raw "PRICE_FILTER" "tickSize", latest? raw "LOT_SIZE" "stepSize"⟩

theorem price_add (f : Filters) (filter : Json) :
    (f.add filter).precision.price =
      if filter.hasText "filterType" "PRICE_FILTER" then filter.step? "tickSize"
      else f.precision.price := by
  unfold Filters.add Json.hasText
  split <;> simp_all

theorem amount_add (f : Filters) (filter : Json) :
    (f.add filter).precision.amount =
      if filter.hasText "filterType" "LOT_SIZE" then filter.step? "stepSize"
      else f.precision.amount := by
  unfold Filters.add Json.hasText
  split <;> simp_all

/-- A step that is read off the latest filter is the number there. -/
theorem latest_step (raw : Json) (kind key : String) :
    (((raw.list "filters").reverse.find? (·.hasText "filterType" kind)).map (·.step? key)).getD none
      = (latest? raw kind key).map Decimal.normalize := by
  unfold latest?
  cases (raw.list "filters").reverse.find? (·.hasText "filterType" kind) <;> rfl

/-- **The filters** leave the steps of the latest ones. -/
theorem kept_readFilters (raw : Json) : (told raw).Kept (readFilters raw).precision where
  price := by
    rw [readFilters, part_foldl (p := fun f : Filters => f.precision.price)
      (fun f filter h => by rw [price_add, if_pos h])
      (fun f filter h => by rw [price_add, h, if_neg Bool.false_ne_true])]
    exact latest_step raw _ _
  amount := by
    rw [readFilters, part_foldl (p := fun f : Filters => f.precision.amount)
      (fun f filter h => by rw [amount_add, if_pos h])
      (fun f filter h => by rw [amount_add, h, if_neg Bool.false_ne_true])]
    exact latest_step raw _ _

theorem kept_of_readMarket {raw : Json} {m : Market} (h : readMarket raw = .ok (some m)) :
    (told raw).Kept m.precision := by
  obtain ⟨-, id, baseId, quoteId, -, -, -, rfl⟩ := readMarket_eq_some_iff.1 h
  exact kept_readFilters raw

end Binance

/-! ### OKX -/

namespace Okx

/-- The steps of a record. -/
def told (raw : Json) : Steps := ⟨raw.getDecimal? "tickSz", raw.getDecimal? "lotSz"⟩

theorem kept_of_readMarket {raw : Json} {m : Market} (h : readMarket raw = .ok (some m)) :
    (told raw).Kept m.precision := by
  obtain ⟨-, id, baseId, quoteId, -, -, -, rfl⟩ := readMarket_eq_some_iff.1 h
  exact ⟨rfl, rfl⟩

end Okx

end Bourse
