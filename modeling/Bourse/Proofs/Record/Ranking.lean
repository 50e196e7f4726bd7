import Bourse.Proofs.Decimal.Checked
import Bourse.Proofs.Json.Fields
import Bourse.Record.OrderBook

/-! # The levels of an order book

What can be read of a list of records arrives in the order of the list (`Arrives`, `Offered`), and a
side of a book is what arrived, from the best price to the worst, where equal prices stay in the
order of arrival (`Ranks`). Both sides are ranked in one way: `rank` is low for a good price, which
is the negated price for bids and the price itself for asks.

* `ranks_mergeSort`: a stable sort by rank ranks;
* `IsBest`, `KeepsFirst`: what the best level and a limit are, in terms of ranks;
* `parse_ranks_levels`: the book of any payload, with all its limits. -/

namespace Bourse.OrderBook

open Decimal

variable {priceKey amountKey : Json.Key} {rank : BookLevel → ℚ} {levels : List BookLevel}

/-- The rank of a bid: high prices come first. -/
def bidRank (l : BookLevel) : ℚ := -l.price.toRat

/-- The rank of an ask: low prices come first. -/
def askRank (l : BookLevel) : ℚ := l.price.toRat

/-! ### Arrival -/

/-- The levels that arrive in a list of records: one for each record whose price and amount are both
decimals, and none for any other. -/
inductive Arrives (priceKey amountKey : Json.Key) : List Json → List BookLevel → Prop
  | nil : Arrives priceKey amountKey [] []
  | level {item : Json} {items : List Json} {level : BookLevel} {levels : List BookLevel} :
      item.HasDecimal priceKey level.price → item.HasDecimal amountKey level.amount →
      Arrives priceKey amountKey items levels →
      Arrives priceKey amountKey (item :: items) (level :: levels)
  | unreadable {item : Json} {items : List Json} {levels : List BookLevel} :
      (∀ d, ¬ item.HasDecimal priceKey d) ∨ (∀ d, ¬ item.HasDecimal amountKey d) →
      Arrives priceKey amountKey items levels →
      Arrives priceKey amountKey (item :: items) levels

/-- The levels of one side of a payload. -/
inductive Offered (priceKey amountKey : Json.Key) (raw : Json) (sideKey : String) :
    List BookLevel → Prop
  | list {items : List Json} {levels : List BookLevel} :
      raw.At sideKey (.arr items) → Arrives priceKey amountKey items levels →
      Offered priceKey amountKey raw sideKey levels
  | missing : (∀ items, ¬ raw.At sideKey (.arr items)) → Offered priceKey amountKey raw sideKey []

theorem read?_eq_some_iff {item : Json} {level : BookLevel} :
    BookLevel.read? priceKey amountKey item = some level ↔
      item.HasDecimal priceKey level.price ∧ item.HasDecimal amountKey level.amount := by
  rw [← Json.getDecimal?_eq_some_iff, ← Json.getDecimal?_eq_some_iff]
  obtain ⟨price, amount⟩ := level
  cases hprice : item.getDecimal? priceKey <;> cases hamount : item.getDecimal? amountKey <;>
    simp [BookLevel.read?, hprice, hamount]

theorem read?_eq_none_iff {item : Json} :
    BookLevel.read? priceKey amountKey item = none ↔
      (∀ d, ¬ item.HasDecimal priceKey d) ∨ (∀ d, ¬ item.HasDecimal amountKey d) := by
  rw [← Json.getDecimal?_eq_none_iff, ← Json.getDecimal?_eq_none_iff]
  cases hprice : item.getDecimal? priceKey <;> cases hamount : item.getDecimal? amountKey <;>
    simp [BookLevel.read?, hprice, hamount]

/-- **None is lost, added or altered.** -/
theorem arrives_filterMap (items : List Json) :
    Arrives priceKey amountKey items
      (items.filterMap (BookLevel.read? priceKey amountKey)) := by
  induction items with
  | nil => exact .nil
  | cons item items ih =>
    cases hread : BookLevel.read? priceKey amountKey item with
    | none =>
      rw [List.filterMap_cons_none hread]
      exact .unreadable (read?_eq_none_iff.1 hread) ih
    | some level =>
      rw [List.filterMap_cons_some hread]
      obtain ⟨hprice, hamount⟩ := read?_eq_some_iff.1 hread
      exact .level hprice hamount ih

theorem get?_eq_arr_iff {raw : Json} {key : Json.Key} {items : List Json} :
    raw.get? key = some (.arr items) ↔ raw.At key (.arr items) := by
  rw [← Json.at?_eq_some_iff, Json.get?, Option.filter_eq_some_iff]
  exact and_iff_left rfl

theorem offered_side (raw : Json) (sideKey : String) :
    Offered priceKey amountKey raw sideKey (side priceKey amountKey (raw.get? sideKey)) := by
  unfold side
  split
  · rename_i items hitems
    exact .list (get?_eq_arr_iff.1 hitems) (arrives_filterMap items)
  · rename_i hnot
    exact .missing fun items hitems => hnot items (get?_eq_arr_iff.2 hitems)

/-! ### Ranking -/

/-- What arrived, from the best rank to the worst, and in the order of arrival within each rank. -/
structure Ranks (rank : BookLevel → ℚ) (arrived ranked : List BookLevel) : Prop where
  perm : ranked.Perm arrived
  ordered : ranked.Pairwise fun a b => rank a ≤ rank b
  stable : ∀ x, ranked.filter (fun l => rank l = x) = arrived.filter fun l => rank l = x

section
variable {le : BookLevel → BookLevel → Bool} (hle : ∀ a b, le a b = true ↔ rank a ≤ rank b)
include hle

theorem rank_trans (a b c : BookLevel) (hab : le a b = true) (hbc : le b c = true) :
    le a c = true := by
  rw [hle] at hab hbc ⊢
  exact hab.trans hbc

theorem rank_total (a b : BookLevel) : (le a b || le b a) = true := by
  rw [Bool.or_eq_true, hle, hle]
  exact le_total (rank a) (rank b)

/-- Levels of one rank are in order however they stand, so that a stable sort leaves them so. -/
theorem filter_mergeSort (levels : List BookLevel) (x : ℚ) :
    (levels.mergeSort le).filter (fun l => rank l = x) = levels.filter fun l => rank l = x := by
  have hperm : (levels.mergeSort le).Perm levels := List.mergeSort_perm levels le
  have hequal : (levels.filter fun l => rank l = x).Pairwise fun a b => le a b = true := by
    refine List.pairwise_of_forall_mem_list fun a ha b hb => ?_
    have ha' : rank a = x := by simpa using (List.mem_filter.1 ha).2
    have hb' : rank b = x := by simpa using (List.mem_filter.1 hb).2
    rw [hle, ha', hb']
  have hsub : (levels.filter fun l => rank l = x).Sublist
      ((levels.mergeSort le).filter fun l => rank l = x) := by
    have hsorted := List.sublist_mergeSort (rank_trans hle) (rank_total hle) hequal
      List.filter_sublist
    simpa using hsorted.filter fun l => rank l = x
  exact (hsub.eq_of_length (hperm.filter _).length_eq.symm).symm

/-- **A stable sort ranks.** -/
theorem ranks_mergeSort (levels : List BookLevel) : Ranks rank levels (levels.mergeSort le) where
  perm := List.mergeSort_perm levels le
  ordered := (List.pairwise_mergeSort (rank_trans hle) (rank_total hle) levels).imp
    fun {a b} h => (hle a b).1 h
  stable := filter_mergeSort hle levels

end

theorem ranks_sortBids (levels : List BookLevel) : Ranks bidRank levels (sortBids levels) := by
  refine ranks_mergeSort (fun a b => ?_) levels
  rw [decide_eq_true_iff, le_iff_toRat_le]
  exact neg_le_neg_iff.symm

theorem ranks_sortAsks (levels : List BookLevel) : Ranks askRank levels (sortAsks levels) := by
  refine ranks_mergeSort (fun a b => ?_) levels
  rw [decide_eq_true_iff, le_iff_toRat_le]
  exact Iff.rfl

/-! ### Limits and best levels -/

/-- The first `n` levels, no worse than any of the others. -/
structure KeepsFirst (rank : BookLevel → ℚ) (n : ℕ) (levels kept : List BookLevel) : Prop where
  length : kept.length = min n levels.length
  dropped : ∃ rest, levels = kept ++ rest ∧ ∀ l ∈ kept, ∀ d ∈ rest, rank l ≤ rank d

/-- The best of all levels, if any is shown. -/
structure IsBest (rank : BookLevel → ℚ) (all shown : List BookLevel) (best : Option BookLevel) :
    Prop where
  eq_none_iff : best = none ↔ shown = []
  le : ∀ b, best = some b → b ∈ shown ∧ ∀ l ∈ all, rank b ≤ rank l

theorem keepsFirst_take (h : levels.Pairwise fun a b => rank a ≤ rank b) (n : ℕ) :
    KeepsFirst rank n levels (levels.take n) := by
  have hsplit := (List.take_append_drop n levels).symm
  refine ⟨List.length_take, levels.drop n, hsplit, ?_⟩
  rw [hsplit, List.pairwise_append] at h
  exact h.2.2

/-- **The first of some first levels** is the best of all. -/
theorem isBest_head? (h : levels.Pairwise fun a b => rank a ≤ rank b) {kept : List BookLevel}
    (hkept : kept <+: levels) : IsBest rank levels kept kept.head? := by
  obtain ⟨rest, rfl⟩ := hkept
  refine ⟨List.head?_eq_none_iff, fun b hb => ?_⟩
  obtain ⟨tail, rfl⟩ := List.head?_eq_some_iff.1 hb
  rw [List.cons_append, List.pairwise_cons] at h
  refine ⟨List.mem_cons_self, fun l hl => ?_⟩
  rcases List.mem_cons.1 hl with rfl | hl
  · exact le_rfl
  · exact h.1 l hl

/-- What two best levels differ by in price. -/
def Gap (bid ask : Option BookLevel) (x : ℚ) : Prop :=
  ∃ b a, bid = some b ∧ ask = some a ∧ x = a.price.toRat - b.price.toRat

theorem derived_spread? (b : OrderBook) : Derived (Gap b.bestBid? b.bestAsk?) b.spread? :=
  derived_of_both (fun bid ask : BookLevel => answers_sub? ask.price bid.price)
    b.bestBid? b.bestAsk?

/-- What a book shows of all levels: the best of them, and how far these lie apart. -/
structure Quotes (all shown : OrderBook) : Prop where
  bid : IsBest bidRank all.bids shown.bids shown.bestBid?
  ask : IsBest askRank all.asks shown.asks shown.bestAsk?
  spread : Derived (Gap shown.bestBid? shown.bestAsk?) shown.spread?

theorem quotes_of_prefix {all shown : OrderBook}
    (hbids : all.bids.Pairwise fun a b => bidRank a ≤ bidRank b)
    (hasks : all.asks.Pairwise fun a b => askRank a ≤ askRank b)
    (hbid : shown.bids <+: all.bids) (hask : shown.asks <+: all.asks) : Quotes all shown :=
  ⟨isBest_head? hbids hbid, isBest_head? hasks hask, derived_spread? shown⟩

/-- **The book of a payload** ranks exactly the readable levels, each side its own, and a limit
keeps the first of them. -/
theorem parse_ranks_levels (raw : Json) (symbol : String) (timestamp : Option Int64)
    (bidsKey asksKey : String) (priceKey amountKey : Json.Key) :
    ∃ bids asks book, parse raw symbol timestamp bidsKey asksKey priceKey amountKey = book ∧
      Offered priceKey amountKey raw bidsKey bids ∧ Ranks bidRank bids book.bids ∧
      Offered priceKey amountKey raw asksKey asks ∧ Ranks askRank asks book.asks ∧
      Quotes book book ∧ ∀ n, KeepsFirst bidRank n book.bids (book.limit n).bids ∧
        KeepsFirst askRank n book.asks (book.limit n).asks ∧ Quotes book (book.limit n) := by
  have hbids := ranks_sortBids (side priceKey amountKey (raw.get? bidsKey))
  have hasks := ranks_sortAsks (side priceKey amountKey (raw.get? asksKey))
  refine ⟨_, _, _, rfl, offered_side _ _, hbids, offered_side _ _, hasks, ?_,
    fun n => ⟨?_, ?_, ?_⟩⟩
  · exact quotes_of_prefix hbids.ordered hasks.ordered (List.prefix_refl _) (List.prefix_refl _)
  · exact keepsFirst_take hbids.ordered n
  · exact keepsFirst_take hasks.ordered n
  · exact quotes_of_prefix hbids.ordered hasks.ordered (List.take_prefix n _) (List.take_prefix n _)

end Bourse.OrderBook
