import Bourse.Okx.Venue
import Bourse.Proofs.Client.Cache
import Bourse.Proofs.Decimal.Checked
import Bourse.Proofs.Precision.Readable
import Bourse.Proofs.Precision.Room
import Bourse.Proofs.Record.Steps
import Bourse.Proofs.Registry.NativeIds
import Bourse.Proofs.Registry.Owner

/-! # Writing numbers on the markets of a venue

A client that has learnt its markets from the venue knows none but those that the adapter has read
from a record, and it writes prices and amounts to the steps that the record tells. What comes of it
depends on the sign of the step (`Writes`): on a step above zero a number fails only by an overflow,
below zero no number is rounded at all, and a step that is told as zero makes every number fail.

* `Client.exists_learnt_of_market`: a market that is known belongs to the listing learnt last;
* `TellsSteps`: what has to be known about an adapter;
* `numbers_on_markets`: the property. -/

namespace Bourse

open Session

/-! ### What an inquiry comes to -/

/-- A result that an inquiry has under some answers. -/
inductive Inquiry.Yields {α : Type} : Inquiry α → α → Prop
  | done (a : α) : Yields (.done (.ok a)) a
  | ask {question : Question} {next : Result Json → Inquiry α} {a : α} (answer : Result Json) :
      Yields (next answer) a → Yields (.ask question next) a

namespace Inquiry

variable {α β : Type}

@[simp] theorem yields_done_iff {r : Result α} {a : α} : (done r).Yields a ↔ r = .ok a := by
  constructor
  · rintro ⟨⟩
    rfl
  · rintro rfl
    exact .done a

theorem yields_bind_iff {q : Inquiry α} {f : α → Inquiry β} {b : β} :
    (q >>= f).Yields b ↔ ∃ a, q.Yields a ∧ (f a).Yields b := by
  induction q with
  | done r =>
    cases r with
    | ok a =>
      show (f a).Yields b ↔ _
      simp
    | error e =>
      show (done (.error e)).Yields b ↔ _
      simp
  | ask question next ih =>
    constructor
    · rintro ⟨⟩
      rename_i answer h
      obtain ⟨a, ha, hb⟩ := (ih answer).1 h
      exact ⟨a, .ask answer ha, hb⟩
    · rintro ⟨a, ⟨⟩, hb⟩
      rename_i answer ha
      exact .ask answer ((ih answer).2 ⟨a, ha, hb⟩)

end Inquiry

/-- An adapter reads the market from some record. -/
def Adapter.Accepts (a : Adapter) (m : Market) : Prop := ∃ raw, a.parseMarket raw = .ok (some m)

namespace Client

variable {c : Client} {w : World}

/-- **A result of a run** is one that the inquiry has under some answers. -/
theorem yields_of_run {α : Type} {q : Inquiry α} {a : α} (h : (c.run q w).1 = .ok a) :
    q.Yields a := by
  induction q generalizing w with
  | done r =>
    obtain rfl := fst_ofResult_eq_ok_iff.1 h
    exact .done a
  | ask question next ih =>
    obtain ⟨answer, -, hnext⟩ := fst_bind_eq_ok_iff.1 h
    exact .ask answer (ih answer hnext)

theorem yields_of_listing {l : Listing} (h : (c.listing w).1 = .ok l) :
    c.adapter.markets.Yields l.1 := by
  obtain ⟨markets, hmarkets, hrest⟩ := fst_bind_eq_ok_iff.1 h
  obtain ⟨currencies, -, hpair⟩ := fst_bind_eq_ok_iff.1 hrest
  cases hpair
  exact yields_of_run hmarkets

/-! ### What is learnt -/

/-- The owner of the client sets no markets but those that the adapter reads. -/
def OnlyAccepted (a : Adapter) (turns : List Turn) : Prop :=
  ∀ t ∈ turns, ∀ markets currencies, t.call = .setMarkets markets currencies →
    ∀ m ∈ markets, a.Accepts m

/-- The markets of a listing that a call learns come from the venue or from the owner. -/
theorem learns_cases {call : Call} {l : Listing} (h : c.learns w call = some l) :
    c.adapter.markets.Yields l.1 ∨ call = .setMarkets l.1 l.2 := by
  have hlisting : ∀ {o : Attempt Listing}, o = (c.listing w).1 → o.toOption = some l →
      c.adapter.markets.Yields l.1 := by
    rintro (_ | l') ho hl
    · cases hl
    · cases hl
      exact yields_of_listing ho.symm
  unfold learns at h
  split at h
  · cases h
    exact .inr rfl
  · exact .inl (hlisting rfl h)
  · split at h
    · cases h
    · exact .inl (hlisting rfl h)
  · cases h

/-- **The listing learnt last** has no markets but those that the adapter reads. -/
theorem accepts_of_lastLearnt
    (hvenue : ∀ markets, c.adapter.markets.Yields markets → ∀ m ∈ markets, c.adapter.Accepts m)
    {turns : List Turn} (hturns : OnlyAccepted c.adapter turns) {l : Listing}
    (h : lastLearnt c w turns = some l) : ∀ m ∈ l.1, c.adapter.Accepts m := by
  induction turns generalizing w with
  | nil => cases h
  | cons t ts ih =>
    rw [lastLearnt, Option.or_eq_some_iff] at h
    rcases h with hlater | ⟨-, hfirst⟩
    · exact ih (fun t' ht' => hturns t' (List.mem_cons_of_mem _ ht')) hlater
    · rcases learns_cases hfirst with hyields | hset
      · exact hvenue _ hyields
      · exact hturns t List.mem_cons_self _ _ hset

/-! ### What is known -/

theorem market_eq_ok_iff {symbol : String} {m : Market} :
    (c.market symbol w).1 = .ok m ↔
      w.registry.loaded = true ∧ w.registry.market symbol = .ok m := by
  show ((if w.registry.loaded then (ofResult (w.registry.market symbol) : Session Market)
    else Session.fail _) w).1 = .ok m ↔ _
  split
  · rename_i hloaded
    rw [fst_ofResult_eq_ok_iff, and_iff_right hloaded]
  · rename_i hunknown
    rw [Session.fail, fst_ofResult_eq_ok_iff]
    exact iff_of_false nofun fun h => hunknown h.1

/-- **A market that is known** after a session belongs to the listing that was learnt last. -/
theorem exists_learnt_of_market {wire : Wire} {turns : List Turn} {x : Surroundings}
    {symbol : String} {m : Market}
    (h : (c.market symbol ((c.play (c.world wire) turns).within x)).1 = .ok m) :
    ∃ l, lastLearnt c (c.world wire) turns = some l ∧ m ∈ l.1 := by
  obtain ⟨hloaded, hm⟩ := market_eq_ok_iff.1 h
  have hregistry : ((c.play (c.world wire) turns).within x).registry =
      ((lastLearnt c (c.world wire) turns).map c.registryOf).getD {} :=
    registry_play _ turns
  rw [hregistry] at hloaded hm
  cases hlast : lastLearnt c (c.world wire) turns with
  | none =>
    rw [hlast] at hloaded
    cases hloaded
  | some l =>
    rw [hlast] at hm
    exact ⟨l, rfl, (Registry.market_eq_ok_iff.1 hm).shares.counts.mem.1⟩

/-- A number is written to the precision of the market that is known. -/
theorem fst_formatted {symbol : String} {m : Market} (hm : (c.market symbol w).1 = .ok m)
    (precision : Market → Option Decimal) (rounding : RoundingMode) (v : Decimal) :
    ((do c.formatted v rounding (precision (← c.market symbol)) : Session String) w).1 =
      Attempt.ofResult (v.toPrecision rounding (precision m) c.precisionMode .none) := by
  rw [bind_apply]
  generalize c.market symbol w = result at hm
  rcases result with ⟨_ | m', w'⟩ <;> cases hm
  rfl

end Client

/-! ### Writing -/

open Decimal in
/-- What comes of writing numbers where a step is told, by the sign of the step. -/
structure Writes (mode : RoundingMode) (told : Option Decimal) (write : Decimal → Attempt String) :
    Prop where
  /-- Without a step, or with one below zero, every number is written as it is. -/
  freely : (∀ d, told = some d → d.toRat < 0) → ∀ v, write v = .ok v.plain
  /-- On a step above zero every number has a text unless the arithmetic overflows. -/
  fits : ∀ d, told = some d → 0 < d.toRat → ∀ v, ¬ Overflows mode v d.normalize →
    ∃ text, write v = .ok text
  overflows : ∀ d, told = some d → 0 < d.toRat → ∀ v, Overflows mode v d.normalize →
    ∃ detail, write v = .error (.failed (.internal ("Overflow " ++ detail)))
  /-- A step of zero is accepted, and then no number can be written. -/
  never : ∀ d, told = some d → d.toRat = 0 → ∀ v,
    write v = .error (.failed (.internal "Tick size must be positive"))

theorem writes_toPrecision (mode : RoundingMode) (told : Option Decimal) (padding : Padding) :
    Writes mode told fun v =>
      Attempt.ofResult (v.toPrecision mode (told.map Decimal.normalize) .tickSize padding) where
  freely h v := by
    rw [Decimal.toPrecision_of_negative]
    · rfl
    · intro p hp
      obtain ⟨d, hd, rfl⟩ := Option.map_eq_some_iff.1 hp
      rw [Decimal.negative_normalize, decide_eq_true_iff]
      exact h d hd
  fits d hd hpos v hroom := by
    obtain ⟨text, htext⟩ := Decimal.exists_text_of_not_overflows
      ((Decimal.toRat_normalize d).symm ▸ hpos) hroom padding
    exact ⟨text, by rw [hd, Option.map_some, htext]; rfl⟩
  overflows d hd hpos v hover := by
    obtain ⟨detail, herror⟩ := Decimal.error_of_overflows
      ((Decimal.toRat_normalize d).symm ▸ hpos) hover padding
    exact ⟨detail, by rw [hd, Option.map_some, herror]; rfl⟩
  never d hd hzero v := by
    have hcoeff : d.normalize.isZero = true := by
      rw [← Decimal.toRat_eq_zero_iff, Decimal.toRat_normalize, hzero]
    have hsign : d.normalize.negative = false := by
      rw [Decimal.negative_normalize, hzero]
      rfl
    rw [hd, Option.map_some, Decimal.toPrecision_of_zero hcoeff hsign]
    rfl

/-! ### Adapters -/

/-- An adapter reads its markets from records, keeping the steps that these tell. -/
structure TellsSteps (a : Adapter) (told : Json → Steps) : Prop where
  kept : ∀ {raw m}, a.parseMarket raw = .ok (some m) → (told raw).Kept m.precision
  read : ∀ {markets}, a.markets.Yields markets →
    ∃ records, Adapter.readMarkets a.parseMarket records = .ok markets
  mode : a.description.precisionMode = .tickSize

theorem Binance.tellsSteps : TellsSteps Binance.adapter Binance.told where
  kept := Binance.kept_of_readMarket
  read h := by
    obtain ⟨answer, -, h⟩ := Inquiry.yields_bind_iff.1 h
    split at h
    · rename_i records _
      exact ⟨records, Inquiry.yields_done_iff.1 h⟩
    · cases h
  mode := rfl

theorem Okx.tellsSteps : TellsSteps Okx.adapter Okx.told where
  kept := Okx.kept_of_readMarket
  read h := by
    obtain ⟨answer, -, h⟩ := Inquiry.yields_bind_iff.1 h
    obtain ⟨records, -, h⟩ := Inquiry.yields_bind_iff.1 h
    exact ⟨records, Inquiry.yields_done_iff.1 h⟩
  mode := rfl

/-- The markets of the venue are accepted, whatever it answers. -/
theorem TellsSteps.accepts {a : Adapter} {told : Json → Steps} (h : TellsSteps a told)
    {markets : List Market} (hyields : a.markets.Yields markets) : ∀ m ∈ markets, a.Accepts m := by
  intro m hm
  obtain ⟨records, hread⟩ := h.read hyields
  obtain ⟨raw, -, hraw⟩ := Adapter.exists_record_of_readMarkets hread m hm
  exact ⟨raw, hraw⟩

/-- **Numbers on the markets of a venue.** A step of a market is usable exactly if the one that its
record tells is. In a session, whatever the venue answers, every market that is known was read from
a record, and prices and amounts on it are written to the steps of that record: on a step above zero
they fail only by an overflow, and on a step of zero always. -/
theorem numbers_on_markets {a : Adapter} {told : Json → Steps}
    (h : a = Binance.adapter ∧ told = Binance.told ∨ a = Okx.adapter ∧ told = Okx.told)
    (config : ClientConfig) :
    (∀ raw m, a.parseMarket raw = .ok (some m) →
      (Usable m.precision.price ↔ Usable (told raw).price) ∧
      (Usable m.precision.amount ↔ Usable (told raw).amount)) ∧
    ∀ (wire : Wire) (turns : List Turn), Client.OnlyAccepted a turns →
      ∀ (x : Surroundings) (symbol : String) (m : Market),
        let c : Client := ⟨a, config⟩
        let w := (c.play (c.world wire) turns).within x
        (c.market symbol w).1 = .ok m → ∃ raw, a.parseMarket raw = .ok (some m) ∧
          Writes .round (told raw).price (fun price => (c.priceText symbol price w).1) ∧
          Writes .truncate (told raw).amount (fun amount => (c.amountText symbol amount w).1) := by
  have htells : TellsSteps a told := by
    rcases h with ⟨rfl, rfl⟩ | ⟨rfl, rfl⟩
    · exact Binance.tellsSteps
    · exact Okx.tellsSteps
  refine ⟨fun raw m hraw => ⟨(htells.kept hraw).usable_price, (htells.kept hraw).usable_amount⟩, ?_⟩
  intro wire turns hturns x symbol m c w hm
  obtain ⟨l, hlast, hmem⟩ := Client.exists_learnt_of_market hm
  obtain ⟨raw, hraw⟩ := Client.accepts_of_lastLearnt (c := c) (fun markets => htells.accepts)
    hturns hlast m hmem
  have hmode : c.precisionMode = .tickSize := htells.mode
  have hkept := htells.kept hraw
  have hprice : (fun price => (c.priceText symbol price w).1) = fun price =>
      Attempt.ofResult (price.toPrecision .round ((told raw).price.map Decimal.normalize) .tickSize
        .none) := by
    funext price
    rw [← hkept.price, ← hmode]
    exact Client.fst_formatted hm (·.precision.price) .round price
  have hamount : (fun amount => (c.amountText symbol amount w).1) = fun amount =>
      Attempt.ofResult (amount.toPrecision .truncate ((told raw).amount.map Decimal.normalize)
        .tickSize .none) := by
    funext amount
    rw [← hkept.amount, ← hmode]
    exact Client.fst_formatted hm (·.precision.amount) .truncate amount
  refine ⟨raw, hraw, ?_, ?_⟩
  · rw [hprice]
    exact writes_toPrecision _ _ _
  · rw [hamount]
    exact writes_toPrecision _ _ _

/-- A record with these steps. -/
def etherRecord (tickSize stepSize : String) : Json :=
  .obj [("symbol", .str "ETHBTC"), ("baseAsset", .str "ETH"), ("quoteAsset", .str "BTC"),
    ("filters", .arr [
      .obj [("filterType", .str "PRICE_FILTER"), ("tickSize", .str tickSize)],
      .obj [("filterType", .str "LOT_SIZE"), ("stepSize", .str stepSize)]])]

/-- A market with usable steps is set, and known from then on. -/
theorem numbers_on_markets_ether : ∃ m,
    Binance.adapter.parseMarket (etherRecord "0.010" "0.1") = .ok (some m) ∧
      Usable m.precision.price ∧ Usable m.precision.amount ∧
      let c : Client := ⟨Binance.adapter, {}⟩
      let turns : List Turn := [⟨{}, .setMarkets [m] none⟩]
      let w := (c.play (c.world {}) turns).within {}
      (c.market "ETH/BTC" w).1 = .ok m ∧ ∃ raw, Binance.adapter.parseMarket raw = .ok (some m) ∧
        Writes .round (Binance.told raw).price (fun price => (c.priceText "ETH/BTC" price w).1) ∧
        Writes .truncate (Binance.told raw).amount
          (fun amount => (c.amountText "ETH/BTC" amount w).1) := by
  obtain ⟨husable, hwrites⟩ := numbers_on_markets (.inl ⟨rfl, rfl⟩) {}
  have hread : Binance.adapter.parseMarket (etherRecord "0.010" "0.1") = .ok (some _) := rfl
  have hprice : Usable (Binance.told (etherRecord "0.010" "0.1")).price := by
    rintro d ⟨⟩
    exact (Decimal.toRat_pos_iff _).2 (by decide)
  have hamount : Usable (Binance.told (etherRecord "0.010" "0.1")).amount := by
    rintro d ⟨⟩
    exact (Decimal.toRat_pos_iff _).2 (by decide)
  refine ⟨_, hread, (husable _ _ hread).1.2 hprice, (husable _ _ hread).2.2 hamount, rfl, ?_⟩
  refine hwrites {} _ ?_ {} _ _ rfl
  rintro t ht markets currencies hset m hm
  obtain rfl := List.mem_singleton.1 ht
  cases hset
  obtain rfl := List.mem_singleton.1 hm
  exact ⟨_, hread⟩

/-- **A step of zero is accepted.** -/
theorem zero_step_is_accepted :
    ¬ ∀ raw m, Binance.readMarket raw = .ok (some m) →
      Usable m.precision.price ∧ Usable m.precision.amount := by
  intro h
  have hread : Binance.readMarket (etherRecord "0.00000000" "0.1") = .ok (some _) := rfl
  have hpos := (h _ _ hread).1 _ rfl
  exact absurd ((Decimal.toRat_pos_iff _).1 hpos).2 (by decide)

end Bourse
