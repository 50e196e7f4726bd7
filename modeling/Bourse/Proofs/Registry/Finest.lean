import Bourse.Proofs.Decimal.Value
import Bourse.Proofs.Registry.Agreement

/-! # The finest precision of a currency

A market has two sides, each with a code, the venue's id and a precision. Of all sides with one code
the derived currency takes the finest, and of equally fine ones the earliest: `Finest` says so of a
list of sides, and `get?_foldl_currency` shows it of the table by induction on the sides, one side
more at a time (`finest_concat`).

* `Survivors`: the markets that count, one for each id;
* `DerivesFinest`: what the currencies of a registry are, in terms of these markets and the given
  currencies; `currencies_are_finest` shows it of the registry of any list of markets, together
  with its independence of the order of the markets. -/

namespace Bourse

namespace Registry

variable {mode : PrecisionMode}

/-! ### How fine a precision is -/

/-- The larger the finer: the precision itself if it counts digits, and for ticks its negation. -/
def fineness (mode : PrecisionMode) (p : Decimal) : ℚ :=
  match mode with
  | .tickSize => -p.toRat
  | _ => p.toRat

theorem isFiner_iff {new old : Decimal} :
    isFiner mode new old = true ↔ fineness mode old < fineness mode new := by
  cases mode with
  | tickSize =>
    rw [isFiner, decide_eq_true_eq, Decimal.lt_iff_toRat_lt]
    exact neg_lt_neg_iff.symm
  | decimalPlaces => exact decide_eq_true_iff.trans Decimal.lt_iff_toRat_lt
  | significantDigits => exact decide_eq_true_iff.trans Decimal.lt_iff_toRat_lt

/-- Precisions that are equally fine are one number. -/
theorem toRat_eq_of_fineness_eq {p q : Decimal} (h : fineness mode p = fineness mode q) :
    p.toRat = q.toRat := by
  cases mode with
  | tickSize => exact neg_injective h
  | decimalPlaces => exact h
  | significantDigits => exact h

/-! ### Sides -/

/-- A side of a market. -/
structure Side where
  code : String
  id : String
  precision : Decimal

/-- The currency that a side stands for. -/
def Side.currency (s : Side) : Currency :=
  { id := s.id, code := s.code, precision := some s.precision }

/-- The sides of a market that have a code, the base first. A side has a precision of its own, or
that of the amounts or the prices of the market, or the default. -/
def sides (mode : PrecisionMode) (m : Market) : List Side :=
  [⟨m.base, m.baseId, (m.precision.base.or m.precision.amount).getD (defaultPrecision mode)⟩,
    ⟨m.quote, m.quoteId, (m.precision.quote.or m.precision.price).getD (defaultPrecision mode)⟩]
    |>.filter fun s => s.code != ""

theorem map_currency_sides (m : Market) : (sides mode m).map Side.currency = candidates mode m := by
  have hfilter : ∀ l : List Side, (l.filter fun s => s.code != "").map Side.currency
      = (l.map Side.currency).filter fun c => c.code != "" := fun l =>
    (List.filter_map (f := Side.currency) (p := fun c => c.code != "")).symm
  exact hfilter _

theorem exists_mem_sides {m : Market} {code : String} :
    (∃ s ∈ sides mode m, s.code = code) ↔ code ≠ "" ∧ (m.base = code ∨ m.quote = code) := by
  simp only [sides, List.mem_filter, List.mem_cons, List.not_mem_nil, or_false, bne_iff_ne]
  constructor
  · rintro ⟨s, ⟨rfl | rfl, hne⟩, rfl⟩
    · exact ⟨hne, .inl rfl⟩
    · exact ⟨hne, .inr rfl⟩
  · rintro ⟨hne, rfl | rfl⟩
    · exact ⟨_, ⟨.inl rfl, hne⟩, rfl⟩
    · exact ⟨_, ⟨.inr rfl, hne⟩, rfl⟩

/-- The earliest of the finest sides with a code. -/
def Finest (mode : PrecisionMode) (code : String) (ss : List Side) (s : Side) : Prop :=
  ∃ before after, ss = before ++ s :: after ∧ s.code = code ∧
    (∀ t ∈ before, t.code = code → fineness mode t.precision < fineness mode s.precision) ∧
    ∀ t ∈ after, t.code = code → fineness mode t.precision ≤ fineness mode s.precision

section
variable {code : String} {ss : List Side} {s t : Side}

theorem Finest.mem (h : Finest mode code ss s) : s ∈ ss ∧ s.code = code := by
  obtain ⟨before, after, rfl, hcode, -⟩ := h
  exact ⟨by simp, hcode⟩

/-- **No side with the code is finer.** -/
theorem Finest.le (h : Finest mode code ss s) (ht : t ∈ ss) (hcode : t.code = code) :
    fineness mode t.precision ≤ fineness mode s.precision := by
  obtain ⟨before, after, rfl, -, hbefore, hafter⟩ := h
  rcases List.mem_append.1 ht with ht | ht
  · exact (hbefore t ht hcode).le
  · rcases List.mem_cons.1 ht with rfl | ht
    · exact le_rfl
    · exact hafter t ht hcode

/-- **One side more** is the finest if it is finer than all before it, and else changes nothing. -/
theorem finest_concat {u : Side} :
    Finest mode code (ss ++ [u]) s ↔
      (s = u ∧ u.code = code ∧
        ∀ t ∈ ss, t.code = code → fineness mode t.precision < fineness mode u.precision) ∨
      Finest mode code ss s ∧
        (u.code = code → fineness mode u.precision ≤ fineness mode s.precision) := by
  constructor
  · rintro ⟨before, after, heq, hs, hbefore, hafter⟩
    rcases List.eq_nil_or_concat' after with rfl | ⟨init, d, rfl⟩
    · obtain ⟨rfl, hsu⟩ := List.append_inj' heq rfl
      rw [List.cons.injEq] at hsu
      obtain ⟨rfl, -⟩ := hsu
      exact .inl ⟨rfl, hs, hbefore⟩
    · rw [← List.cons_append, ← List.append_assoc] at heq
      obtain ⟨rfl, hud⟩ := List.append_inj' heq rfl
      rw [List.cons.injEq] at hud
      obtain ⟨rfl, -⟩ := hud
      exact .inr ⟨⟨before, init, rfl, hs, hbefore, fun t ht => hafter t (by simp [ht])⟩,
        hafter u (by simp)⟩
  · rintro (⟨rfl, hs, hbefore⟩ | ⟨⟨before, after, rfl, hs, hbefore, hafter⟩, hu⟩)
    · exact ⟨ss, [], rfl, hs, hbefore, by simp⟩
    · refine ⟨before, after ++ [u], by simp, hs, hbefore, fun t ht => ?_⟩
      rcases List.mem_append.1 ht with ht | ht
      · exact hafter t ht
      · exact List.mem_singleton.1 ht ▸ hu

/-- Where there is a side with a code, there is a finest one. -/
theorem exists_finest (mode : PrecisionMode) (ht : t ∈ ss) (hcode : t.code = code) :
    ∃ s, Finest mode code ss s := by
  induction ss using List.reverseRecOn generalizing t with
  | nil => cases ht
  | append_singleton ss u ih =>
    by_cases hall : u.code = code ∧
        ∀ t ∈ ss, t.code = code → fineness mode t.precision < fineness mode u.precision
    · exact ⟨u, finest_concat.2 (.inl ⟨rfl, hall⟩)⟩
    · -- an earlier side has the code, and the finest of these stays ahead
      obtain ⟨r, hr, hrcode, hru⟩ : ∃ r ∈ ss, r.code = code ∧
          (u.code = code → fineness mode u.precision ≤ fineness mode r.precision) := by
        by_cases hu : u.code = code
        · simp only [hu, true_and, not_forall, not_lt] at hall
          obtain ⟨r, hr, hrcode, hle⟩ := hall
          exact ⟨r, hr, hrcode, fun _ => hle⟩
        · rcases List.mem_append.1 ht with ht | ht
          · exact ⟨t, ht, hcode, fun h => absurd h hu⟩
          · exact absurd (List.mem_singleton.1 ht ▸ hcode) hu
      obtain ⟨s, hs⟩ := ih hr hrcode
      exact ⟨s, finest_concat.2 (.inr ⟨hs, fun hu => (hru hu).trans (hs.le hr hrcode)⟩)⟩

/-- Of lists with the same sides the finest ones have one precision. -/
theorem Finest.toRat_eq {ss' : List Side} {s' : Side} (h : Finest mode code ss s)
    (h' : Finest mode code ss' s') (hmem : ∀ t, t ∈ ss ↔ t ∈ ss') :
    s.precision.toRat = s'.precision.toRat :=
  toRat_eq_of_fineness_eq (le_antisymm (h'.le ((hmem s).1 h.mem.1) h.mem.2)
    (h.le ((hmem s').2 h'.mem.1) h'.mem.2))

end

/-! ### Going through the sides -/

/-- **The table of derived currencies** has under a code the finest side with it. -/
theorem get?_foldl_currency (ss : List Side) {code : String} {c : Currency} :
    ((ss.map Side.currency).foldl (addCandidate mode) .empty).get? code = some c ↔
      ∃ s, Finest mode code ss s ∧ c = s.currency := by
  induction ss using List.reverseRecOn generalizing c with
  | nil =>
    simp [Finest, Table.get?, Table.empty]
  | append_singleton ss u ih =>
    rw [List.map_append, List.foldl_append]
    generalize (ss.map Side.currency).foldl (addCandidate mode) .empty = table at ih
    show (addCandidate mode table u.currency).get? code = some c ↔ _
    rw [get?_addCandidate]
    -- the new side replaces what is there if it is finer than all sides so far
    have hreplaces : (∀ old, table.get? code = some old →
        replaces mode u.currency old = true) ↔
        ∀ t ∈ ss, t.code = code → fineness mode t.precision < fineness mode u.precision := by
      constructor
      · intro h t ht hcode
        obtain ⟨s, hs⟩ := exists_finest mode ht hcode
        have hfiner := isFiner_iff.1 (h s.currency (ih.2 ⟨s, hs, rfl⟩))
        exact (hs.le ht hcode).trans_lt hfiner
      · intro h old hold
        obtain ⟨s, hs, rfl⟩ := ih.1 hold
        exact isFiner_iff.2 (h s hs.mem.1 hs.mem.2)
    have hcode : code = u.currency.code ↔ u.code = code := eq_comm
    simp only [hcode, hreplaces, finest_concat]
    split_ifs with hnew
    · rw [Option.some.injEq, eq_comm]
      constructor
      · rintro rfl
        exact ⟨u, .inl ⟨rfl, hnew⟩, rfl⟩
      · rintro ⟨s, ⟨rfl, -⟩ | ⟨hs, hle⟩, rfl⟩
        · rfl
        · exact absurd (hnew.2 s hs.mem.1 hs.mem.2) (not_lt.2 (hle hnew.1))
    · rw [ih]
      constructor
      · rintro ⟨s, hs, rfl⟩
        refine ⟨s, .inr ⟨hs, fun hu => ?_⟩, rfl⟩
        by_contra hlt
        exact hnew ⟨hu, fun t ht htcode => (hs.le ht htcode).trans_lt (not_le.1 hlt)⟩
      · rintro ⟨s, ⟨-, hall⟩ | ⟨hs, -⟩, rfl⟩
        · exact absurd hall hnew
        · exact ⟨s, hs, rfl⟩

theorem get?_derive (markets : List Market) {code : String} {c : Currency} :
    (derive mode markets).get? code = some c ↔
      ∃ s, Finest mode code (markets.flatMap (sides mode)) s ∧ c = s.currency := by
  rw [← get?_foldl_currency, List.map_flatMap]
  simp only [map_currency_sides]
  rfl

/-! ### The registry of a list of markets -/

/-- The markets that count: for each id the last one, in the order in which the ids appear. -/
structure Survivors (markets survivors : List Market) : Prop where
  ids : survivors.map Market.id = (markets.map Market.id).eraseDups
  last : ∀ m ∈ survivors, Table.LastWith Market.id m.id markets m

/-- The currencies of a registry are the given ones and, under all other codes, the finest sides of
the markets that count. -/
structure DerivesFinest (mode : PrecisionMode) (markets : List Market) (given : List Currency)
    (r : Registry) : Prop where
  survivors : Survivors markets r.marketsById.values
  /-- The last of the given currencies with a code stands under it whole; else it is the currency
  of the finest side. -/
  currency : ∀ code c, r.currencies.get? code = some c ↔
    Table.LastWith Currency.code code given c ∨ (∀ d ∈ given, d.code ≠ code) ∧
      ∃ s, Finest mode code (r.marketsById.values.flatMap (sides mode)) s ∧ c = s.currency
  /-- There are no other codes than those of given currencies and of sides. -/
  codes : ∀ code, code ∈ r.currencies.keys ↔ (∃ d ∈ given, d.code = code) ∨
    code ≠ "" ∧ ∃ m ∈ r.marketsById.values, m.base = code ∨ m.quote = code

/-- The precision of the currency with a code, as a number. -/
def precisionOf (r : Registry) (code : String) : Option (Option ℚ) :=
  (r.currencies.get? code).map fun c => c.precision.map Decimal.toRat

section
variable (markets : List Market) (currencies : Option (List Currency))

theorem survivors_ofMarkets :
    Survivors markets (ofMarkets markets currencies mode).marketsById.values where
  ids := Table.map_values_ofList_map Market.id markets
  last m hm := by
    obtain ⟨id, hid⟩ := (Table.mem_values _).1 hm
    have hlast := (get?_marketsById markets currencies mode).1 hid
    rwa [hlast.mem.2]

theorem derivesFinest_ofMarkets :
    DerivesFinest mode markets (currencies.getD []) (ofMarkets markets currencies mode) := by
  have hcurrency : ∀ code c,
      (ofMarkets markets currencies mode).currencies.get? code = some c ↔ _ :=
    fun code c => get?_currencies markets currencies mode
  simp only [get?_derive] at hcurrency
  refine ⟨survivors_ofMarkets markets currencies, hcurrency, fun code => ?_⟩
  rw [Table.mem_keys]
  constructor
  · rintro ⟨c, hc⟩
    rcases (hcurrency code c).1 hc with hgiven | ⟨-, s, hs, -⟩
    · exact .inl ⟨c, hgiven.mem⟩
    · obtain ⟨m, hm, hside⟩ := List.mem_flatMap.1 hs.mem.1
      obtain ⟨hne, hcode⟩ := exists_mem_sides.1 ⟨s, hside, hs.mem.2⟩
      exact .inr ⟨hne, m, hm, hcode⟩
  · intro h
    by_cases hgiven : ∃ d ∈ currencies.getD [], d.code = code
    · obtain ⟨d, hd, hcode⟩ := hgiven
      obtain ⟨c, hc⟩ := Table.exists_lastWith hd hcode
      exact ⟨c, (hcurrency code c).2 (.inl hc)⟩
    · obtain ⟨hne, m, hm, hcode⟩ := h.resolve_left hgiven
      obtain ⟨t, ht, htcode⟩ : ∃ t ∈ sides mode m, t.code = code := exists_mem_sides.2 ⟨hne, hcode⟩
      obtain ⟨s, hs⟩ := exists_finest mode (List.mem_flatMap.2 ⟨m, hm, ht⟩) htcode
      push Not at hgiven
      exact ⟨s.currency, (hcurrency code s.currency).2 (.inr ⟨hgiven, s, hs, rfl⟩)⟩

/-- Markets that do not share an id all count. -/
theorem mem_values_of_nodup (h : (markets.map Market.id).Nodup) (m : Market) :
    m ∈ (ofMarkets markets currencies mode).marketsById.values ↔ m ∈ markets := by
  rw [Table.mem_values]
  simp only [get?_marketsById, Table.lastWith_iff_of_nodup h]
  exact ⟨fun ⟨_, hm, _⟩ => hm, fun hm => ⟨m.id, hm, rfl⟩⟩

end

section
variable {markets others : List Market} {given : List Currency} {r r' : Registry}

/-- What stands under a code in one registry stands there with the same precision in another one
with the same sides. -/
theorem DerivesFinest.exists_currency (h : DerivesFinest mode markets given r)
    (h' : DerivesFinest mode others given r')
    (hsame : ∀ m, m ∈ r.marketsById.values ↔ m ∈ r'.marketsById.values) {code : String}
    {c : Currency} (hc : r.currencies.get? code = some c) :
    ∃ c', r'.currencies.get? code = some c' ∧
      c'.precision.map Decimal.toRat = c.precision.map Decimal.toRat := by
  have hsides : ∀ t, t ∈ r.marketsById.values.flatMap (sides mode) ↔
      t ∈ r'.marketsById.values.flatMap (sides mode) := fun t => by
    simp only [List.mem_flatMap, hsame]
  rcases (h.currency code c).1 hc with hgiven | ⟨hnone, s, hs, rfl⟩
  · exact ⟨c, (h'.currency code c).2 (.inl hgiven), rfl⟩
  · obtain ⟨s', hs'⟩ := exists_finest mode ((hsides s).1 hs.mem.1) hs.mem.2
    refine ⟨s'.currency, (h'.currency code _).2 (.inr ⟨hnone, s', hs', rfl⟩), ?_⟩
    exact congrArg some (hs.toRat_eq hs' hsides).symm

theorem DerivesFinest.precisionOf_eq (h : DerivesFinest mode markets given r)
    (h' : DerivesFinest mode others given r')
    (hsame : ∀ m, m ∈ r.marketsById.values ↔ m ∈ r'.marketsById.values) (code : String) :
    r'.precisionOf code = r.precisionOf code := by
  unfold precisionOf
  cases hc : r.currencies.get? code with
  | some c =>
    obtain ⟨c', hc', heq⟩ := h.exists_currency h' hsame hc
    rw [hc']
    exact congrArg some heq
  | none =>
    cases hc' : r'.currencies.get? code with
    | none => rfl
    | some c' =>
      obtain ⟨c, hsome, -⟩ := h'.exists_currency h (fun m => (hsame m).symm) hc'
      rw [hc] at hsome
      cases hsome

end

/-- **Derived currencies carry the finest precision**: in the registry of any list of markets every
currency is given or the earliest of the finest sides of the markets that count, and the order of
markets that do not share an id changes no precision. -/
theorem currencies_are_finest (mode : PrecisionMode) (markets : List Market)
    (currencies : Option (List Currency)) :
    DerivesFinest mode markets (currencies.getD []) (ofMarkets markets currencies mode) ∧
      ∀ others : List Market, (markets.map Market.id).Nodup → others.Perm markets → ∀ code,
        (ofMarkets others currencies mode).precisionOf code
          = (ofMarkets markets currencies mode).precisionOf code := by
  refine ⟨derivesFinest_ofMarkets markets currencies, fun others hdistinct hperm code => ?_⟩
  have hdistinct' : (others.map Market.id).Nodup := (hperm.map Market.id).nodup_iff.2 hdistinct
  refine (derivesFinest_ofMarkets markets currencies).precisionOf_eq
    (derivesFinest_ofMarkets others currencies) (fun m => ?_) code
  rw [mem_values_of_nodup _ _ hdistinct, mem_values_of_nodup _ _ hdistinct', hperm.mem_iff]

/-- Two equally fine ticks for one code: the order decides which id the currency has, but not its
precision. -/
theorem currencies_are_finest_of_tie :
    let priced : Market := { Market.ofPair "ETHXBT" "ETH" "BTC" with
      quoteId := "XBT", precision := { amount := some (.tick 3), price := some (.tick 2) } }
    let held : Market := { Market.ofPair "BTCEUR" "BTC" "EUR" with
      precision := { amount := some (.tick 1), base := some (.tick 2) } }
    let r := ofMarkets [priced, held] none .tickSize
    let r' := ofMarkets [held, priced] none .tickSize
    ([priced, held].map Market.id).Nodup ∧ [held, priced].Perm [priced, held] ∧
      (r.currencies.get? "BTC").map Currency.id = some "XBT" ∧
      (r'.currencies.get? "BTC").map Currency.id = some "BTC" ∧
      r'.precisionOf "BTC" = r.precisionOf "BTC" := by
  intro priced held r r'
  have hdistinct : ([priced, held].map Market.id).Nodup := by decide
  have hperm : [held, priced].Perm [priced, held] := .swap _ _ _
  exact ⟨hdistinct, hperm, by decide +kernel, by decide +kernel,
    (currencies_are_finest .tickSize [priced, held] none).2 [held, priced] hdistinct hperm "BTC"⟩

end Registry

end Bourse
