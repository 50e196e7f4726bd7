import Bourse.Proofs.Record.Reading
import Bourse.Proofs.Registry.Agreement
import Bourse.Venue.Adapter

/-! # From the venue's ids of currencies back to their codes

Both venues name the sides of a market by ids of their own, and the reading gives each side the
common code of its id (`Named`). A registry keeps one id for each code, so an id may have lost
against another one with its code. Then one of the two is an alias, and the ids that aliases and
their codes are made of do not change in capitals (`upper_eq_of_commonCode_eq`): the code of a lost
id is found by its name alone. -/

namespace Bourse

/-! ### Aliases -/

namespace Currency

theorem upper_alias : ∀ e ∈ aliases, Text.upper e.1 = e.1 ∧ Text.upper e.2 = e.2 := by decide

theorem alias_ne_empty : ∀ e ∈ aliases, e.2 ≠ "" := by decide

/-- A name is an alias, or its own common code. -/
theorem commonCode_cases (name : String) :
    (name, commonCode name) ∈ aliases ∨ commonCode name = name := by
  unfold commonCode
  cases h : aliases.lookup name with
  | none => exact .inr rfl
  | some code => exact .inl ((Table.lookup_eq_some_iff_mem (by decide)).1 h)

theorem commonCode_eq_empty {name : String} (h : commonCode name = "") : name = "" := by
  rcases commonCode_cases name with halias | hself
  · exact absurd h (alias_ne_empty _ halias)
  · rw [← hself, h]

/-- **Two names of one code** are written in capitals. -/
theorem upper_eq_of_commonCode_eq {a b : String} (h : commonCode a = commonCode b) (hne : a ≠ b) :
    Text.upper a = a := by
  rcases commonCode_cases a with ha | ha
  · exact (upper_alias _ ha).1
  · rcases commonCode_cases b with hb | hb
    · rw [← h, ha] at hb
      exact (upper_alias _ hb).2
    · exact absurd (ha.symm.trans (h.trans hb)) hne

end Currency

/-! ### Markets that were read -/

namespace Market

/-- The sides of a market have the common codes of their ids. -/
structure Named (m : Market) : Prop where
  base : m.base = Currency.commonCode m.baseId
  quote : m.quote = Currency.commonCode m.quoteId

end Market

theorem Binance.named_of_readMarket {raw : Json} {m : Market}
    (h : Binance.readMarket raw = .ok (some m)) : m.Named := by
  obtain ⟨-, id, baseId, quoteId, -, -, -, rfl⟩ := Binance.readMarket_eq_some_iff.1 h
  exact ⟨rfl, rfl⟩

theorem Okx.named_of_readMarket {raw : Json} {m : Market}
    (h : Okx.readMarket raw = .ok (some m)) : m.Named := by
  obtain ⟨-, id, baseId, quoteId, -, -, -, rfl⟩ := Okx.readMarket_eq_some_iff.1 h
  exact ⟨rfl, rfl⟩

/-- A market that is read from a list of records is read from one of them. -/
theorem Adapter.exists_record_of_readMarkets {parse : Json → Result (Option Market)}
    {records : List Json} {markets : List Market} (h : readMarkets parse records = .ok markets) :
    ∀ m ∈ markets, ∃ raw ∈ records, parse raw = .ok (some m) := by
  obtain ⟨found, hfound, rfl⟩ := map_eq_ok_iff.1 h
  intro m hm
  obtain ⟨o, ho, hid⟩ := List.mem_filterMap.1 hm
  obtain rfl : o = some m := hid
  exact exists_of_mapM_ok hfound ho

namespace Registry

/-! ### Codes of ids -/

/-- The registry with its currencies put under their ids in another order. -/
def reindexed (r : Registry) (order : List Currency) : Registry :=
  { r with currenciesById := .ofList (order.map fun c => (c.id, c)) }

/-- **The code of an id** for which the currencies have its common code, if it has one that is not
empty. -/
theorem codeOf_eq_commonCode {r : Registry} {id : String}
    (hindex : IndexesIds r.currencies r.currenciesById)
    (hown : ∀ code c, r.currencies.get? code = some c → c.code = code)
    (hnamed : ∀ code c, r.currencies.get? code = some c → c.code = Currency.commonCode c.id)
    (hknown : Currency.commonCode id ≠ "" → Currency.commonCode id ∈ r.currencies.keys) :
    r.codeOf id = Currency.commonCode id := by
  unfold codeOf currencyById?
  cases hfound : r.currenciesById.get? id with
  | some c =>
    obtain ⟨hid, hcode⟩ := hindex.found id c hfound
    rw [← hid]
    exact hnamed _ c hcode
  | none =>
    show Currency.commonCode (Text.upper id) = _
    by_cases hempty : Currency.commonCode id = ""
    · rw [Currency.commonCode_eq_empty hempty]
      rfl
    · -- another id has the code
      obtain ⟨c, hc⟩ := (Table.mem_keys _).1 (hknown hempty)
      obtain ⟨d, hd⟩ := (Table.mem_keys _).1 (hindex.known _ c hc)
      have hne : id ≠ c.id := by
        rintro rfl
        rw [hfound] at hd
        cases hd
      have hcode : Currency.commonCode id = Currency.commonCode c.id := by
        rw [← hnamed _ c hc, hown _ c hc]
      rw [Currency.upper_eq_of_commonCode_eq hcode hne]

/-- The currencies that are derived from markets with common codes have the codes of their ids. -/
theorem code_of_derive {mode : PrecisionMode} {markets : List Market}
    (hnamed : ∀ m ∈ markets, m.Named) {code : String} {c : Currency}
    (h : (derive mode markets).get? code = some c) : c.code = Currency.commonCode c.id := by
  obtain ⟨-, hmem⟩ := (collects_derive mode markets).own_code code c h
  obtain ⟨m, hm, hc⟩ := List.mem_flatMap.1 hmem
  rcases side_of_mem_candidates hc with ⟨hid, hcode⟩ | ⟨hid, hcode⟩
  · rw [hid, hcode, (hnamed m hm).base]
  · rw [hid, hcode, (hnamed m hm).quote]

/-- Every side with a code has a currency. -/
theorem mem_keys_derive {mode : PrecisionMode} {markets : List Market} {m : Market}
    (hm : m ∈ markets) {code : String} (hside : m.base = code ∨ m.quote = code)
    (hcode : code ≠ "") :
    code ∈ (derive mode markets).keys := by
  obtain ⟨c, hc, rfl⟩ := exists_mem_candidates mode hside hcode
  refine (Table.mem_keys _).2 ((collects_derive mode markets).complete c ?_)
  exact List.mem_flatMap.2 ⟨m, hm, hc⟩

/-- **Ids lead back to codes** in the registry of markets that have the common codes of their ids,
in whichever order the currencies are put under their ids. -/
theorem codeOf_sides {markets : List Market} (mode : PrecisionMode)
    (hnamed : ∀ m ∈ markets, m.Named) {order : List Currency}
    (horder : order.Perm (ofMarkets markets none mode).currencies.values) {id : String} {m : Market}
    (hm : (ofMarkets markets none mode).marketsById.get? id = some m) :
    ((ofMarkets markets none mode).reindexed order).codeOf m.baseId = m.base ∧
      ((ofMarkets markets none mode).reindexed order).codeOf m.quoteId = m.quote := by
  have hagrees := agrees_ofMarkets markets none mode
  have hmarket : m.Named := hnamed m ((hagrees.by_id id m).1 hm).mem.1
  generalize hr : ofMarkets markets none mode = r at *
  have hderived : r.currencies = derive mode r.marketsById.values := by
    rw [← hr]
    rfl
  have hsurvivors : ∀ n ∈ r.marketsById.values, n.Named := by
    intro n hn
    obtain ⟨k, hk⟩ := (Table.mem_values _).1 hn
    exact hnamed n ((hagrees.by_id k n).1 hk).mem.1
  have hcodes : ∀ code c, r.currencies.get? code = some c → c.code = Currency.commonCode c.id := by
    intro code c hc
    rw [hderived] at hc
    exact code_of_derive hsurvivors hc
  have hknown : ∀ code, m.base = code ∨ m.quote = code → code ≠ "" → code ∈ r.currencies.keys := by
    intro code hside hcode
    rw [hderived]
    exact mem_keys_derive ((Table.mem_values _).2 ⟨id, hm⟩) hside hcode
  have hindex : IndexesIds (r.reindexed order).currencies (r.reindexed order).currenciesById :=
    hagrees.in_any_order order horder
  constructor
  · rw [hmarket.base]
    exact codeOf_eq_commonCode hindex hagrees.by_code hcodes (hknown _ (.inl hmarket.base))
  · rw [hmarket.quote]
    exact codeOf_eq_commonCode hindex hagrees.by_code hcodes (hknown _ (.inr hmarket.quote))

/-- **The venue's ids of currencies lead back to their codes**: for the records of either venue, of
which some may share a market id, and whichever id a currency has kept. -/
theorem codeOf_native_ids {read : Json → Result (Option Market)}
    (hread : read = Binance.readMarket ∨ read = Okx.readMarket) {records : List Json}
    {markets : List Market} (hmarkets : Adapter.readMarkets read records = .ok markets)
    (mode : PrecisionMode) {order : List Currency}
    (horder : order.Perm (ofMarkets markets none mode).currencies.values) (id : String) {m : Market}
    (hm : (ofMarkets markets none mode).marketsById.get? id = some m) :
    ((ofMarkets markets none mode).reindexed order).codeOf m.baseId = m.base ∧
      ((ofMarkets markets none mode).reindexed order).codeOf m.quoteId = m.quote := by
  refine codeOf_sides mode (fun n hn => ?_) horder hm
  obtain ⟨raw, -, hraw⟩ := Adapter.exists_record_of_readMarkets hmarkets n hn
  rcases hread with rfl | rfl
  · exact Binance.named_of_readMarket hraw
  · exact Okx.named_of_readMarket hraw

/-- Two names of one currency, of which the registry keeps the one that comes first: the other one
has an old name as its id and is found by that, on either venue. -/
theorem codeOf_native_ids_of_old_name :
    let symbol (id base quote : String) : Json :=
      .obj [("symbol", .str id), ("baseAsset", .str base), ("quoteAsset", .str quote)]
    let instrument (type id base quote : String) : Json :=
      .obj [("instType", .str type), ("instId", .str id), ("baseCcy", .str base),
        ("quoteCcy", .str quote)]
    let symbols := [symbol "BTCusdt" "BTC" "usdt", symbol "XBTEUR" "XBT" "EUR"]
    let instruments := [instrument "SPOT" "BCH-usdc" "BCH" "usdc",
      instrument "SWAP" "BCC-USD-SWAP" "" "", instrument "SPOT" "BCC-XBT" "BCC" "XBT"]
    (∃ markets, Adapter.readMarkets Binance.readMarket symbols = .ok markets ∧
      let r := ofMarkets markets none .tickSize
      r.currencyById? "XBT" = none ∧ ∃ m, r.marketsById.get? "XBTEUR" = some m ∧
        m.baseId = "XBT" ∧ m.base = "BTC" ∧
        (r.reindexed r.currencies.values).codeOf m.baseId = m.base ∧
        (r.reindexed r.currencies.values).codeOf m.quoteId = m.quote) ∧
    ∃ markets, Adapter.readMarkets Okx.readMarket instruments = .ok markets ∧
      let r := ofMarkets markets none .tickSize
      r.currencyById? "BCC" = none ∧ ∃ m, r.marketsById.get? "BCC-XBT" = some m ∧
        m.baseId = "BCC" ∧ m.base = "BCH" ∧ m.quote = "BTC" ∧
        (r.reindexed r.currencies.values).codeOf m.baseId = m.base ∧
        (r.reindexed r.currencies.values).codeOf m.quoteId = m.quote := by
  intro symbol instrument symbols instruments
  constructor
  · have hread : Adapter.readMarkets Binance.readMarket symbols = .ok _ := rfl
    refine ⟨_, hread, Option.isNone_iff_eq_none.1 (by decide +kernel), _, rfl, rfl, rfl, ?_⟩
    exact codeOf_native_ids (.inl rfl) hread .tickSize (.refl _) "XBTEUR" rfl
  · have hread : Adapter.readMarkets Okx.readMarket instruments = .ok _ := rfl
    refine ⟨_, hread, Option.isNone_iff_eq_none.1 (by decide +kernel), _, rfl, rfl, rfl, rfl, ?_⟩
    exact codeOf_native_ids (.inr rfl) hread .tickSize (.refl _) "BCC-XBT" rfl

end Registry

end Bourse
