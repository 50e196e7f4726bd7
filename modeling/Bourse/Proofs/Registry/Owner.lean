import Bourse.Proofs.Registry.Finest

/-! # The owner of a symbol

Several of the markets that count may share a symbol, which then leads to one of them. The markets
that count stand in the order in which their ids first appear in the list, although each is the last
with its id, and the last of them that has the symbol owns it (`market_eq_ok_iff`). So the owner is
the market whose id is the newest (`NewestOwner`), and not the one that comes last in the list
(`LatestOwner`); both are the same where ids do not repeat (`newestOwner_iff_latestOwner`). -/

namespace Bourse

/-! ### Places in a list -/

/-- Without repetitions the elements of a list stand in the order of their first places. -/
theorem pairwise_idxOf_eraseDups (l : List String) :
    l.eraseDups.Pairwise fun a b => l.idxOf a < l.idxOf b := by
  induction l using List.reverseRecOn with
  | nil => exact .nil
  | append_singleton l c ih =>
    have hold : l.eraseDups.Pairwise fun a b => (l ++ [c]).idxOf a < (l ++ [c]).idxOf b := by
      refine ih.imp_of_mem fun {a b} ha hb hab => ?_
      rwa [List.idxOf_append_of_mem (List.mem_eraseDups.1 ha),
        List.idxOf_append_of_mem (List.mem_eraseDups.1 hb)]
    rw [List.eraseDups_append]
    by_cases hc : c ∈ l
    · simpa [List.removeAll, hc] using hold
    · have hnew : ([c].removeAll l).eraseDups = [c] := by
        simp [List.removeAll, hc, List.eraseDups_cons]
      rw [hnew, List.pairwise_append]
      refine ⟨hold, List.pairwise_singleton _ _, fun a ha b hb => ?_⟩
      -- the new element comes behind all others
      have ha' := List.mem_eraseDups.1 ha
      have hlt := List.idxOf_lt_length_iff.2 ha'
      rw [List.mem_singleton.1 hb, List.idxOf_append_of_mem ha', List.idxOf_append_of_notMem hc]
      omega

/-- In a list without repetitions the places from both ends belong together. -/
theorem idxOf_add_idxOf_reverse {l : List String} (h : l.Nodup) {a : String} (ha : a ∈ l) :
    l.idxOf a + l.reverse.idxOf a + 1 = l.length := by
  obtain ⟨before, after, rfl⟩ := List.append_of_mem ha
  rw [List.nodup_append, List.nodup_cons] at h
  have hbefore : a ∉ before := fun hmem => h.2.2 a hmem a List.mem_cons_self rfl
  have hafter : a ∉ after.reverse := fun hmem => h.2.1.1 (List.mem_reverse.1 hmem)
  have hfirst : (before ++ a :: after).idxOf a = before.length := by
    rw [List.idxOf_append_of_notMem hbefore, List.idxOf_cons_self, Nat.add_zero]
  have hlast : (before ++ a :: after).reverse.idxOf a = after.length := by
    rw [List.reverse_append, List.reverse_cons, List.append_assoc,
      List.idxOf_append_of_notMem hafter, List.length_reverse]
    simp
  rw [hfirst, hlast, List.length_append, List.length_cons]
  omega

namespace Table

/-- Where places ascend, the last element with a key is the one with the last place. -/
theorem lastWith_iff_of_pairwise {β : Type} {f : β → String} {key : String} {l : List β} {b : β}
    {place : β → ℕ} (h : l.Pairwise fun a b => place a < place b) :
    LastWith f key l b ↔ b ∈ l ∧ f b = key ∧ ∀ c ∈ l, f c = key → place c ≤ place b := by
  constructor
  · intro hlast
    obtain ⟨hmem, hkey⟩ := hlast.mem
    obtain ⟨before, after, rfl, -, hafter⟩ := hlast
    rw [List.pairwise_append] at h
    refine ⟨hmem, hkey, fun c hc hckey => ?_⟩
    rcases List.mem_append.1 hc with hc | hc
    · exact (h.2.2 c hc b List.mem_cons_self).le
    · rcases List.mem_cons.1 hc with rfl | hc
      · exact le_rfl
      · exact absurd hckey (hafter c hc)
  · rintro ⟨hmem, hkey, hplace⟩
    obtain ⟨before, after, rfl⟩ := List.append_of_mem hmem
    rw [List.pairwise_append, List.pairwise_cons] at h
    refine ⟨before, after, rfl, hkey, fun c hc hckey => ?_⟩
    have hlt := h.2.1.1 c hc
    have hle := hplace c (List.mem_append_right _ (List.mem_cons_of_mem _ hc)) hckey
    omega

end Table

namespace Registry

/-! ### Owners -/

/-- The place at which an id first appears. -/
def firstPlace (markets : List Market) (id : String) : ℕ := (markets.map Market.id).idxOf id

/-- How many markets follow the last one with an id. -/
def followers (markets : List Market) (id : String) : ℕ :=
  (markets.map Market.id).reverse.idxOf id

/-- A market that counts, being the last with its id, and has the symbol. -/
structure Shares (markets : List Market) (symbol : String) (m : Market) : Prop where
  counts : Table.LastWith Market.id m.id markets m
  symbol_eq : m.symbol = symbol

/-- Of the markets that share a symbol, the one whose id appears for the first time after those of
the others. -/
structure NewestOwner (markets : List Market) (symbol : String) (m : Market) : Prop where
  shares : Shares markets symbol m
  newest : ∀ n, Shares markets symbol n → firstPlace markets n.id ≤ firstPlace markets m.id

/-- Of the markets that share a symbol, the one whose id appears for the last time after those of
the others. -/
structure LatestOwner (markets : List Market) (symbol : String) (m : Market) : Prop where
  shares : Shares markets symbol m
  latest : ∀ n, Shares markets symbol n → followers markets m.id ≤ followers markets n.id

section
variable {markets : List Market} {currencies : Option (List Currency)} {mode : PrecisionMode}
  {symbol : String} {m : Market}

theorem mem_values_iff : m ∈ (ofMarkets markets currencies mode).marketsById.values ↔
    Table.LastWith Market.id m.id markets m := by
  rw [Table.mem_values]
  simp only [get?_marketsById]
  constructor
  · rintro ⟨id, hlast⟩
    rwa [hlast.mem.2]
  · exact fun hlast => ⟨m.id, hlast⟩

/-- **The markets that count** stand in the order in which their ids first appear. -/
theorem pairwise_firstPlace_values :
    (ofMarkets markets currencies mode).marketsById.values.Pairwise
      fun a b => firstPlace markets a.id < firstPlace markets b.id := by
  have hcount : Survivors markets (ofMarkets markets currencies mode).marketsById.values :=
    survivors_ofMarkets markets currencies
  have hplaces := pairwise_idxOf_eraseDups (markets.map Market.id)
  rwa [← hcount.ids, List.pairwise_map] at hplaces

theorem market_eq_ok_iff_get? {r : Registry} :
    r.market symbol = .ok m ↔ r.markets.get? symbol = some m := by
  unfold market
  cases r.markets.get? symbol <;> simp

/-- **A symbol leads to its newest owner.** -/
theorem market_eq_ok_iff :
    (ofMarkets markets currencies mode).market symbol = .ok m ↔ NewestOwner markets symbol m := by
  rw [market_eq_ok_iff_get?, get?_markets,
    Table.lastWith_iff_of_pairwise pairwise_firstPlace_values]
  simp only [mem_values_iff]
  constructor
  · rintro ⟨hcounts, hsymbol, hplace⟩
    exact ⟨⟨hcounts, hsymbol⟩, fun n hn => hplace n hn.counts hn.symbol_eq⟩
  · rintro ⟨⟨hcounts, hsymbol⟩, hnewest⟩
    exact ⟨hcounts, hsymbol, fun n hn hnsymbol => hnewest n ⟨hn, hnsymbol⟩⟩

/-- A symbol that some market shares has an owner. -/
theorem exists_newestOwner (h : Shares markets symbol m) :
    ∃ owner, NewestOwner markets symbol owner := by
  have hmem : m ∈ (ofMarkets markets none .decimalPlaces).marketsById.values :=
    mem_values_iff.2 h.counts
  obtain ⟨owner, howner⟩ := Table.exists_lastWith hmem h.symbol_eq
  exact ⟨owner, market_eq_ok_iff.1 (market_eq_ok_iff_get?.2 ((get?_markets _ _ _).2 howner))⟩

/-- Where ids do not repeat, the first place of an id is its last one. -/
theorem firstPlace_add_followers (hdistinct : (markets.map Market.id).Nodup)
    (h : Shares markets symbol m) :
    firstPlace markets m.id + followers markets m.id + 1 = markets.length := by
  have hmem : m.id ∈ markets.map Market.id := List.mem_map_of_mem h.counts.mem.1
  have hplaces := idxOf_add_idxOf_reverse hdistinct hmem
  rwa [List.length_map] at hplaces

theorem newestOwner_iff_latestOwner (hdistinct : (markets.map Market.id).Nodup) :
    NewestOwner markets symbol m ↔ LatestOwner markets symbol m := by
  constructor
  · rintro ⟨hm, hnewest⟩
    refine ⟨hm, fun n hn => ?_⟩
    have hle := hnewest n hn
    have hplace := firstPlace_add_followers hdistinct hm
    have hplace' := firstPlace_add_followers hdistinct hn
    omega
  · rintro ⟨hm, hlatest⟩
    refine ⟨hm, fun n hn => ?_⟩
    have hle := hlatest n hn
    have hplace := firstPlace_add_followers hdistinct hm
    have hplace' := firstPlace_add_followers hdistinct hn
    omega

end

/-- **A shared symbol leads to the market with the newest id**, and to the one that comes last in
the list exactly if no other id that shares the symbol is newer; so always where ids do not
repeat. -/
theorem market_of_shared_symbol (markets : List Market) (currencies : Option (List Currency))
    (mode : PrecisionMode) (symbol : String) :
    (∀ m, (ofMarkets markets currencies mode).market symbol = .ok m ↔
        NewestOwner markets symbol m) ∧
      ((∃ m, Shares markets symbol m) →
        ∃ m, (ofMarkets markets currencies mode).market symbol = .ok m) ∧
      (∀ m, LatestOwner markets symbol m →
        ((ofMarkets markets currencies mode).market symbol = .ok m ↔
          ∀ n, Shares markets symbol n → firstPlace markets n.id ≤ firstPlace markets m.id)) ∧
      ((markets.map Market.id).Nodup → ∀ m,
        (ofMarkets markets currencies mode).market symbol = .ok m ↔
          LatestOwner markets symbol m) := by
  refine ⟨fun m => market_eq_ok_iff, ?_, fun m hm => ?_, fun hdistinct m => ?_⟩
  · rintro ⟨m, hm⟩
    obtain ⟨owner, howner⟩ := exists_newestOwner hm
    exact ⟨owner, market_eq_ok_iff.2 howner⟩
  · rw [market_eq_ok_iff]
    exact ⟨NewestOwner.newest, fun hnewest => ⟨hm.shares, hnewest⟩⟩
  · rw [market_eq_ok_iff, newestOwner_iff_latestOwner hdistinct]

/-- A market for bitcoin cash, under any id. -/
def bitcoinCash (id : String) (active : Bool) : Market :=
  { Market.ofPair id "BCH" "USDT" with active }

/-- Two ids, of which the older one comes back. -/
def olderComesBack : List Market :=
  [bitcoinCash "B1" true, bitcoinCash "B2" true, bitcoinCash "B1" false]

/-- Both ids come back. -/
def bothComeBack : List Market := olderComesBack ++ [bitcoinCash "B2" false]

/-- The market at the end of a list owns its symbol as far as last places count. -/
theorem latestOwner_concat (markets : List Market) (m : Market) :
    LatestOwner (markets ++ [m]) m.symbol m := by
  refine ⟨⟨⟨markets, [], rfl, rfl, by simp⟩, rfl⟩, fun n _ => ?_⟩
  have hlast : followers (markets ++ [m]) m.id = 0 := by
    simp [followers]
  exact hlast.le.trans (Nat.zero_le _)

/-- The later id is also the newer one. -/
theorem market_of_shared_symbol_in_order :
    LatestOwner bothComeBack (Market.symbolOf "BCH" "USDT") (bitcoinCash "B2" false) ∧
      (ofMarkets bothComeBack none .decimalPlaces).market (Market.symbolOf "BCH" "USDT")
        = .ok (bitcoinCash "B2" false) := by
  have howner : LatestOwner bothComeBack (Market.symbolOf "BCH" "USDT") (bitcoinCash "B2" false) :=
    latestOwner_concat olderComesBack _
  refine ⟨howner,
    ((market_of_shared_symbol bothComeBack none .decimalPlaces _).2.2.1 _ howner).2 ?_⟩
  intro n hn
  have hid : n.id ∈ bothComeBack.map Market.id := List.mem_map_of_mem hn.counts.mem.1
  have hplaces : ∀ id ∈ bothComeBack.map Market.id,
      firstPlace bothComeBack id ≤ firstPlace bothComeBack "B2" := by decide
  exact hplaces n.id hid

/-- **The last market in the list need not own its symbol**: it does not if its id is older than
another one. -/
theorem last_in_list_is_not_owner :
    ¬ ∀ (markets : List Market) (currencies : Option (List Currency)) (mode : PrecisionMode)
      (symbol : String) (m : Market), LatestOwner markets symbol m →
      (ofMarkets markets currencies mode).market symbol = .ok m := by
  intro h
  have howner : LatestOwner olderComesBack (Market.symbolOf "BCH" "USDT")
      (bitcoinCash "B1" false) :=
    latestOwner_concat [bitcoinCash "B1" true, bitcoinCash "B2" true] _
  have hshares : Shares olderComesBack (Market.symbolOf "BCH" "USDT") (bitcoinCash "B2" true) := by
    refine ⟨⟨[bitcoinCash "B1" true], [bitcoinCash "B1" false], rfl, rfl, ?_⟩, rfl⟩
    simp [bitcoinCash, Market.ofPair]
  have hnewest := market_eq_ok_iff.1 (h olderComesBack none .decimalPlaces _ _ howner)
  have holder : ¬ firstPlace olderComesBack "B2" ≤ firstPlace olderComesBack "B1" := by decide
  exact holder (hnewest.newest _ hshares)

end Registry

end Bourse
