import Bourse.Client.Markets
import Bourse.Proofs.Registry.Derived

/-! # The indexes of a registry agree

A registry has four tables and three lists of keys, all made from one list of markets. `Agrees` says
how they hang together: ids stand for the last market that has them, symbols for a market that is
also found by its id, codes for their own currency, and ids of currencies for a currency that is
also found by its code. The registry of any list of markets is such a one (`agrees_ofMarkets`), and
after a run of calls that set the markets nothing but the last call counts (`registry_foldl_run`,
`indexes_agree`). -/

namespace Bourse

namespace Registry

/-! ### What agreement is -/

/-- A list of keys that ascends and has the keys of a table. -/
structure Lists {α : Type} (keys : List String) (t : Table α) : Prop where
  ascending : keys.Pairwise (· < ·)
  mem_iff : ∀ key, key ∈ keys ↔ key ∈ t.keys

/-- An index by id of currencies that stand under their codes. -/
structure IndexesIds (byCode byId : Table Currency) : Prop where
  /-- Every id leads to a currency. -/
  known : ∀ code c, byCode.get? code = some c → c.id ∈ byId.keys
  /-- What an id leads to has this id, and is the currency that stands under its code. -/
  found : ∀ id c, byId.get? id = some c → c.id = id ∧ byCode.get? c.code = some c

/-- The tables and lists of a registry agree with each other and with a list of markets. -/
structure Agrees (markets : List Market) (r : Registry) : Prop where
  /-- The ids are those of the list. -/
  mem_ids : ∀ id, id ∈ r.marketsById.keys ↔ ∃ m ∈ markets, m.id = id
  /-- An id leads to the last market in the list that has it. -/
  by_id : ∀ id m, r.marketsById.get? id = some m ↔ Table.LastWith Market.id id markets m
  /-- Every symbol leads to a market. -/
  symbol_known : ∀ id m, r.marketsById.get? id = some m → m.symbol ∈ r.markets.keys
  /-- What a symbol leads to has this symbol, and is the market that its id leads to. -/
  by_symbol : ∀ symbol m, r.markets.get? symbol = some m →
    m.symbol = symbol ∧ r.marketsById.get? m.id = some m
  by_code : ∀ code c, r.currencies.get? code = some c → c.code = code
  by_currency_id : IndexesIds r.currencies r.currenciesById
  /-- In whichever order the currencies are put under their ids, the index agrees. -/
  in_any_order : ∀ order : List Currency, order.Perm r.currencies.values →
    IndexesIds r.currencies (.ofList (order.map fun c => (c.id, c)))
  symbols : Lists r.symbols r.markets
  ids : Lists r.ids r.marketsById
  codes : Lists r.codes r.currencies
  loaded : r.loaded = true

/-! ### One list of markets -/

theorem lists_sorted {α : Type} (t : Table α) : Lists (t.sorted.map Prod.fst) t :=
  ⟨t.ascending_keys_sorted, fun _ => t.mem_keys_sorted⟩

/-- **An index by id** agrees with the currencies, whatever their order. -/
theorem indexesIds_ofList {t : Table Currency}
    (hcode : ∀ code c, t.get? code = some c → c.code = code) {order : List Currency}
    (horder : order.Perm t.values) :
    IndexesIds t (.ofList (order.map fun c => (c.id, c))) := by
  constructor
  · intro code c hc
    have hmem : c ∈ order := horder.mem_iff.2 (t.mem_values.2 ⟨code, hc⟩)
    obtain ⟨d, hd⟩ := Table.exists_lastWith hmem rfl
    exact (Table.mem_keys _).2 ⟨d, (Table.get?_ofList_map _ _).2 hd⟩
  · intro id c hc
    obtain ⟨hmem, hid⟩ := ((Table.get?_ofList_map _ _).1 hc).mem
    obtain ⟨code, hget⟩ := t.mem_values.1 (horder.mem_iff.1 hmem)
    exact ⟨hid, by rw [hcode code c hget]; exact hget⟩

section
variable (markets : List Market) (currencies : Option (List Currency)) (mode : PrecisionMode)

theorem get?_marketsById {id : String} {m : Market} :
    (ofMarkets markets currencies mode).marketsById.get? id = some m ↔
      Table.LastWith Market.id id markets m :=
  Table.get?_ofList_map _ _

theorem get?_markets {symbol : String} {m : Market} :
    (ofMarkets markets currencies mode).markets.get? symbol = some m ↔
      Table.LastWith Market.symbol symbol
        (ofMarkets markets currencies mode).marketsById.values m :=
  Table.get?_ofList_map _ _

/-- A currency is a given one, or a derived one whose code no given one has. -/
theorem get?_currencies {code : String} {c : Currency} :
    (ofMarkets markets currencies mode).currencies.get? code = some c ↔
      Table.LastWith Currency.code code (currencies.getD []) c ∨
      (∀ d ∈ currencies.getD [], d.code ≠ code) ∧
        (derive mode (ofMarkets markets currencies mode).marketsById.values).get? code = some c :=
  Table.get?_putAll_map _ _ _

/-- **Every currency stands under its own code.** -/
theorem code_of_get?_currencies {code : String} {c : Currency}
    (h : (ofMarkets markets currencies mode).currencies.get? code = some c) : c.code = code := by
  rcases (get?_currencies markets currencies mode).1 h with hgiven | ⟨-, hderived⟩
  · exact hgiven.mem.2
  · exact ((collects_derive _ _).own_code code c hderived).1

/-- **The registry of a list of markets** agrees with itself and with the list. -/
theorem agrees_ofMarkets : Agrees markets (ofMarkets markets currencies mode) where
  mem_ids id := by
    rw [Table.mem_keys]
    constructor
    · rintro ⟨m, hm⟩
      exact ⟨m, ((get?_marketsById markets currencies mode).1 hm).mem⟩
    · rintro ⟨m, hm, hid⟩
      obtain ⟨last, hlast⟩ := Table.exists_lastWith hm hid
      exact ⟨last, (get?_marketsById markets currencies mode).2 hlast⟩
  by_id id m := get?_marketsById markets currencies mode
  symbol_known id m hm := by
    obtain ⟨last, hlast⟩ := Table.exists_lastWith ((Table.mem_values _).2 ⟨id, hm⟩) rfl
    exact (Table.mem_keys _).2 ⟨last, (get?_markets markets currencies mode).2 hlast⟩
  by_symbol symbol m hm := by
    obtain ⟨hmem, hsymbol⟩ := ((get?_markets markets currencies mode).1 hm).mem
    obtain ⟨id, hid⟩ := (Table.mem_values _).1 hmem
    refine ⟨hsymbol, ?_⟩
    rw [((get?_marketsById markets currencies mode).1 hid).mem.2]
    exact hid
  by_code code c := code_of_get?_currencies markets currencies mode
  by_currency_id :=
    indexesIds_ofList (fun _ _ => code_of_get?_currencies markets currencies mode) (.refl _)
  in_any_order order :=
    indexesIds_ofList fun _ _ => code_of_get?_currencies markets currencies mode
  symbols := lists_sorted _
  ids := lists_sorted _
  codes := lists_sorted _
  loaded := rfl

end

end Registry

/-! ### A run of calls -/

/-- A call that sets the markets: on a client, which states the precision in its own way. -/
structure SetCall where
  client : Client
  markets : List Market
  currencies : Option (List Currency)

namespace SetCall

/-- The registry of a call on its own. -/
def registry (call : SetCall) : Registry :=
  .ofMarkets call.markets call.currencies call.client.precisionMode

/-- The world after a call. -/
def run (w : World) (call : SetCall) : World :=
  (call.client.setMarkets call.markets call.currencies w).2

/-- Of a run of calls the last one counts. -/
theorem registry_foldl_run (w : World) (earlier : List SetCall) (call : SetCall) :
    ((earlier ++ [call]).foldl run w).registry = call.registry := by
  rw [List.foldl_append]
  rfl

/-- **The indexes of the registry agree** after any run of calls, and nothing of the earlier calls
is left. -/
theorem indexes_agree (w : World) (earlier : List SetCall) (call : SetCall) :
    Registry.Agrees call.markets ((earlier ++ [call]).foldl run w).registry ∧
      ((earlier ++ [call]).foldl run w).registry = (run {} call).registry := by
  rw [registry_foldl_run]
  exact ⟨Registry.agrees_ofMarkets _ _ _, rfl⟩

end SetCall

end Bourse
