import Bourse.Proofs.Decimal.ReadBack
import Bourse.Proofs.SortedTable
import Bourse.Proofs.Table
import Bourse.Record.Balance
import Bourse.Record.Currency
import Bourse.Record.Market
import Bourse.Record.Order
import Bourse.Record.OrderBook

/-! # Records survive their JSON form

Writing a record as JSON and reading it back gives the same record, where decimals count as numbers:
the digits behind the point come back as they were, and only a zero loses its sign. So records that
are not the same are never written alike.

* `HasDecimals`, `Same`: the decimals inside a value, and equality up to their texts;
* `FaithfulCodec`: what is written reads as the value with its decimals settled, for decimals, for
  options, lists and tables of such values, and from these for one record after another. A record is
  an object with one entry for each field, and every field is read under the name it is written
  under (`fields?_bind`);
* `records_survive`: markets, currencies, orders, books and balances come back. -/

namespace Bourse

/-! ### Values with decimals in them -/

/-- Values that may hold decimals: `mapDecimals` changes each of them and nothing else. -/
class HasDecimals (α : Type) where
  mapDecimals : (Decimal → Decimal) → α → α
  map_id : ∀ a, mapDecimals id a = a
  map_map : ∀ f g a, mapDecimals f (mapDecimals g a) = mapDecimals (f ∘ g) a

namespace HasDecimals

/-- Equality of values, decimals being compared as numbers: their normal forms are equal. -/
def Same {α : Type} [HasDecimals α] (a b : α) : Prop :=
  mapDecimals Decimal.normalize a = mapDecimals Decimal.normalize b

/-- Values without decimals. -/
abbrev none {α : Type} : HasDecimals α := ⟨fun _ a => a, fun _ => rfl, fun _ _ _ => rfl⟩

instance : HasDecimals Json := none
instance : HasDecimals String := none
instance : HasDecimals Bool := none
instance : HasDecimals Int64 := none
instance : HasDecimals MarketKind := none
instance : HasDecimals OrderSide := none
instance : HasDecimals OrderType := none
instance : HasDecimals OrderStatus := none

instance : HasDecimals Decimal := ⟨fun f d => f d, fun _ => rfl, fun _ _ _ => rfl⟩

variable {α : Type} [HasDecimals α]

instance : HasDecimals (Option α) where
  mapDecimals f a := a.map (mapDecimals f)
  map_id a := by
    cases a with
    | none => rfl
    | some a => exact congrArg some (map_id a)
  map_map f g a := by
    cases a with
    | none => rfl
    | some a => exact congrArg some (map_map f g a)

instance : HasDecimals (List α) where
  mapDecimals f l := l.map (mapDecimals f)
  map_id l := List.map_id'' map_id l
  map_map f g l := by
    rw [List.map_map]
    exact List.map_congr_left fun a _ => map_map f g a

instance : HasDecimals (SortedTable α) where
  mapDecimals f t := t.map (mapDecimals f)
  map_id t := by
    have hentry : ∀ e : String × α, (e.1, mapDecimals id e.2) = e := fun e =>
      Prod.ext rfl (map_id e.2)
    apply SortedTable.ext
    exact List.map_id'' hentry t.entries
  map_map f g t := by
    apply SortedTable.ext
    show (t.entries.map _).map _ = t.entries.map _
    rw [List.map_map]
    exact List.map_congr_left fun e _ => Prod.ext rfl (map_map f g e.2)

instance : HasDecimals Bounds where
  mapDecimals f b := { min := mapDecimals f b.min, max := mapDecimals f b.max }
  map_id b := by simp only [map_id]
  map_map f g b := by simp only [map_map]

instance : HasDecimals MarketPrecision where
  mapDecimals f p :=
    { amount := mapDecimals f p.amount
      price := mapDecimals f p.price
      cost := mapDecimals f p.cost
      base := mapDecimals f p.base
      quote := mapDecimals f p.quote }
  map_id p := by simp only [map_id]
  map_map f g p := by simp only [map_map]

instance : HasDecimals MarketLimits where
  mapDecimals f l :=
    { amount := mapDecimals f l.amount
      price := mapDecimals f l.price
      cost := mapDecimals f l.cost }
  map_id l := by simp only [map_id]
  map_map f g l := by simp only [map_map]

instance : HasDecimals Market where
  mapDecimals f m :=
    { m with
      precision := mapDecimals f m.precision
      limits := mapDecimals f m.limits
      maker := mapDecimals f m.maker
      taker := mapDecimals f m.taker }
  map_id m := by simp only [map_id]
  map_map f g m := by simp only [map_map]

instance : HasDecimals Currency where
  mapDecimals f c := { c with precision := mapDecimals f c.precision }
  map_id c := by simp only [map_id]
  map_map f g c := by simp only [map_map]

instance : HasDecimals Fee where
  mapDecimals f fee := { fee with cost := mapDecimals f fee.cost, rate := mapDecimals f fee.rate }
  map_id fee := by simp only [map_id]
  map_map f g fee := by simp only [map_map]

instance : HasDecimals Order where
  mapDecimals f o :=
    { o with
      price := mapDecimals f o.price
      average := mapDecimals f o.average
      amount := mapDecimals f o.amount
      filled := mapDecimals f o.filled
      remaining := mapDecimals f o.remaining
      cost := mapDecimals f o.cost
      fee := mapDecimals f o.fee }
  map_id o := by simp only [map_id]
  map_map f g o := by simp only [map_map]

instance : HasDecimals BookLevel where
  mapDecimals f l := { price := mapDecimals f l.price, amount := mapDecimals f l.amount }
  map_id l := by simp only [map_id]
  map_map f g l := by simp only [map_map]

instance : HasDecimals OrderBook where
  mapDecimals f b := { b with bids := mapDecimals f b.bids, asks := mapDecimals f b.asks }
  map_id b := by simp only [map_id]
  map_map f g b := by simp only [map_map]

instance : HasDecimals BalanceEntry where
  mapDecimals f e :=
    { free := mapDecimals f e.free
      used := mapDecimals f e.used
      total := mapDecimals f e.total }
  map_id e := by simp only [map_id]
  map_map f g e := by simp only [map_map]

instance : HasDecimals Balance where
  mapDecimals f b := { b with balances := mapDecimals f b.balances }
  map_id b := by simp only [map_id]
  map_map f g b := by simp only [map_map]

end HasDecimals

open HasDecimals JsonCodec

/-! ### Codecs that give back what they were given -/

/-- What is written reads back, but for the signs of zeros. -/
class FaithfulCodec (α : Type) [JsonCodec α] [HasDecimals α] : Prop where
  decode?_encode : ∀ a : α, decode? (encode a) = some (mapDecimals Decimal.settled a)

/-- No value is written as `null`, and so an absent one can be. -/
class NeverNull (α : Type) [JsonCodec α] : Prop where
  encode_ne_null : ∀ a : α, encode a ≠ .null

export FaithfulCodec (decode?_encode)
export NeverNull (encode_ne_null)

@[simp] theorem decode?_json (v : Json) : (decode? v : Option Json) = some v := rfl

@[simp] theorem decode?_str (s : String) : (decode? (.str s) : Option String) = some s := rfl

@[simp] theorem decode?_bool (b : Bool) : (decode? (.bool b) : Option Bool) = some b := rfl

instance : FaithfulCodec Json := ⟨decode?_json⟩
instance : FaithfulCodec String := ⟨decode?_str⟩
instance : FaithfulCodec Bool := ⟨decode?_bool⟩
instance : FaithfulCodec MarketKind := ⟨fun k => by cases k <;> rfl⟩
instance : FaithfulCodec OrderSide := ⟨fun s => by cases s <;> rfl⟩
instance : FaithfulCodec OrderType := ⟨fun t => by cases t <;> rfl⟩
instance : FaithfulCodec OrderStatus := ⟨fun s => by cases s <;> rfl⟩

instance : FaithfulCodec Int64 where
  decode?_encode i := by
    have hlt : i.toInt < 9223372036854775808 := Int64.toInt_lt i
    show (JsonNumber.int64? (.int ⟨i.toInt, _⟩)).map Int64.ofInt = some i
    rw [JsonNumber.int64?]
    simp [hlt]

instance : FaithfulCodec Decimal := ⟨Decimal.ofText?_toText⟩

instance : NeverNull String := ⟨nofun⟩
instance : NeverNull Bool := ⟨nofun⟩
instance : NeverNull Int64 := ⟨nofun⟩
instance : NeverNull Decimal := ⟨nofun⟩
instance : NeverNull OrderSide := ⟨nofun⟩
instance : NeverNull OrderType := ⟨nofun⟩
instance : NeverNull OrderStatus := ⟨nofun⟩
instance : NeverNull Fee := ⟨nofun⟩

/-- Anything but `null` reads as a value that is there. -/
theorem decode?_option_of_ne_null {β : Type} [JsonCodec β] {v : Json} (h : v ≠ .null) :
    (decode? v : Option (Option β)) = (decode? v : Option β).map some := by
  cases v with
  | null => exact absurd rfl h
  | _ => rfl

/-- Reading the parts of a list gives the list of what they read as. -/
theorem mapM_eq_some_map {β γ δ : Type} (f : γ → Option δ) (g : β → γ) {h : β → δ}
    (hread : ∀ b, f (g b) = some (h b)) (l : List β) : (l.map g).mapM f = some (l.map h) := by
  induction l with
  | nil => rfl
  | cons b l ih =>
    rw [List.map_cons, List.mapM_cons, hread b, ih]
    rfl

section
variable {α : Type} [JsonCodec α] [HasDecimals α] [FaithfulCodec α]

instance [NeverNull α] : FaithfulCodec (Option α) where
  decode?_encode a := by
    cases a with
    | none => rfl
    | some a =>
      show decode? (encode a) = _
      rw [decode?_option_of_ne_null (encode_ne_null a), decode?_encode a]
      rfl

instance : FaithfulCodec (List α) where
  decode?_encode l := mapM_eq_some_map decode? encode decode?_encode l

instance : FaithfulCodec (SortedTable α) where
  decode?_encode t := by
    let read (e : String × Json) : Option (String × α) := (decode? e.2).map fun a => (e.1, a)
    let write (e : String × α) : String × Json := (e.1, encode e.2)
    have hentry : ∀ e, read (write e) = some (e.1, mapDecimals Decimal.settled e.2) := by
      intro e
      show (decode? (encode e.2)).map (fun a => (e.1, a)) = _
      rw [decode?_encode e.2]
      rfl
    have hentries := mapM_eq_some_map read write hentry t.entries
    show Option.map SortedTable.ofList ((t.entries.map write).mapM read) = _
    rw [hentries]
    exact congrArg some (SortedTable.ofList_map_entries _ t)

end

/-! ### Records -/

/-- An object whose keys are the fields has them as its fields. -/
theorem fields?_obj {names : List String} (hnames : names.Nodup) {entries : List (String × Json)}
    (h : entries.map Prod.fst = names) :
    fields? names (.obj entries) = some ⟨entries, h ▸ hnames⟩ := by
  have hknown : (entries.filter fun e => names.contains e.1) = entries := by
    rw [List.filter_eq_self]
    intro e he
    rw [← h]
    simpa using ⟨e.2, he⟩
  have hnodup : (entries.map Prod.fst).Nodup := h ▸ hnames
  unfold fields?
  simp only [hknown]
  rw [dif_pos hnodup]

/-- A record that is an object of its fields reads as what its fields read as. -/
theorem fields?_bind {α : Type} {names : List String} {entries : List (String × Json)}
    {read : Table Json → Option α} {a : α} (hnames : names.Nodup)
    (h : entries.map Prod.fst = names)
    (hread : ∀ t : Table Json, t.entries = entries → read t = some a) :
    (fields? names (.obj entries) >>= read) = some a := by
  rw [fields?_obj hnames h]
  exact hread _ rfl

instance : FaithfulCodec Bounds where
  decode?_encode b := by
    refine fields?_bind (by decide) (by rfl) fun t ht => ?_
    simp [JsonCodec.optional, Table.get?, ht, List.lookup_cons, decode?_encode, mapDecimals]

instance : FaithfulCodec MarketPrecision where
  decode?_encode p := by
    refine fields?_bind (by decide) (by rfl) fun t ht => ?_
    simp [JsonCodec.optional, Table.get?, ht, List.lookup_cons, decode?_encode, mapDecimals]

instance : FaithfulCodec MarketLimits where
  decode?_encode l := by
    refine fields?_bind (by decide) (by rfl) fun t ht => ?_
    simp [need, Table.get?, ht, List.lookup_cons, decode?_encode, mapDecimals]

instance : FaithfulCodec Market where
  decode?_encode m := by
    refine fields?_bind (by decide) (by rfl) fun t ht => ?_
    simp [need, JsonCodec.optional, Table.get?, ht, List.lookup_cons, decode?_encode, mapDecimals]

instance : FaithfulCodec Currency where
  decode?_encode c := by
    refine fields?_bind (by decide) (by rfl) fun t ht => ?_
    simp [need, JsonCodec.optional, Table.get?, ht, List.lookup_cons, decode?_encode, mapDecimals]

instance : FaithfulCodec Fee where
  decode?_encode fee := by
    refine fields?_bind (by decide) (by rfl) fun t ht => ?_
    simp [need, JsonCodec.optional, Table.get?, ht, List.lookup_cons, decode?_encode, mapDecimals]

instance : FaithfulCodec Order where
  decode?_encode o := by
    refine fields?_bind (by decide) (by rfl) fun t ht => ?_
    simp [need, JsonCodec.optional, Table.get?, ht, List.lookup_cons, decode?_encode, mapDecimals]

instance : FaithfulCodec BookLevel where
  decode?_encode l := by
    refine fields?_bind (by decide) (by rfl) fun t ht => ?_
    simp [need, Table.get?, ht, List.lookup_cons, decode?_encode, mapDecimals]

instance : FaithfulCodec OrderBook where
  decode?_encode b := by
    refine fields?_bind (by decide) (by rfl) fun t ht => ?_
    simp [need, JsonCodec.optional, Table.get?, ht, List.lookup_cons, decode?_encode, mapDecimals]

instance : FaithfulCodec BalanceEntry where
  decode?_encode e := by
    refine fields?_bind (by decide) (by rfl) fun t ht => ?_
    simp [JsonCodec.optional, Table.get?, ht, List.lookup_cons, decode?_encode, mapDecimals]

instance : FaithfulCodec Balance where
  decode?_encode b := by
    refine fields?_bind (by decide) (by rfl) fun t ht => ?_
    simp [need, JsonCodec.optional, Table.get?, ht, List.lookup_cons, decode?_encode, mapDecimals]

/-! ### What survives -/

theorem normalize_settled (d : Decimal) : d.settled.normalize = d.normalize :=
  Decimal.normalize_eq_of_toRat_eq d.toRat_settled

/-- Decimals are the same if they are one number. -/
theorem same_decimal_iff {d e : Decimal} : Same d e ↔ d.toRat = e.toRat := by
  constructor
  · intro h
    have hnormal : d.normalize = e.normalize := h
    rw [← d.toRat_normalize, hnormal, e.toRat_normalize]
  · exact Decimal.normalize_eq_of_toRat_eq

theorem same_settled {α : Type} [HasDecimals α] (a : α) :
    Same (mapDecimals Decimal.settled a) a := by
  have hsigns : Decimal.normalize ∘ Decimal.settled = Decimal.normalize :=
    funext normalize_settled
  rw [Same, map_map, hsigns]

/-- What is written as JSON reads as the same value, and only the same values are written alike. -/
structure Survives (α : Type) [JsonCodec α] [HasDecimals α] : Prop where
  reads_back : ∀ a : α, ∃ b, decode? (encode a) = some b ∧ Same b a
  tells_apart : ∀ a b : α, encode a = encode b → Same a b

theorem survives {α : Type} [JsonCodec α] [HasDecimals α] [FaithfulCodec α] :
    Survives α where
  reads_back a := ⟨_, decode?_encode a, same_settled a⟩
  tells_apart a b h := by
    have hread : some (mapDecimals Decimal.settled a) = some (mapDecimals Decimal.settled b) := by
      rw [← decode?_encode a, h, decode?_encode b]
    have hsettled := Option.some.inj hread
    calc mapDecimals Decimal.normalize a
        = mapDecimals Decimal.normalize (mapDecimals Decimal.settled a) := (same_settled a).symm
      _ = mapDecimals Decimal.normalize (mapDecimals Decimal.settled b) := by rw [hsettled]
      _ = mapDecimals Decimal.normalize b := same_settled b

/-- **Records survive**: markets, currencies, orders, books and balances. -/
theorem records_survive : Survives Market ∧ Survives Currency ∧ Survives Order ∧
    Survives OrderBook ∧ Survives Balance :=
  ⟨survives, survives, survives, survives, survives⟩

end Bourse
