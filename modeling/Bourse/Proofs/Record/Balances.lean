import Bourse.Proofs.Json.Fields
import Bourse.Proofs.Record.Completion
import Bourse.Proofs.SortedTable
import Bourse.Proofs.Table
import Bourse.Record.Balance

/-! # Balances stay complete

Of the three amounts of a currency the one that is missing is derived from the other two, by one
exact number (`Missing`). `Completion` says what may happen to an entry, and every entry is
completed in this way (`completion_complete`), once and for all (`complete_fixed`).

A balance comes about by updates: a payload replaces it, an entry replaces that of its currency.
`Given` says which amounts of a currency were given last, and what is stored after any run of
updates is the completion of these (`stores_run`). `run_truthful` puts this together. -/

namespace Bourse

open Decimal

namespace BalanceEntry

/-! ### One entry -/

/-- Only the amount `part` of the entry is not known, and it has to be `x`. -/
inductive Missing (e : BalanceEntry) : (BalanceEntry → Option Decimal) → ℚ → Prop
  | total {f u : Decimal} : e.free = some f → e.used = some u → e.total = none →
      Missing e BalanceEntry.total (f.toRat + u.toRat)
  | used {f t : Decimal} : e.free = some f → e.used = none → e.total = some t →
      Missing e BalanceEntry.used (t.toRat - f.toRat)
  | free {u t : Decimal} : e.free = none → e.used = some u → e.total = some t →
      Missing e BalanceEntry.free (t.toRat - u.toRat)

/-- How many amounts are known. -/
def known (e : BalanceEntry) : ℕ := [e.free, e.used, e.total].countP Option.isSome

/-- All amounts are known, and what is free and what is used make up the total. -/
def AddsUp (e : BalanceEntry) : Prop :=
  ∃ f u t, e.free = some f ∧ e.used = some u ∧ e.total = some t ∧ f.toRat + u.toRat = t.toRat

/-- What completing an entry does to it. -/
structure Completion (e e' : BalanceEntry) : Prop where
  keeps_free : Order.Keeps e.free e'.free
  keeps_used : Order.Keeps e.used e'.used
  keeps_total : Order.Keeps e.total e'.total
  /-- Of two known amounts the third one is derived: it answers for the number that it has to be,
  and where that is a decimal the amounts add up. -/
  derived : e.known = 2 → ∃ part x, Missing e part x ∧ Answers x (part e') ∧
    ((∃ d : Decimal, d.toRat = x) → AddsUp e')
  /-- Otherwise nothing happens, whether the amounts add up or not. -/
  unchanged : e.known ≠ 2 → e' = e

theorem keeps_refl (value : Option Decimal) : Order.Keeps value value := fun _ h => h

theorem keeps_none (value : Option Decimal) : Order.Keeps none value := nofun

section
variable (f u t : Decimal)

theorem completion_of_parts : Completion ⟨some f, some u, none⟩ ⟨some f, some u, f.add? u⟩ where
  keeps_free := keeps_refl _
  keeps_used := keeps_refl _
  keeps_total := keeps_none _
  derived _ := by
    refine ⟨BalanceEntry.total, _, .total rfl rfl rfl, answers_add? f u, ?_⟩
    rintro ⟨d, hd⟩
    obtain ⟨t, ht, hvalue⟩ := (answers_add? f u).exact d hd
    exact ⟨f, u, t, rfl, rfl, ht, hvalue.symm⟩
  unchanged h := absurd rfl h

theorem completion_of_free : Completion ⟨some f, none, some t⟩ ⟨some f, t.sub? f, some t⟩ where
  keeps_free := keeps_refl _
  keeps_used := keeps_none _
  keeps_total := keeps_refl _
  derived _ := by
    refine ⟨BalanceEntry.used, _, .used rfl rfl rfl, answers_sub? t f, ?_⟩
    rintro ⟨d, hd⟩
    obtain ⟨u, hu, hvalue⟩ := (answers_sub? t f).exact d hd
    exact ⟨f, u, t, rfl, hu, rfl, by rw [hvalue, add_sub_cancel]⟩
  unchanged h := absurd rfl h

theorem completion_of_used : Completion ⟨none, some u, some t⟩ ⟨t.sub? u, some u, some t⟩ where
  keeps_free := keeps_none _
  keeps_used := keeps_refl _
  keeps_total := keeps_refl _
  derived _ := by
    refine ⟨BalanceEntry.free, _, .free rfl rfl rfl, answers_sub? t u, ?_⟩
    rintro ⟨d, hd⟩
    obtain ⟨f, hf, hvalue⟩ := (answers_sub? t u).exact d hd
    exact ⟨f, u, t, hf, rfl, rfl, by rw [hvalue, sub_add_cancel]⟩
  unchanged h := absurd rfl h

end

/-- With fewer or more than two amounts an entry stays as it is. -/
theorem completion_self {e : BalanceEntry} (h : e.known ≠ 2) : Completion e e where
  keeps_free := keeps_refl _
  keeps_used := keeps_refl _
  keeps_total := keeps_refl _
  derived htwo := absurd htwo h
  unchanged _ := rfl

/-- **Every entry is completed.** -/
theorem completion_complete (e : BalanceEntry) : Completion e e.complete := by
  obtain ⟨free, used, total⟩ := e
  rcases free with _ | f <;> rcases used with _ | u <;> rcases total with _ | t
  case some.some.none => exact completion_of_parts f u
  case some.none.some => exact completion_of_free f t
  case none.some.some => exact completion_of_used u t
  all_goals exact completion_self (by simp [known])

/-- **A completed entry is complete**, also where a result was out of range. -/
theorem complete_fixed (e : BalanceEntry) : e.complete.complete = e.complete := by
  obtain ⟨free, used, total⟩ := e
  rcases free with _ | f <;> rcases used with _ | u <;> rcases total with _ | t
  case some.some.none =>
    show complete ⟨some f, some u, f.add? u⟩ = _
    cases hsum : f.add? u <;> simp [complete, hsum]
  case some.none.some =>
    show complete ⟨some f, t.sub? f, some t⟩ = _
    cases hrest : t.sub? f <;> simp [complete, hrest]
  case none.some.some =>
    show complete ⟨t.sub? u, some u, some t⟩ = _
    cases hrest : t.sub? u <;> simp [complete, hrest]
  all_goals rfl

end BalanceEntry

namespace Balance

/-! ### What is given -/

/-- The entry has the amounts that stand in an object, as far as they read as decimals. -/
structure Amounts (v : Json) (e : BalanceEntry) : Prop where
  free : ∀ d, e.free = some d ↔ v.HasDecimal "free" d
  used : ∀ d, e.used = some d ↔ v.HasDecimal "used" d
  total : ∀ d, e.total = some d ↔ v.HasDecimal "total" d

theorem amounts_iff {v : Json} {e : BalanceEntry} : Amounts v e ↔
    e = ⟨v.getDecimal? "free", v.getDecimal? "used", v.getDecimal? "total"⟩ := by
  constructor
  · rintro ⟨hfree, hused, htotal⟩
    obtain ⟨free, used, total⟩ := e
    rw [BalanceEntry.mk.injEq]
    refine ⟨Option.ext fun d => ?_, Option.ext fun d => ?_, Option.ext fun d => ?_⟩
    · exact (hfree d).trans Json.getDecimal?_eq_some_iff.symm
    · exact (hused d).trans Json.getDecimal?_eq_some_iff.symm
    · exact (htotal d).trans Json.getDecimal?_eq_some_iff.symm
  · rintro rfl
    constructor
    all_goals exact fun d => Json.getDecimal?_eq_some_iff

/-- What a payload gives for a currency: the amounts in the object under its code, unless the code
is a reserved key. -/
def PayloadGives (raw : Json) (code : String) (e : BalanceEntry) : Prop :=
  code ∉ ["info", "free", "used", "total", "timestamp", "datetime"] ∧
    ∃ entries, raw.table.get? code = some (.obj entries) ∧ Amounts (.obj entries) e

/-- A change of a balance. -/
inductive Update where
  /-- A payload in place of all that was there. -/
  | parse (raw : Json)
  /-- An entry in place of that of its currency. -/
  | set (code : String) (entry : BalanceEntry)

/-- The balance after an update. -/
def Update.apply (b : Balance) : Update → Balance
  | .parse raw => .parse raw
  | .set code entry => b.set code entry

/-- What an update gives each currency, after what was given before. -/
def Update.Gives (before : String → BalanceEntry → Prop) : Update → String → BalanceEntry → Prop
  | .parse raw, code, e => PayloadGives raw code e
  | .set code entry, other, e => if other = code then e = entry else before other e

/-- The balance after a run of updates. -/
def run (updates : List Update) : Balance := updates.foldl Update.apply {}

/-- The run of updates gives a currency the entry, and no other after it. -/
def Given (updates : List Update) : String → BalanceEntry → Prop :=
  updates.foldl Update.Gives fun _ _ => False

/-- The entries of the balance are those that are given, completed. -/
def Stores (b : Balance) (given : String → BalanceEntry → Prop) : Prop :=
  ∀ code stored, b.get? code = some stored ↔ ∃ e, given code e ∧ stored = e.complete

theorem run_concat (updates : List Update) (u : Update) :
    run (updates ++ [u]) = u.apply (run updates) := by
  rw [run, List.foldl_append]
  rfl

/-! ### One update -/

theorem get?_set (b : Balance) (code other : String) (e : BalanceEntry) :
    (b.set code e).get? other = if other = code then some e.complete else b.get? other :=
  b.balances.get?_put code other e.complete

/-- The entries of a list are put under their codes and completed. -/
theorem get?_foldl_set {es : List (String × BalanceEntry)} (h : (es.map Prod.fst).Nodup)
    (b : Balance) (code : String) :
    (es.foldl (fun b e => b.set e.1 e.2) b).get? code
      = ((es.lookup code).map BalanceEntry.complete).or (b.get? code) := by
  induction es generalizing b with
  | nil => rfl
  | cons e es ih =>
    obtain ⟨code', entry⟩ := e
    rw [List.map_cons, List.nodup_cons] at h
    rw [List.foldl_cons, ih h.2, get?_set, SortedTable.lookup_cons_eq_ite]
    by_cases hcode : code = code'
    · subst hcode
      rw [Table.lookup_eq_none_of_notMem h.1, if_pos rfl, if_pos rfl]
      rfl
    · rw [if_neg hcode, if_neg hcode]

theorem readAmounts?_eq_some_iff {e : String × Json} {code : String} {entry : BalanceEntry} :
    readAmounts? e = some (code, entry) ↔ code ∉ reservedKeys ∧
      ∃ entries, e = (code, .obj entries) ∧ Amounts (.obj entries) entry := by
  obtain ⟨key, v⟩ := e
  cases v with
  | obj entries =>
    rw [readAmounts?]
    by_cases hreserved : key ∈ reservedKeys
    · rw [if_pos (List.contains_iff_mem.2 hreserved)]
      refine iff_of_false nofun ?_
      rintro ⟨hnot, _, ⟨⟩, -⟩
      exact hnot hreserved
    · rw [if_neg (mt List.contains_iff_mem.1 hreserved), Option.some.injEq, Prod.mk.injEq]
      constructor
      · rintro ⟨rfl, rfl⟩
        exact ⟨hreserved, entries, rfl, amounts_iff.2 rfl⟩
      · rintro ⟨-, _, ⟨⟩, hamounts⟩
        exact ⟨rfl, (amounts_iff.1 hamounts).symm⟩
  | _ => exact iff_of_false nofun (by rintro ⟨-, _, ⟨⟩, -⟩)

/-- Entries that are read keep their keys. -/
theorem sublist_map_fst_readAmounts (l : List (String × Json)) :
    ((l.filterMap readAmounts?).map Prod.fst).Sublist (l.map Prod.fst) := by
  induction l with
  | nil => exact .slnil
  | cons e l ih =>
    rw [List.map_cons]
    cases hread : readAmounts? e with
    | none =>
      rw [List.filterMap_cons_none hread]
      exact ih.cons _
    | some read =>
      obtain ⟨-, entries, rfl, -⟩ := readAmounts?_eq_some_iff.1 hread
      rw [List.filterMap_cons_some hread, List.map_cons]
      exact ih.cons_cons _

/-- **A payload** is read as the entries that it gives, each completed. -/
theorem stores_parse (raw : Json) : (parse raw).Stores (PayloadGives raw) := by
  intro code stored
  have hdistinct := (sublist_map_fst_readAmounts raw.table.entries).nodup raw.table.distinct
  have hlookup : ∀ e, (raw.table.entries.filterMap readAmounts?).lookup code = some e ↔
      PayloadGives raw code e := by
    intro e
    rw [Table.lookup_eq_some_iff_mem hdistinct, List.mem_filterMap]
    simp only [readAmounts?_eq_some_iff]
    constructor
    · rintro ⟨_, hmem, hnot, entries, rfl, hamounts⟩
      exact ⟨hnot, entries, (Table.mem_entries _).1 hmem, hamounts⟩
    · rintro ⟨hnot, entries, hget, hamounts⟩
      exact ⟨_, (Table.mem_entries _).2 hget, hnot, entries, rfl, hamounts⟩
  have hnone : ({ info := (raw.at? "info").getD .null } : Balance).get? code = none := rfl
  rw [parse, get?_foldl_set hdistinct, hnone, Option.or_none, Option.map_eq_some_iff]
  simp only [hlookup, eq_comm]

/-- **What an update does**: if the stored entries are the given ones, completed, they are so after
it. -/
theorem stores_apply {b : Balance} {given : String → BalanceEntry → Prop} (h : b.Stores given)
    (u : Update) : (u.apply b).Stores (u.Gives given) := by
  cases u with
  | parse raw => exact stores_parse raw
  | set other entry =>
    intro code stored
    show (b.set other entry).get? code = some stored ↔
      ∃ e, (if code = other then e = entry else given code e) ∧ stored = e.complete
    rw [get?_set]
    by_cases hcode : code = other
    · simp [hcode, eq_comm]
    · simpa [hcode] using h code stored

/-! ### A run of updates -/

/-- **What is stored after a run** is what was given last, completed. -/
theorem stores_run (updates : List Update) : (run updates).Stores (Given updates) := by
  induction updates using List.reverseRecOn with
  | nil =>
    intro code stored
    refine iff_of_false nofun ?_
    rintro ⟨e, hgiven, -⟩
    exact hgiven
  | append_singleton updates u ih =>
    rw [run_concat, Given, List.foldl_append]
    exact stores_apply ih u

/-- The balance holds what the updates gave, completed. -/
structure Truthful (updates : List Update) (b : Balance) : Prop where
  /-- The currencies are those that were given. -/
  stored_iff : ∀ code, (∃ stored, b.get? code = some stored) ↔ ∃ e, Given updates code e
  /-- Every entry is the completion of the one that was given last ... -/
  completion : ∀ code stored, b.get? code = some stored →
    ∃ e, Given updates code e ∧ e.Completion stored
  /-- ... to which another completion adds nothing. -/
  fixed : ∀ code stored, b.get? code = some stored → stored.complete = stored

theorem truthful_run (updates : List Update) : Truthful updates (run updates) where
  stored_iff code := by
    constructor
    · rintro ⟨stored, h⟩
      obtain ⟨e, he, -⟩ := (stores_run updates code stored).1 h
      exact ⟨e, he⟩
    · rintro ⟨e, he⟩
      exact ⟨e.complete, (stores_run updates code _).2 ⟨e, he, rfl⟩⟩
  completion code stored h := by
    obtain ⟨e, he, rfl⟩ := (stores_run updates code stored).1 h
    exact ⟨e, he, e.completion_complete⟩
  fixed code stored h := by
    obtain ⟨e, -, rfl⟩ := (stores_run updates code stored).1 h
    exact e.complete_fixed

/-- **Balances stay complete and truthful** over every run of updates. A payload leaves the
currencies of its objects, but for the reserved keys, each with the amounts that can be read there;
an entry leaves all other currencies alone. -/
theorem run_truthful (updates : List Update) :
    Truthful updates (run updates) ∧
    (∀ raw code stored, (run (updates ++ [.parse raw])).get? code = some stored ↔
      code ∉ ["info", "free", "used", "total", "timestamp", "datetime"] ∧
        ∃ entries, raw.table.get? code = some (.obj entries) ∧
          ∃ e, Amounts (.obj entries) e ∧ stored = e.complete) ∧
    ∀ code entry, (run (updates ++ [.set code entry])).get? code = some entry.complete ∧
      ∀ other, other ≠ code →
        (run (updates ++ [.set code entry])).get? other = (run updates).get? other := by
  refine ⟨truthful_run updates, fun raw code stored => ?_, fun code entry => ⟨?_, ?_⟩⟩
  · rw [run_concat]
    show (parse raw).get? code = some stored ↔ _
    rw [stores_parse raw code stored]
    constructor
    · rintro ⟨e, ⟨hnot, entries, hget, hamounts⟩, rfl⟩
      exact ⟨hnot, entries, hget, e, hamounts, rfl⟩
    · rintro ⟨hnot, entries, hget, e, hamounts, rfl⟩
      exact ⟨e, ⟨hnot, entries, hget, hamounts⟩, rfl⟩
  · rw [run_concat]
    exact (get?_set _ _ _ _).trans (if_pos rfl)
  · intro other hne
    rw [run_concat]
    exact (get?_set _ _ _ _).trans (if_neg hne)

/-- The largest decimal leaves no room for a total, and a total without a free amount gives one. -/
example : (run [.set "BTC" ⟨some ⟨false, twoTo 96 - 1, 0, by decide, by decide⟩, some .one, none⟩,
    .set "ETH" ⟨none, some .one, some (.ofWord 5)⟩]).balances.entries
      = [("BTC", ⟨some ⟨false, twoTo 96 - 1, 0, by decide, by decide⟩, some .one, none⟩),
        ("ETH", ⟨some (.ofWord 4), some .one, some (.ofWord 5)⟩)] := by decide +kernel

end Balance

end Bourse
