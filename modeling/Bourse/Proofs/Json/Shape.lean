import Bourse.Json.Shape
import Bourse.Proofs.Json.Fields
import Bourse.Proofs.Table

/-! # Objects and records

An object is a table of its entries (`table_ofTable`). Combining objects and leaving keys out of one
are therefore described by what is found under each key and by the order of the keys: `Combines`
determines the combination (`Combines.unique`), from which its laws follow, and `LeavesOut` says
that nothing but the given keys is lost, although every removal moves the last entry.

An index of records has them under their texts at a key. It is the table of the pairs of a text and
its record (`Labelled`, `indexBy_eq_ofList`), so that the first record with a text gives the place
and the last one the content. -/

namespace Bourse.Json

/-! ### Objects -/

theorem table_ofTable (t : Table Json) : (ofTable t).table = t := t.ofList_entries

/-- The table `t` has the entries of `a` and of `b`, where both have a key that of `b`. -/
structure Combines (a b t : Table Json) : Prop where
  get? : ∀ key, t.get? key = (b.get? key).or (a.get? key)
  /-- The keys of `a` stay in front, in their order, and the new ones follow in theirs. -/
  keys : t.keys = a.keys ++ b.keys.filter (· ∉ a.keys)
  distinct : t.keys.Nodup

/-- The table `t` has the entries of `a` but for those under some keys, in any order. -/
structure LeavesOut (a : Table Json) (keys : List String) (t : Table Json) : Prop where
  entries : t.entries.Perm (a.entries.filter fun e => e.1 ∉ keys)
  get? : ∀ key, t.get? key = if key ∈ keys then none else a.get? key
  distinct : t.keys.Nodup

theorem Combines.unique {a b t u : Table Json} (ht : Combines a b t) (hu : Combines a b u) :
    t = u :=
  Table.ext_of_get? (ht.keys.trans hu.keys.symm) fun key => (ht.get? key).trans (hu.get? key).symm

theorem combines_extend (a b : Table Json) :
    Combines a b (extend (ofTable a) (ofTable b)) := by
  unfold extend
  rw [table_ofTable, table_ofTable]
  exact ⟨a.get?_putAll b.distinct, a.keys_putAll b.distinct, Table.distinct _⟩

theorem leavesOut_without (a : Table Json) (keys : List String) :
    LeavesOut a keys (without (ofTable a) keys) := by
  unfold without
  rw [table_ofTable]
  exact ⟨a.entries_foldl_erase keys, a.get?_foldl_erase keys, Table.distinct _⟩

/-! ### Laws of combining -/

/-- Combining with a combination is combining with one part after the other. -/
theorem Combines.assoc {a b c ab bc t : Table Json} (hab : Combines a b ab)
    (hbc : Combines b c bc) (ht : Combines ab c t) : Combines a bc t where
  get? key := by rw [ht.get?, hab.get?, hbc.get?, Option.or_assoc]
  keys := by
    have hnew : c.keys.filter (· ∉ ab.keys) = (c.keys.filter (· ∉ b.keys)).filter (· ∉ a.keys) := by
      rw [List.filter_filter]
      refine List.filter_congr fun key _ => ?_
      rw [hab.keys, Bool.eq_iff_iff]
      simp only [decide_eq_true_eq, Bool.and_eq_true, List.mem_append, List.mem_filter]
      tauto
    rw [ht.keys, hnew, hab.keys, hbc.keys, List.filter_append, List.append_assoc]
  distinct := ht.distinct

theorem combines_self (a : Table Json) : Combines a a a where
  get? key := Option.or_self.symm
  keys := by
    have hnone : a.keys.filter (· ∉ a.keys) = [] := by simp
    rw [hnone, List.append_nil]
  distinct := a.distinct

theorem extend_assoc (a b c : Table Json) :
    extend (ofTable (extend (ofTable a) (ofTable b))) (ofTable c)
      = extend (ofTable a) (ofTable (extend (ofTable b) (ofTable c))) :=
  ((combines_extend a b).assoc (combines_extend b c) (combines_extend _ c)).unique
    (combines_extend a _)

theorem extend_self (a : Table Json) : extend (ofTable a) (ofTable a) = a :=
  (combines_extend a a).unique (combines_self a)

/-- Without the keys of the second object nothing is left of it. -/
theorem get?_without_extend (a b : Table Json) (key : String) :
    (without (ofTable (extend (ofTable a) (ofTable b))) b.keys).get? key
      = (without (ofTable a) b.keys).get? key := by
  rw [(leavesOut_without _ _).get?, (leavesOut_without _ _).get?]
  by_cases hkey : key ∈ b.keys
  · rw [if_pos hkey, if_pos hkey]
  · have hnone : b.get? key = none := Table.lookup_eq_none_of_notMem hkey
    rw [if_neg hkey, if_neg hkey, (combines_extend a b).get?, hnone, Option.none_or]

/-- **Combining and leaving out lose nothing.** A combination has what the second object has under a
key and else what the first has, in the order of the first and then of the second; what remains
without some keys are the entries under all others. Combining is associative and idempotent even in
its order, and what an object added is gone without its keys. -/
theorem entries_survive (a b c : Table Json) (keys : List String) :
    Combines a b (extend (ofTable a) (ofTable b)) ∧
    LeavesOut a keys (without (ofTable a) keys) ∧
    extend (ofTable (extend (ofTable a) (ofTable b))) (ofTable c)
      = extend (ofTable a) (ofTable (extend (ofTable b) (ofTable c))) ∧
    extend (ofTable a) (ofTable a) = a ∧
    extend (ofTable (extend (ofTable a) (ofTable b))) (ofTable b)
      = extend (ofTable a) (ofTable b) ∧
    ∀ key, (without (ofTable (extend (ofTable a) (ofTable b))) b.keys).get? key
      = (without (ofTable a) b.keys).get? key := by
  refine ⟨combines_extend a b, leavesOut_without a keys, extend_assoc a b c, extend_self a, ?_,
    get?_without_extend a b⟩
  rw [extend_assoc, extend_self]

/-- The last entry moves into the gap, and is found there when its turn comes. -/
example : (without (.obj [("a", .null), ("b", .null), ("c", .null), ("d", .null)])
    ["a", "x", "a", "d"]).keys = ["c", "b"] := by decide

/-! ### Records -/

/-- The records in a value are the elements of a list or the values of an object; nothing else has
any. -/
inductive Holds : Json → List Json → Prop
  | list (items : List Json) : Holds (.arr items) items
  | object (entries : List (String × Json)) : Holds (.obj entries) (entries.map Prod.snd)
  | other {v : Json} : (∀ items, v ≠ .arr items) → (∀ entries, v ≠ .obj entries) → Holds v []

theorem holds_records (v : Json) : Holds v v.records := by
  cases v with
  | arr items => exact .list items
  | obj entries => exact .object entries
  | _ => exact .other nofun nofun

/-- The records that have a text at `key`, each with its text and in their order. -/
inductive Labelled (key : String) : List Json → List (String × Json) → Prop
  | nil : Labelled key [] []
  | record {id : String} {r : Json} {rs : List Json} {pairs : List (String × Json)} :
      HasText key id r → Labelled key rs pairs → Labelled key (r :: rs) ((id, r) :: pairs)
  | other {r : Json} {rs : List Json} {pairs : List (String × Json)} :
      (∀ id, ¬ HasText key id r) → Labelled key rs pairs → Labelled key (r :: rs) pairs

/-- The record with its text at `key`, if it has one. -/
def label? (key : String) (r : Json) : Option (String × Json) :=
  (r.getText? key).map fun id => (id, r)

theorem labelled_filterMap (key : String) (rs : List Json) :
    Labelled key rs (rs.filterMap (label? key)) := by
  induction rs with
  | nil => exact .nil
  | cons r rs ih =>
    cases htext : r.getText? key with
    | none =>
      have hnone : label? key r = none := by rw [label?, htext, Option.map_none]
      rw [List.filterMap_cons_none hnone]
      exact .other (getText?_eq_none_iff.1 htext) ih
    | some id =>
      have hsome : label? key r = some (id, r) := by rw [label?, htext, Option.map_some]
      rw [List.filterMap_cons_some hsome]
      exact .record (getText?_eq_some_iff.1 htext) ih

theorem Labelled.filterMap_eq {key : String} {rs : List Json} {pairs : List (String × Json)}
    (h : Labelled key rs pairs) : rs.filterMap (label? key) = pairs := by
  induction h with
  | nil => rfl
  | record htext _ ih =>
    rw [List.filterMap_cons, label?, getText?_eq_some_iff.2 htext, ih]
    rfl
  | other hnone _ ih =>
    rw [List.filterMap_cons, label?, getText?_eq_none_iff.2 hnone, ih]
    rfl

/-- The records that have a text all have one. -/
theorem Labelled.map_snd {key : String} {rs : List Json} {pairs : List (String × Json)}
    (h : Labelled key rs pairs) : Labelled key (pairs.map Prod.snd) pairs := by
  induction h with
  | nil => exact .nil
  | record htext _ ih => exact .record htext ih
  | other _ _ ih => exact ih

/-- **An index** is the table of the pairs of a text and its record. -/
theorem indexBy_eq_ofList (v : Json) (key : String) :
    indexBy v key = .ofList (v.records.filterMap (label? key)) := by
  unfold indexBy Table.ofList Table.putAll
  rw [List.foldl_filterMap]
  congr 1
  funext t r
  rw [label?]
  cases r.getText? key <;> rfl

/-- The table `t` has the records of `v` under their texts at `key`. -/
structure IsIndex (v : Json) (key : String) (t : Table Json) : Prop where
  records : Holds v v.records
  /-- The keys are the texts, in the order of their first appearance, and the records without a text
  make no difference. -/
  labelled : ∃ pairs, Labelled key v.records pairs ∧ t.keys = (pairs.map Prod.fst).eraseDups ∧
    indexBy (.arr (pairs.map Prod.snd)) key = t
  mem_keys : ∀ id, id ∈ t.keys ↔ ∃ r ∈ v.records, HasText key id r
  /-- Under each stands the last record with that text. -/
  last : ∀ id r, t.get? id = some r ↔ Table.LastThat (HasText key id) v.records r
  /-- What is neither a list nor an object has no records. -/
  no_records : (∀ items, v ≠ .arr items) → (∀ entries, v ≠ .obj entries) → t = .empty

/-- **An index keeps the last record for each text**, in the place of the first, whatever spelling
of the text the records have. -/
theorem isIndex_indexBy (v : Json) (key : String) : IsIndex v key (indexBy v key) := by
  constructor
  case records => exact holds_records v
  case labelled =>
    have hlabelled := labelled_filterMap key v.records
    refine ⟨_, hlabelled, ?_, ?_⟩
    · rw [indexBy_eq_ofList, Table.keys_ofList]
    · rw [indexBy_eq_ofList, records, hlabelled.map_snd.filterMap_eq, indexBy_eq_ofList]
  case mem_keys =>
    intro id
    rw [indexBy_eq_ofList, Table.keys_ofList, List.mem_eraseDups, List.map_filterMap,
      List.mem_filterMap]
    simp only [label?, Option.map_map, Function.comp_def, Option.map_id', getText?_eq_some_iff]
  case last =>
    intro id r
    rw [indexBy_eq_ofList]
    refine (Table.get?_ofList_filterMap (fun r => r.getText? key) v.records).trans ?_
    simp only [getText?_eq_some_iff]
  case no_records =>
    intro hlist hobject
    cases v with
    | arr items => exact absurd rfl (hlist items)
    | obj entries => exact absurd rfl (hobject entries)
    | _ => rfl

/-- A number and a text share an entry; null and a record without the key have none. -/
example : ((indexBy (.arr [.obj [("id", .str "1"), ("v", .null)], .obj [("id", .null)],
    .obj [("id", .str "2")], .obj [("v", .bool true)], .obj [("id", .ofInt 1)]]) "id").keys
      = ["1", "2"]) := by decide

end Bourse.Json
