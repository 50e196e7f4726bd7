import Bourse.Binance.Venue
import Bourse.Okx.Venue
import Bourse.Proofs.Result
import Bourse.Proofs.Table
import Bourse.Venue.Endpoint
import Mathlib.Data.Set.Function

/-! # Which endpoint a name leads to

The name of an endpoint is made of its tier, its method and the words of its path. What separates
the words is dropped, so that paths that differ in their separators only have one name
(`nameOf_eq_of_separators`). A name leads to the last endpoint of the catalogue that has it, and
every entry is found by its name exactly if no two entries share one (`addresses_ofDescription`). In
the catalogues of both venues no two do. -/

namespace Bourse

namespace Endpoint

/-! ### Names -/

/-- Separators are dropped and begin a new word. -/
theorem camelFrom_separators {s : List Char} (hs : ∀ c ∈ s, isWordChar c = false) (hne : s ≠ [])
    (start : Bool) (q : List Char) : camelFrom start (s ++ q) = camelFrom true q := by
  induction s generalizing start with
  | nil => exact absurd rfl hne
  | cons c s ih =>
    rw [List.cons_append, camelFrom, hs c List.mem_cons_self]
    by_cases hnil : s = []
    · rw [hnil]
      rfl
    · exact ih (fun d hd => hs d (List.mem_cons_of_mem _ hd)) hnil true

theorem camelFrom_append_separators {s : List Char} (hs : ∀ c ∈ s, isWordChar c = false)
    (hne : s ≠ []) (start : Bool) (p q : List Char) :
    camelFrom start (p ++ (s ++ q)) = camelFrom start p ++ camelFrom true q := by
  induction p generalizing start with
  | nil => exact camelFrom_separators hs hne start q
  | cons c p ih =>
    rw [List.cons_append, camelFrom, camelFrom]
    split
    · rw [ih false, List.cons_append]
    · exact ih true

/-- **Separators make no difference to a name.** -/
theorem nameOf_eq_of_separators (tier : String) (method : HttpMethod) {s s' : List Char}
    (hs : ∀ c ∈ s, isWordChar c = false) (hne : s ≠ []) (hs' : ∀ c ∈ s', isWordChar c = false)
    (hne' : s' ≠ []) (p q : List Char) :
    nameOf tier method (String.ofList (p ++ (s ++ q)))
      = nameOf tier method (String.ofList (p ++ (s' ++ q))) := by
  unfold nameOf
  rw [String.toList_ofList, String.toList_ofList, camelFrom_append_separators hs hne,
    camelFrom_append_separators hs' hne']

end Endpoint

namespace EndpointTable

open Endpoint

variable {d : Description} {name : String} {e : Endpoint}

/-! ### The entries of a catalogue -/

theorem mem_listed :
    e ∈ listed d ↔ ∃ c ∈ d.catalogue, ∃ path ∈ c.paths, e = .of c.tier c.method path := by
  simp only [listed, List.mem_flatMap, List.mem_map, eq_comm]

theorem of_mem_listed {c : CatalogueEntry} (hc : c ∈ d.catalogue) {path : String}
    (hpath : path ∈ c.paths) : Endpoint.of c.tier c.method path ∈ listed d :=
  mem_listed.2 ⟨c, hc, path, hpath, rfl⟩

/-- No two entries of the catalogue share a name. -/
def NamesDiffer (d : Description) : Prop := Set.InjOn Endpoint.name {e | e ∈ listed d}

/-- No two entries share a name if no name is listed twice. -/
theorem namesDiffer_of_nodup (h : ((listed d).map Endpoint.name).Nodup) : NamesDiffer d :=
  fun _ he _ hf hname => List.inj_on_of_nodup_map h he hf hname

/-! ### Looking up -/

/-- **A name leads to the last endpoint** that has it. -/
theorem resolve_ofDescription_iff :
    (ofDescription d).resolve name = .ok e ↔ Table.LastWith Endpoint.name name (listed d) e := by
  rw [resolve, require_eq_ok_iff]
  exact Table.get?_ofList_map _ _

theorem mem_names : name ∈ (ofDescription d).names ↔ ∃ e ∈ listed d, e.name = name := by
  rw [names, Table.mem_keys_sorted, Table.mem_keys]
  constructor
  · rintro ⟨e, he⟩
    exact ⟨e, ((Table.get?_ofList_map _ _).1 he).mem⟩
  · rintro ⟨e, he, hname⟩
    obtain ⟨last, hlast⟩ := Table.exists_lastWith he hname
    exact ⟨last, (Table.get?_ofList_map _ _).2 hlast⟩

theorem resolve_of_notMem (h : name ∉ (ofDescription d).names) :
    (ofDescription d).resolve name
      = .error (.internal ("Undefined endpoint \"" ++ name ++ "\"")) := by
  have hnone : (ofDescription d).get? name = none := by
    rw [Option.eq_none_iff_forall_ne_some]
    intro e he
    exact h (mem_names.2 ⟨e, ((Table.get?_ofList_map _ _).1 he).mem⟩)
  rw [resolve, hnone]
  rfl

/-- An entry whose name no other entry has is found. -/
theorem resolve_of_unshared (he : e ∈ listed d) (h : ∀ f ∈ listed d, f.name = e.name → f = e) :
    (ofDescription d).resolve e.name = .ok e := by
  obtain ⟨last, hlast⟩ := Table.exists_lastWith he rfl
  rw [resolve_ofDescription_iff]
  exact h last hlast.mem.1 hlast.mem.2 ▸ hlast

/-- **All entries are found** exactly if no two of them share a name. -/
theorem forall_resolve_iff :
    (∀ e ∈ listed d, (ofDescription d).resolve e.name = .ok e) ↔ NamesDiffer d := by
  constructor
  · intro hall e he f hf hname
    have hsame := hall f hf
    rw [← hname, hall e he] at hsame
    exact Except.ok.inj hsame
  · exact fun hdiffer e he => resolve_of_unshared he fun f hf hname => hdiffer hf he hname

theorem bijOn_names_iff :
    Set.BijOn Endpoint.name {e | e ∈ listed d} {name | name ∈ (ofDescription d).names} ↔
      NamesDiffer d := by
  constructor
  · exact Set.BijOn.injOn
  · intro hdiffer
    refine ⟨fun e he => mem_names.2 ⟨e, he, rfl⟩, hdiffer, fun name hname => ?_⟩
    obtain ⟨e, he, rfl⟩ := mem_names.1 hname
    exact ⟨e, he, rfl⟩

/-! ### What a table addresses -/

/-- How the names of a table lead to the entries of a catalogue. -/
structure Addresses (d : Description) (t : EndpointTable) : Prop where
  /-- A name leads to the last endpoint of the catalogue that has it ... -/
  last : ∀ name e, t.resolve name = .ok e ↔ Table.LastWith Endpoint.name name (listed d) e
  /-- ... so that an entry is found if no other one has its name ... -/
  unshared : ∀ c ∈ d.catalogue, ∀ path ∈ c.paths,
    (∀ f ∈ listed d, f.name = nameOf c.tier c.method path → f = .of c.tier c.method path) →
    t.resolve (nameOf c.tier c.method path) = .ok (.of c.tier c.method path)
  /-- ... and all entries are found exactly if no two of them share a name. -/
  all_iff : (∀ c ∈ d.catalogue, ∀ path ∈ c.paths,
    t.resolve (nameOf c.tier c.method path) = .ok (.of c.tier c.method path)) ↔ NamesDiffer d
  ascending : t.names.Pairwise (· < ·)
  /-- The names are those of the entries ... -/
  mem_names : ∀ name, name ∈ t.names ↔ ∃ e ∈ listed d, e.name = name
  /-- ... and as many as these exactly if no two of them share a name. -/
  bijOn_iff : Set.BijOn Endpoint.name {e | e ∈ listed d} {name | name ∈ t.names} ↔ NamesDiffer d
  /-- Any other name is a fault of the library. -/
  unknown : ∀ name, name ∉ t.names →
    t.resolve name = .error (.internal ("Undefined endpoint \"" ++ name ++ "\""))

/-- **The table of every catalogue** leads from a name to the last entry that has it. -/
theorem addresses_ofDescription (d : Description) : Addresses d (ofDescription d) where
  last _ _ := resolve_ofDescription_iff
  unshared c hc path hpath h := resolve_of_unshared (of_mem_listed hc hpath) h
  all_iff := by
    rw [← forall_resolve_iff]
    constructor
    · intro hall e he
      obtain ⟨c, hc, path, hpath, rfl⟩ := mem_listed.1 he
      exact hall c hc path hpath
    · exact fun hall c hc path hpath => hall _ (of_mem_listed hc hpath)
  ascending := Table.ascending_keys_sorted _
  mem_names _ := mem_names
  bijOn_iff := bijOn_names_iff
  unknown _ := resolve_of_notMem

/-- A catalogue with two paths of the same words. -/
def batchPaths : Description where
  id := "demo"
  name := "Demo"
  catalogue := [⟨"private", .post, ["trade/batch-orders", "trade/batch/orders"]⟩]

/-- **An entry may be out of reach**: the name of the first path leads to the second one. -/
theorem name_leads_elsewhere :
    batchPaths.catalogue = [⟨"private", .post, ["trade/batch-orders", "trade/batch/orders"]⟩] ∧
      (ofDescription batchPaths).resolve (nameOf "private" .post "trade/batch-orders")
        = .ok (.of "private" .post "trade/batch/orders") ∧
      "trade/batch/orders" ≠ "trade/batch-orders" := by
  refine ⟨rfl, ?_, by decide⟩
  have hdash : "trade/batch-orders"
      = String.ofList ("trade/batch".toList ++ (['-'] ++ "orders".toList)) := by decide +kernel
  have hslash : "trade/batch/orders"
      = String.ofList ("trade/batch".toList ++ (['/'] ++ "orders".toList)) := by decide +kernel
  have hname : nameOf "private" .post "trade/batch-orders"
      = nameOf "private" .post "trade/batch/orders" := by
    rw [hdash, hslash]
    exact nameOf_eq_of_separators _ _ (List.forall_mem_singleton.2 rfl) (List.cons_ne_nil _ _)
      (List.forall_mem_singleton.2 rfl) (List.cons_ne_nil _ _) _ _
  rw [hname, resolve_ofDescription_iff]
  exact ⟨[.of "private" .post "trade/batch-orders"], [], rfl, rfl, nofun⟩

/-! ### The catalogues of the venues -/

/-- **Everything that Binance lists** is found by its name. -/
theorem resolve_binance :
    ∀ e ∈ listed Binance.description, (ofDescription Binance.description).resolve e.name = .ok e :=
  forall_resolve_iff.2 (namesDiffer_of_nodup (by decide +kernel))

/-- **Everything that OKX lists** is found by its name. -/
theorem resolve_okx :
    ∀ e ∈ listed Okx.description, (ofDescription Okx.description).resolve e.name = .ok e :=
  forall_resolve_iff.2 (namesDiffer_of_nodup (by decide +kernel))

end EndpointTable

end Bourse
