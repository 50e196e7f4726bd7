import Bourse.SortedTable
import Mathlib.Tactic

/-! # Tables that are filled in order

Entries that are put in the order of their keys come to stand one behind the other
(`entries_foldl_put`), and so ascending entries are those of their table (`entries_ofList`). In
whatever order they are put, a key has the value that was put under it last (`get?_put`). -/

namespace Bourse.SortedTable

variable {α β : Type}

theorem ext {t u : SortedTable α} (h : t.entries = u.entries) : t = u := by
  cases t
  cases u
  cases h
  rfl

theorem lookup_cons_eq_ite (key k : String) (value : α) (l : List (String × α)) :
    ((key, value) :: l).lookup k = if k = key then some value else l.lookup k := by
  rw [List.lookup_cons]
  by_cases h : k = key
  · rw [if_pos h, h, beq_self_eq_true]
  · rw [if_neg h, beq_eq_false_iff_ne.2 h]

theorem lookup_putEntry (key k : String) (value : α) (l : List (String × α)) :
    (putEntry key value l).lookup k = if k = key then some value else l.lookup k := by
  induction l with
  | nil => exact lookup_cons_eq_ite key k value []
  | cons d l ih =>
    obtain ⟨k', v⟩ := d
    rw [putEntry]
    by_cases hlt : key < k'
    · rw [if_pos hlt]
      exact lookup_cons_eq_ite key k value _
    · rw [if_neg hlt]
      by_cases hkey : k' = key
      · subst hkey
        rw [if_pos rfl, lookup_cons_eq_ite, lookup_cons_eq_ite]
        split_ifs <;> rfl
      · rw [if_neg hkey, lookup_cons_eq_ite, lookup_cons_eq_ite, ih]
        by_cases hk : k = k'
        · rw [if_pos hk, if_pos hk, if_neg fun hput => hkey (hk.symm.trans hput)]
        · rw [if_neg hk, if_neg hk]

/-- **Putting** changes what is under one key. -/
theorem get?_put (t : SortedTable α) (key k : String) (value : α) :
    (t.put key value).get? k = if k = key then some value else t.get? k :=
  lookup_putEntry key k value t.entries

theorem putEntry_of_forall_lt {key : String} (value : α) {l : List (String × α)}
    (h : ∀ e ∈ l, e.1 < key) : putEntry key value l = l ++ [(key, value)] := by
  induction l with
  | nil => rfl
  | cons d l ih =>
    obtain ⟨k, v⟩ := d
    have hk : k < key := h (k, v) List.mem_cons_self
    rw [putEntry, if_neg (String.lt_asymm hk), if_neg (by rintro rfl; exact String.lt_irrefl k hk),
      ih fun e he => h e (List.mem_cons_of_mem _ he)]
    rfl

theorem entries_foldl_put {es : List (String × α)} {t : SortedTable α}
    (h : (t.entries ++ es).Pairwise fun a b => a.1 < b.1) :
    (es.foldl (fun t e => t.put e.1 e.2) t).entries = t.entries ++ es := by
  induction es generalizing t with
  | nil => simp
  | cons e es ih =>
    have hlt : ∀ d ∈ t.entries, d.1 < e.1 := fun d hd =>
      (List.pairwise_append.1 h).2.2 d hd e List.mem_cons_self
    have hput : (t.put e.1 e.2).entries = t.entries ++ [e] := putEntry_of_forall_lt e.2 hlt
    rw [List.foldl_cons, ih]
    · rw [hput, List.append_assoc]
      rfl
    · rw [hput, List.append_assoc]
      exact h

/-- **Ascending entries are those of their table.** -/
theorem entries_ofList {es : List (String × α)} (h : es.Pairwise fun a b => a.1 < b.1) :
    (ofList es).entries = es :=
  entries_foldl_put h

theorem pairwise_map_entries (f : α → β) (t : SortedTable α) :
    (t.entries.map fun e => (e.1, f e.2)).Pairwise fun a b => a.1 < b.1 :=
  List.pairwise_map.2 t.ascending

/-- The table with each value replaced by its image. -/
def map (f : α → β) (t : SortedTable α) : SortedTable β :=
  ⟨t.entries.map fun e => (e.1, f e.2), pairwise_map_entries f t⟩

theorem ofList_map_entries (f : α → β) (t : SortedTable α) :
    ofList (t.entries.map fun e => (e.1, f e.2)) = t.map f :=
  ext (entries_ofList (pairwise_map_entries f t))

end Bourse.SortedTable
