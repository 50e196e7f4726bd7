/-! # Tables in order of their keys

A sorted table binds texts to values and lists its entries by strictly ascending key, whatever the
order in which they were put. -/

namespace Bourse

/-- Entries by strictly ascending key. -/
structure SortedTable (α : Type) where
  entries : List (String × α)
  ascending : entries.Pairwise fun a b => a.1 < b.1

namespace SortedTable

variable {α : Type}

/-- Puts a value into ascending entries at the place of its key. -/
def putEntry (key : String) (value : α) : List (String × α) → List (String × α)
  | [] => [(key, value)]
  | (k, v) :: rest =>
    if key < k then (key, value) :: (k, v) :: rest
    else if k = key then (k, value) :: rest
    else (k, v) :: putEntry key value rest

theorem key_of_mem_putEntry {key : String} {value : α} {l : List (String × α)} {e : String × α}
    (h : e ∈ putEntry key value l) : e.1 = key ∨ ∃ e' ∈ l, e'.1 = e.1 := by
  induction l with
  | nil =>
    rw [putEntry, List.mem_singleton] at h
    exact .inl (h ▸ rfl)
  | cons d l ih =>
    obtain ⟨k, v⟩ := d
    rw [putEntry] at h
    split at h
    · rcases List.mem_cons.1 h with rfl | h
      · exact .inl rfl
      · exact .inr ⟨e, h, rfl⟩
    · split at h
      · rename_i hk
        rcases List.mem_cons.1 h with rfl | h
        · exact .inl hk
        · exact .inr ⟨e, List.mem_cons_of_mem _ h, rfl⟩
      · rcases List.mem_cons.1 h with rfl | h
        · exact .inr ⟨_, List.mem_cons_self, rfl⟩
        · rcases ih h with h | ⟨e', he', heq⟩
          · exact .inl h
          · exact .inr ⟨e', List.mem_cons_of_mem _ he', heq⟩

theorem pairwise_putEntry (key : String) (value : α) {l : List (String × α)}
    (h : l.Pairwise fun a b => a.1 < b.1) :
    (putEntry key value l).Pairwise fun a b => a.1 < b.1 := by
  induction l with
  | nil => simp [putEntry]
  | cons d l ih =>
    obtain ⟨k, v⟩ := d
    rw [List.pairwise_cons] at h
    rw [putEntry]
    split
    · rename_i hlt
      refine List.pairwise_cons.2 ⟨?_, List.pairwise_cons.2 h⟩
      intro e he
      rcases List.mem_cons.1 he with rfl | he
      · exact hlt
      · exact String.lt_trans hlt (h.1 e he)
    · rename_i hge
      split
      · exact List.pairwise_cons.2 ⟨h.1, h.2⟩
      · rename_i hne
        refine List.pairwise_cons.2 ⟨?_, ih h.2⟩
        intro e he
        have hkey : k < key := by
          rcases Decidable.em (k < key) with hlt | hnot
          · exact hlt
          · exact absurd (String.le_antisymm (String.not_lt.1 hge) (String.not_lt.1 hnot)) hne
        rcases key_of_mem_putEntry he with heq | ⟨e', he', heq⟩
        · exact heq ▸ hkey
        · exact heq ▸ h.1 e' he'

/-- The table without entries. -/
def empty : SortedTable α := ⟨[], .nil⟩

instance : EmptyCollection (SortedTable α) := ⟨empty⟩
instance : Inhabited (SortedTable α) := ⟨empty⟩

/-- The value under a key. -/
def get? (t : SortedTable α) (key : String) : Option α := t.entries.lookup key

/-- Puts a value under a key. -/
def put (t : SortedTable α) (key : String) (value : α) : SortedTable α :=
  ⟨putEntry key value t.entries, pairwise_putEntry key value t.ascending⟩

/-- The table that a list of entries describes; the last value of a key wins. -/
def ofList (es : List (String × α)) : SortedTable α :=
  es.foldl (fun t e => t.put e.1 e.2) empty

/-- The keys in order. -/
def keys (t : SortedTable α) : List String := t.entries.map Prod.fst

end SortedTable

end Bourse
