/-! # Tables in order of arrival

A table binds texts to values and keeps its entries in the order in which the keys arrived. Putting
a value under a present key replaces it in its place. Erasing a key moves the last entry into the
gap, so that no other entry moves; as a finite map nothing else changes (`eraseEntry_perm`). -/

namespace Bourse

/-- Entries with pairwise distinct keys. -/
structure Table (α : Type) where
  entries : List (String × α)
  distinct : (entries.map Prod.fst).Nodup

namespace Table

variable {α β : Type}

/-! ### Entries -/

/-- Puts a value into a list of entries: in the place of the first entry with its key, or at the
end. -/
def putEntry (key : String) (value : α) : List (String × α) → List (String × α)
  | [] => [(key, value)]
  | (k, v) :: rest => if k = key then (k, value) :: rest else (k, v) :: putEntry key value rest

/-- Removes the first entry with the key; the last entry takes its place. -/
def eraseEntry (key : String) : List (String × α) → List (String × α)
  | [] => []
  | (k, v) :: rest =>
    if k = key then
      match rest.getLast? with
      | none => []
      | some last => last :: rest.dropLast
    else (k, v) :: eraseEntry key rest

theorem map_fst_putEntry (key : String) (value : α) (l : List (String × α)) :
    (putEntry key value l).map Prod.fst
      = if key ∈ l.map Prod.fst then l.map Prod.fst else l.map Prod.fst ++ [key] := by
  induction l with
  | nil => simp [putEntry]
  | cons e l ih =>
    obtain ⟨k, v⟩ := e
    rw [putEntry]
    by_cases h : k = key
    · simp [h]
    · have h' : ¬ key = k := fun hk => h hk.symm
      simp only [h, if_false, List.map_cons, ih, List.mem_cons, h', false_or]
      split <;> simp

theorem nodup_putEntry (key : String) (value : α) {l : List (String × α)}
    (h : (l.map Prod.fst).Nodup) : ((putEntry key value l).map Prod.fst).Nodup := by
  rw [map_fst_putEntry]
  split
  · exact h
  · rename_i hk
    rw [List.nodup_append]
    refine ⟨h, by simp, ?_⟩
    intro a ha b hb hab
    simp only [List.mem_singleton] at hb
    exact hk (hb ▸ hab ▸ ha)

/-- **Erasing loses nothing else**: up to order it removes one entry. -/
theorem eraseEntry_perm (key : String) (l : List (String × α)) :
    (eraseEntry key l).Perm (l.eraseP fun e => e.1 == key) := by
  induction l with
  | nil => exact .refl _
  | cons e l ih =>
    obtain ⟨k, v⟩ := e
    rw [eraseEntry]
    by_cases h : k = key
    · simp only [h, if_true, List.eraseP_cons, beq_self_eq_true, cond_true]
      cases hl : l.getLast? with
      | none => simp [List.getLast?_eq_none_iff.1 hl]
      | some last =>
        obtain ⟨front, rfl⟩ := List.getLast?_eq_some_iff.1 hl
        simpa using (List.perm_append_singleton last front).symm
    · have hb : (k == key) = false := by simpa using h
      simp only [h, if_false, List.eraseP_cons, hb, cond_false]
      exact ih.cons _

theorem nodup_eraseEntry (key : String) {l : List (String × α)}
    (h : (l.map Prod.fst).Nodup) : ((eraseEntry key l).map Prod.fst).Nodup :=
  ((eraseEntry_perm key l).map Prod.fst).nodup_iff.2
    (h.sublist ((List.eraseP_sublist).map Prod.fst))

/-! ### Operations -/

/-- The table without entries. -/
def empty : Table α := ⟨[], by simp⟩

instance : EmptyCollection (Table α) := ⟨empty⟩
instance : Inhabited (Table α) := ⟨empty⟩

/-- The value under a key. -/
def get? (t : Table α) (key : String) : Option α := t.entries.lookup key

/-- Whether the key is present. -/
def contains (t : Table α) (key : String) : Bool := (t.get? key).isSome

/-- Puts a value under a key. -/
def put (t : Table α) (key : String) (value : α) : Table α :=
  ⟨putEntry key value t.entries, nodup_putEntry key value t.distinct⟩

/-- Removes a key. -/
def erase (t : Table α) (key : String) : Table α :=
  ⟨eraseEntry key t.entries, nodup_eraseEntry key t.distinct⟩

/-- Removes a key and returns its value beside the rest. -/
def take (t : Table α) (key : String) : Option α × Table α := (t.get? key, t.erase key)

/-- Puts all entries of a list, in order. -/
def putAll (t : Table α) (es : List (String × α)) : Table α :=
  es.foldl (fun t e => t.put e.1 e.2) t

/-- The table that a list of entries describes: a key stands where it first occurs and has its last
value. -/
def ofList (es : List (String × α)) : Table α := empty.putAll es

/-- The keys in order. -/
def keys (t : Table α) : List String := t.entries.map Prod.fst

/-- The values in order. -/
def values (t : Table α) : List α := t.entries.map Prod.snd

/-- How many entries there are. -/
def size (t : Table α) : Nat := t.entries.length

/-- Whether there is no entry. -/
def isEmpty (t : Table α) : Bool := t.entries.isEmpty

/-- The same keys with other values. -/
def map (f : α → β) (t : Table α) : Table β :=
  ⟨t.entries.map fun e => (e.1, f e.2), by
    have : (t.entries.map fun e => (e.1, f e.2)).map Prod.fst = t.entries.map Prod.fst := by
      simp [List.map_map, Function.comp_def]
    rw [this]
    exact t.distinct⟩

/-- The entries by ascending key. -/
def sorted (t : Table α) : List (String × α) :=
  t.entries.mergeSort fun a b => decide (a.1 ≤ b.1)

end Table

end Bourse
