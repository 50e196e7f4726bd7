import Bourse.Table
import Mathlib.Tactic

/-! # Tables as finite maps

A table is determined by the order of its keys and by what it has under each (`ext_of_get?`): its
entries are the pairs of a key and the value under it (`mem_entries`), putting changes one key only
(`get?_put`) or those of a list (`get?_putAll`) and leaves the keys that were there in front
(`keys_putAll`), erasing keeps all entries but those of some keys (`entries_erase`,
`entries_foldl_erase`), and sorting lists every entry once, by strictly ascending key (`mem_sorted`,
`ascending_sorted`). A list that is put under keys of its elements becomes an index of the last
element with each key (`get?_putAll_map`, `get?_ofList_map`). -/

namespace Bourse.Table

variable {α : Type} (t : Table α)

/-! ### Looking up -/

theorem lookup_eq_some_iff_mem {l : List (String × α)} (h : (l.map Prod.fst).Nodup) {key : String}
    {value : α} : l.lookup key = some value ↔ (key, value) ∈ l := by
  induction l with
  | nil => simp
  | cons e l ih =>
    obtain ⟨k, v⟩ := e
    rw [List.map_cons, List.nodup_cons] at h
    rw [List.lookup_cons, List.mem_cons, Prod.mk.injEq]
    by_cases hk : key = k
    · subst hk
      have hnot : (key, value) ∉ l := fun hmem => h.1 (List.mem_map.2 ⟨_, hmem, rfl⟩)
      rw [beq_self_eq_true]
      simp only [true_and, hnot, or_false, Option.some.injEq, eq_comm]
    · have hb : (key == k) = false := by simpa using hk
      rw [hb]
      simp only [hk, false_and, false_or]
      exact ih h.2

/-- **The entries** are what lookups find. -/
theorem mem_entries {key : String} {value : α} :
    (key, value) ∈ t.entries ↔ t.get? key = some value :=
  (lookup_eq_some_iff_mem t.distinct).symm

theorem mem_keys {key : String} : key ∈ t.keys ↔ ∃ value, t.get? key = some value := by
  constructor
  · intro h
    obtain ⟨⟨k, value⟩, he, rfl⟩ := List.mem_map.1 h
    exact ⟨value, t.mem_entries.1 he⟩
  · rintro ⟨value, h⟩
    exact List.mem_map.2 ⟨_, t.mem_entries.2 h, rfl⟩

theorem mem_values {value : α} : value ∈ t.values ↔ ∃ key, t.get? key = some value := by
  constructor
  · intro h
    obtain ⟨⟨key, v⟩, he, rfl⟩ := List.mem_map.1 h
    exact ⟨key, t.mem_entries.1 he⟩
  · rintro ⟨key, h⟩
    exact List.mem_map.2 ⟨_, t.mem_entries.2 h, rfl⟩

/-- The entries are the keys with what is found under them. -/
theorem entries_eq_filterMap_keys :
    t.entries = t.keys.filterMap fun k => (t.get? k).map fun value => (k, value) := by
  have hfound : ∀ e ∈ t.entries, (t.get? e.1).map (fun value => (e.1, value)) = some e := by
    rintro ⟨k, value⟩ he
    rw [t.mem_entries.1 he]
    rfl
  rw [keys, List.filterMap_map]
  conv_lhs => rw [← List.filterMap_some (l := t.entries)]
  exact List.filterMap_congr fun e he => (hfound e he).symm

/-- **Tables are equal** if they have the same keys in the same order and the same under each. -/
theorem ext_of_get? {t u : Table α} (hkeys : t.keys = u.keys) (hget : ∀ k, t.get? k = u.get? k) :
    t = u := by
  have hentries : t.entries = u.entries := by
    rw [t.entries_eq_filterMap_keys, u.entries_eq_filterMap_keys, hkeys]
    simp only [hget]
  cases t
  cases u
  cases hentries
  rfl

theorem lookup_putEntry (key k : String) (value : α) (l : List (String × α)) :
    (putEntry key value l).lookup k = if k = key then some value else l.lookup k := by
  induction l with
  | nil =>
    rw [putEntry, List.lookup_cons]
    by_cases h : k = key
    · simp [h]
    · simp [h, beq_eq_false_iff_ne.2 h]
  | cons e l ih =>
    obtain ⟨k', v⟩ := e
    rw [putEntry]
    by_cases hkey : k' = key
    · subst hkey
      rw [if_pos rfl, List.lookup_cons, List.lookup_cons]
      by_cases h : k = k'
      · simp [h]
      · simp [h, beq_eq_false_iff_ne.2 h]
    · rw [if_neg hkey, List.lookup_cons, List.lookup_cons, ih]
      by_cases h : k = k'
      · subst h
        simp [hkey]
      · simp [beq_eq_false_iff_ne.2 h]

/-- **Putting** changes what is under one key. -/
theorem get?_put (key k : String) (value : α) :
    (t.put key value).get? k = if k = key then some value else t.get? k :=
  lookup_putEntry key k value t.entries

theorem get?_put_of_ne {key k : String} (h : k ≠ key) (value : α) :
    (t.put key value).get? k = t.get? k := by
  rw [get?_put, if_neg h]

theorem lookup_eq_none_of_notMem {l : List (String × α)} {key : String}
    (h : key ∉ l.map Prod.fst) : l.lookup key = none := by
  rw [List.lookup_eq_none_iff]
  intro e he
  rw [bne_iff_ne]
  rintro rfl
  exact h (List.mem_map_of_mem he)

/-- **Putting several entries**: under their keys they count before those that were there. -/
theorem get?_putAll {es : List (String × α)} (h : (es.map Prod.fst).Nodup) (k : String) :
    (t.putAll es).get? k = (es.lookup k).or (t.get? k) := by
  induction es generalizing t with
  | nil => rfl
  | cons e es ih =>
    obtain ⟨key, value⟩ := e
    rw [List.map_cons, List.nodup_cons] at h
    show ((t.put key value).putAll es).get? k = _
    rw [ih _ h.2, get?_put, List.lookup_cons]
    by_cases hk : k = key
    · subst hk
      rw [lookup_eq_none_of_notMem h.1, beq_self_eq_true, if_pos rfl]
      rfl
    · rw [beq_eq_false_iff_ne.2 hk, if_neg hk]

theorem keys_put (key : String) (value : α) :
    (t.put key value).keys = if key ∈ t.keys then t.keys else t.keys ++ [key] :=
  map_fst_putEntry key value t.entries

/-- **The keys after putting several entries**: those that were there, and then the new ones. -/
theorem keys_putAll {es : List (String × α)} (h : (es.map Prod.fst).Nodup) :
    (t.putAll es).keys = t.keys ++ (es.map Prod.fst).filter (· ∉ t.keys) := by
  induction es generalizing t with
  | nil => simp [putAll]
  | cons e es ih =>
    rw [List.map_cons, List.nodup_cons] at h
    show ((t.put e.1 e.2).putAll es).keys = _
    rw [ih _ h.2, keys_put, List.map_cons, List.filter_cons]
    by_cases he : e.1 ∈ t.keys
    · simp [he]
    · have hrest : (es.map Prod.fst).filter (fun k => k ∉ t.keys ++ [e.1])
          = (es.map Prod.fst).filter (fun k => k ∉ t.keys) := by
        refine List.filter_congr fun k hk => ?_
        have hne : k ≠ e.1 := fun heq => h.1 (heq ▸ hk)
        simp [hne]
      rw [if_neg he, hrest]
      simp [he]

/-- The table that the entries of a table describe is that table. -/
theorem ofList_entries : ofList t.entries = t := by
  refine ext_of_get? ?_ fun k => ?_
  · rw [ofList, keys_putAll _ t.distinct]
    simp [empty, keys]
  · rw [ofList, get?_putAll _ t.distinct]
    simp [empty, get?]

/-! ### Indexes -/

/-- The last element of a list with a property. -/
def LastThat {β : Type} (p : β → Prop) (l : List β) (b : β) : Prop :=
  ∃ before after, l = before ++ b :: after ∧ p b ∧ ∀ c ∈ after, ¬ p c

/-- **The last element of a longer list** is the new one if it has the property, and else the one
from before. -/
theorem lastThat_concat {β : Type} {p : β → Prop} {l : List β} {b c : β} :
    LastThat p (l ++ [c]) b ↔ p c ∧ b = c ∨ ¬ p c ∧ LastThat p l b := by
  constructor
  · rintro ⟨before, after, heq, hb, hafter⟩
    rcases List.eq_nil_or_concat after with rfl | ⟨init, d, rfl⟩
    · obtain ⟨rfl, hbc⟩ := List.append_inj' heq rfl
      rw [List.cons.injEq] at hbc
      exact .inl ⟨hbc.1 ▸ hb, hbc.1.symm⟩
    · rw [List.concat_eq_append] at heq hafter
      rw [← List.cons_append, ← List.append_assoc] at heq
      obtain ⟨rfl, hcd⟩ := List.append_inj' heq rfl
      rw [List.cons.injEq] at hcd
      refine .inr ⟨?_, before, init, rfl, hb, fun e he => hafter e (by simp [he])⟩
      exact hcd.1 ▸ hafter d (by simp)
  · rintro (⟨hc, rfl⟩ | ⟨hc, before, after, rfl, hb, hafter⟩)
    · exact ⟨l, [], rfl, hc, by simp⟩
    · refine ⟨before, after ++ [c], by simp, hb, fun e he => ?_⟩
      rcases List.mem_append.1 he with he | he
      · exact hafter e he
      · exact List.mem_singleton.1 he ▸ hc

/-- The last element of a list with a key. -/
def LastWith {β : Type} (f : β → String) (key : String) (l : List β) (b : β) : Prop :=
  ∃ before after, l = before ++ b :: after ∧ f b = key ∧ ∀ c ∈ after, f c ≠ key

section
variable {β : Type} {f : β → String} {key : String} {l : List β} {b : β}

theorem LastWith.mem (h : LastWith f key l b) : b ∈ l ∧ f b = key := by
  obtain ⟨before, after, rfl, hkey, -⟩ := h
  exact ⟨by simp, hkey⟩

theorem lastWith_concat {c : β} :
    LastWith f key (l ++ [c]) b ↔ f c = key ∧ b = c ∨ f c ≠ key ∧ LastWith f key l b :=
  lastThat_concat (p := fun d => f d = key)

/-- Where there is an element with a key, there is a last one. -/
theorem exists_lastWith (hb : b ∈ l) (hkey : f b = key) : ∃ c, LastWith f key l c := by
  induction l using List.reverseRecOn with
  | nil => cases hb
  | append_singleton l c ih =>
    by_cases hc : f c = key
    · exact ⟨c, lastWith_concat.2 (.inl ⟨hc, rfl⟩)⟩
    · rcases List.mem_append.1 hb with hb | hb
      · obtain ⟨d, hd⟩ := ih hb
        exact ⟨d, lastWith_concat.2 (.inr ⟨hc, hd⟩)⟩
      · rw [List.mem_singleton.1 hb] at hkey
        exact absurd hkey hc

/-- Where keys are not shared, every element is the last one with its key. -/
theorem lastWith_iff_of_nodup (h : (l.map f).Nodup) : LastWith f key l b ↔ b ∈ l ∧ f b = key := by
  refine ⟨LastWith.mem, fun ⟨hb, hkey⟩ => ?_⟩
  obtain ⟨c, hc⟩ := exists_lastWith hb hkey
  have hsame : c = b := List.inj_on_of_nodup_map h hc.mem.1 hb (hc.mem.2.trans hkey.symm)
  exact hsame ▸ hc

end

theorem putAll_concat (es : List (String × α)) (e : String × α) :
    t.putAll (es ++ [e]) = (t.putAll es).put e.1 e.2 := by
  rw [putAll, List.foldl_append]
  rfl

/-- **Putting a list under keys of its elements**: of elements with one key the last counts, and
what was there counts where no element has the key. -/
theorem get?_putAll_map (f : α → String) (l : List α) {key : String} {a : α} :
    (t.putAll (l.map fun b => (f b, b))).get? key = some a ↔
      LastWith f key l a ∨ (∀ b ∈ l, f b ≠ key) ∧ t.get? key = some a := by
  induction l using List.reverseRecOn with
  | nil => simp [LastWith, putAll]
  | append_singleton l b ih =>
    rw [List.map_append, List.map_singleton, putAll_concat, get?_put, lastWith_concat]
    by_cases hb : f b = key
    · rw [if_pos hb.symm, Option.some.injEq]
      simp [hb, eq_comm]
    · rw [if_neg (Ne.symm hb), ih]
      simp only [hb, false_and, not_false_eq_true, true_and, false_or, List.mem_append,
        List.mem_singleton, ne_eq, or_imp, forall_and, forall_eq, and_true]

theorem get?_ofList_map (f : α → String) (l : List α) {key : String} {a : α} :
    (ofList (l.map fun b => (f b, b))).get? key = some a ↔ LastWith f key l a := by
  rw [ofList, get?_putAll_map]
  simp [empty, get?]

/-- **Putting the elements of a list that have a key under it**: of those with one key the last
counts. -/
theorem get?_ofList_filterMap (f : α → Option String) (l : List α) {key : String} {a : α} :
    (ofList (l.filterMap fun b => (f b).map fun k => (k, b))).get? key = some a ↔
      LastThat (fun b => f b = some key) l a := by
  induction l using List.reverseRecOn with
  | nil => simp [LastThat, ofList, putAll, empty, get?]
  | append_singleton l b ih =>
    rw [List.filterMap_append, lastThat_concat, ← ih]
    cases hb : f b with
    | none =>
      have hskip : [b].filterMap (fun b => (f b).map fun k => (k, b)) = [] := by simp [hb]
      rw [hskip, List.append_nil]
      simp
    | some k =>
      have hput : [b].filterMap (fun b => (f b).map fun k => (k, b)) = [(k, b)] := by simp [hb]
      rw [hput, ofList, putAll_concat, get?_put, ofList]
      by_cases hk : key = k
      · simp [hk, eq_comm]
      · simp [hk, Ne.symm hk]

/-- **The keys of a list of entries** stand in the order of their first appearance. -/
theorem keys_ofList (es : List (String × α)) : (ofList es).keys = (es.map Prod.fst).eraseDups := by
  induction es using List.reverseRecOn with
  | nil => rfl
  | append_singleton es e ih =>
    have hkeys : (ofList (es ++ [e])).keys
        = if e.1 ∈ (ofList es).keys then (ofList es).keys else (ofList es).keys ++ [e.1] := by
      rw [ofList, putAll_concat, keys_put]
      rfl
    rw [hkeys, ih, List.map_append, List.map_singleton, List.eraseDups_append]
    by_cases he : e.1 ∈ es.map Prod.fst
    · rw [if_pos (List.mem_eraseDups.2 he)]
      simp [List.removeAll, he]
    · rw [if_neg fun h => he (List.mem_eraseDups.1 h)]
      simp [List.removeAll, he, List.eraseDups_cons]

/-- The values of an index have its keys. -/
theorem map_values_ofList_map (f : α → String) (l : List α) :
    (ofList (l.map fun b => (f b, b))).values.map f = (l.map f).eraseDups := by
  have hkeys := keys_ofList (l.map fun b => (f b, b))
  rw [List.map_map] at hkeys
  rw [show l.map f = l.map (Prod.fst ∘ fun b => (f b, b)) from rfl, ← hkeys, values, List.map_map]
  refine List.map_congr_left fun e he => ?_
  exact ((get?_ofList_map f l).1 ((mem_entries _).1 he)).mem.2

/-! ### Erasing -/

theorem eraseP_eq_filter (key : String) {l : List (String × α)} (h : (l.map Prod.fst).Nodup) :
    l.eraseP (fun e => e.1 == key) = l.filter fun e => e.1 != key := by
  induction l with
  | nil => rfl
  | cons e l ih =>
    rw [List.map_cons, List.nodup_cons] at h
    rw [List.eraseP_cons, List.filter_cons]
    by_cases hk : e.1 = key
    · have hall : l.filter (fun e => e.1 != key) = l := by
        rw [List.filter_eq_self]
        intro d hd
        rw [bne_iff_ne]
        intro hd'
        exact h.1 (List.mem_map.2 ⟨d, hd, hd'.trans hk.symm⟩)
      rw [beq_iff_eq.2 hk, bne_eq_false_iff_eq.2 hk, hall]
      rfl
    · rw [beq_eq_false_iff_ne.2 hk, bne_iff_ne.2 hk, ih h.2]
      rfl

/-- **Erasing** keeps the entries of all other keys, in some order. -/
theorem entries_erase (key : String) :
    (t.erase key).entries.Perm (t.entries.filter fun e => e.1 != key) := by
  rw [← eraseP_eq_filter key t.distinct]
  exact eraseEntry_perm key t.entries

/-- **Erasing several keys** keeps the entries of all others, in some order. -/
theorem entries_foldl_erase (keys : List String) :
    (keys.foldl erase t).entries.Perm (t.entries.filter fun e => e.1 ∉ keys) := by
  induction keys generalizing t with
  | nil => simp
  | cons key keys ih =>
    refine (ih (t.erase key)).trans (((t.entries_erase key).filter _).trans (.of_eq ?_))
    rw [List.filter_filter]
    refine List.filter_congr fun e _ => ?_
    by_cases hk : e.1 = key <;> simp [hk]

theorem get?_foldl_erase (keys : List String) (k : String) :
    (keys.foldl erase t).get? k = if k ∈ keys then none else t.get? k := by
  refine Option.ext fun value => ?_
  rw [← mem_entries, (t.entries_foldl_erase keys).mem_iff, List.mem_filter, mem_entries]
  by_cases hk : k ∈ keys <;> simp [hk]

/-! ### Sorting -/

theorem mem_sorted {key : String} {value : α} :
    (key, value) ∈ t.sorted ↔ t.get? key = some value := by
  rw [sorted, List.mem_mergeSort]
  exact t.mem_entries

/-- **The sorted entries** have strictly ascending keys. -/
theorem ascending_sorted : t.sorted.Pairwise fun a b => a.1 < b.1 := by
  have hle : t.sorted.Pairwise fun a b => decide (a.1 ≤ b.1) = true := by
    refine List.pairwise_mergeSort ?_ ?_ t.entries
    · intro a b c hab hbc
      rw [decide_eq_true_eq] at hab hbc ⊢
      exact String.le_trans hab hbc
    · intro a b
      rw [Bool.or_eq_true, decide_eq_true_eq, decide_eq_true_eq]
      exact String.le_total a.1 b.1
  have hne : t.sorted.Pairwise fun a b => a.1 ≠ b.1 := by
    have hperm : t.sorted.Perm t.entries := List.mergeSort_perm t.entries _
    exact List.pairwise_map.1 ((hperm.map Prod.fst).nodup_iff.2 t.distinct)
  refine hle.imp₂ ?_ hne
  intro a b hab hne
  rw [decide_eq_true_eq] at hab
  exact String.not_le.1 fun hba => hne (String.le_antisymm hab hba)

/-- **The sorted keys** ascend, and are the keys. -/
theorem ascending_keys_sorted : (t.sorted.map Prod.fst).Pairwise (· < ·) :=
  List.pairwise_map.2 t.ascending_sorted

theorem mem_keys_sorted {key : String} : key ∈ t.sorted.map Prod.fst ↔ key ∈ t.keys := by
  have hperm : t.sorted.Perm t.entries := List.mergeSort_perm t.entries _
  exact (hperm.map Prod.fst).mem_iff

end Bourse.Table
