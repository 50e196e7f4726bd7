import Bourse.Registry
import Bourse.Proofs.Table

/-! # The currencies of markets

The sides of markets are candidates for the currencies of a registry, and of several candidates with
one code one is kept. `Collects cs t` says of a table that it has gone through the candidates `cs`:
every currency is one of them and stands under its own code, and every candidate has a currency with
its code. One candidate more preserves it (`Collects.addCandidate`), so it holds of all of them
(`collects_derive`). -/

namespace Bourse.Registry

variable {mode : PrecisionMode}

/-! ### One market -/

/-- A candidate is a side of its market. -/
theorem side_of_mem_candidates {m : Market} {c : Currency} (h : c ∈ candidates mode m) :
    c.id = m.baseId ∧ c.code = m.base ∨ c.id = m.quoteId ∧ c.code = m.quote := by
  rw [candidates, List.mem_filter, List.mem_cons, List.mem_singleton] at h
  obtain ⟨rfl | rfl, -⟩ := h
  · exact .inl ⟨rfl, rfl⟩
  · exact .inr ⟨rfl, rfl⟩

/-- Every side with a code is a candidate. -/
theorem exists_mem_candidates (mode : PrecisionMode) {m : Market} {code : String}
    (hside : m.base = code ∨ m.quote = code) (hcode : code ≠ "") :
    ∃ c ∈ candidates mode m, c.code = code := by
  simp only [candidates, List.mem_filter, List.mem_cons, List.not_mem_nil, or_false, bne_iff_ne]
  rcases hside with rfl | rfl
  · exact ⟨_, ⟨.inl rfl, hcode⟩, rfl⟩
  · exact ⟨_, ⟨.inr rfl, hcode⟩, rfl⟩

/-! ### Going through the candidates -/

/-- **One candidate** changes at most what is under its code: it comes there unless the currency
that is there stays. -/
theorem get?_addCandidate (t : Table Currency) (c : Currency) (code : String) :
    (addCandidate mode t c).get? code =
      if code = c.code ∧ ∀ old, t.get? code = some old → replaces mode c old = true then some c
      else t.get? code := by
  unfold addCandidate
  by_cases hcode : code = c.code
  · subst hcode
    cases hold : t.get? c.code with
    | none => simp [Table.get?_put]
    | some old =>
      by_cases hreplaces : replaces mode c old = true
      · simp [hreplaces, Table.get?_put]
      · simp [hreplaces, hold]
  · rw [if_neg fun h => hcode h.1]
    cases t.get? c.code with
    | none => exact t.get?_put_of_ne hcode c
    | some old =>
      by_cases hreplaces : replaces mode c old = true
      · simp only [hreplaces, if_true]
        exact t.get?_put_of_ne hcode c
      · simp only [hreplaces]
        rfl

/-- The table has gone through these candidates. -/
structure Collects (cs : List Currency) (t : Table Currency) : Prop where
  /-- Every currency stands under its own code and is a candidate. -/
  own_code : ∀ code c, t.get? code = some c → c.code = code ∧ c ∈ cs
  /-- Every candidate has a currency with its code. -/
  complete : ∀ c ∈ cs, ∃ kept, t.get? c.code = some kept

/-- **One candidate more.** -/
theorem Collects.addCandidate {cs : List Currency} {t : Table Currency} (h : Collects cs t)
    (c : Currency) : Collects (cs ++ [c]) (addCandidate mode t c) := by
  constructor
  · intro code kept hkept
    rw [get?_addCandidate] at hkept
    split at hkept
    · rename_i hnew
      rw [Option.some.injEq] at hkept
      subst hkept
      exact ⟨hnew.1.symm, by simp⟩
    · obtain ⟨hcode, hmem⟩ := h.own_code code kept hkept
      exact ⟨hcode, List.mem_append_left _ hmem⟩
  · intro d hd
    rw [get?_addCandidate]
    split
    · exact ⟨c, rfl⟩
    · rename_i hold
      rcases List.mem_append.1 hd with hd | hd
      · exact h.complete d hd
      · -- the candidate itself stays away only from a code that has a currency
        rw [List.mem_singleton.1 hd] at hold ⊢
        cases hget : t.get? c.code with
        | some old => exact ⟨old, rfl⟩
        | none =>
          refine absurd ⟨rfl, fun old h => ?_⟩ hold
          rw [hget] at h
          cases h

theorem collects_foldl (cs : List Currency) :
    Collects cs (cs.foldl (addCandidate mode) .empty) := by
  induction cs using List.reverseRecOn with
  | nil =>
    constructor
    · intro code c h
      cases h
    · intro c hc
      cases hc
  | append_singleton cs c ih =>
    rw [List.foldl_append]
    exact ih.addCandidate c

/-- **The derived currencies** have gone through the candidates of all markets. -/
theorem collects_derive (mode : PrecisionMode) (markets : List Market) :
    Collects (markets.flatMap (candidates mode)) (derive mode markets) :=
  collects_foldl _

end Bourse.Registry
