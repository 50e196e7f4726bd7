import Bourse.Venue.Signing
import Mathlib.Tactic

/-! # Addresses

The address of a request begins with the base address that it was made for (`joinUrl_eq_append`),
and, if that is a scheme and an authority with at most a path behind them, a slash follows the
authority (`joinUrl_of_address`). -/

namespace Bourse

/-- **A joined address** begins with its base. -/
theorem joinUrl_eq_append (base path : String) : ∃ tail, joinUrl base path = base ++ tail := by
  unfold joinUrl
  split
  · exact ⟨_, rfl⟩
  · exact ⟨_, rfl⟩
  · exact ⟨_, rfl⟩
  · exact ⟨"", by simp⟩
  · exact ⟨"/" ++ path, by rw [String.append_assoc]⟩

theorem url_unsigned (r : Request) (ctx : SignContext) :
    ∃ tail, (r.unsigned ctx).url = joinUrl ctx.baseUrl r.path ++ tail := by
  unfold Request.unsigned
  dsimp only
  split
  · exact ⟨"", by simp⟩
  · split
    · exact ⟨"?" ++ Query.encode r.params, by simp [String.append_assoc]⟩
    · split
      · exact ⟨"", by simp⟩
      · exact ⟨"", by simp⟩

/-- A path is set off from a base that ends without a slash. -/
theorem joinUrl_of_not_slash {base path : String} (hbase : base.toList.getLast? ≠ some '/')
    (hpath : path ≠ "") : ∃ rest, joinUrl base path = base ++ "/" ++ rest := by
  have hlast : (base.toList.getLast? == some '/') = false := beq_eq_false_iff_ne.2 hbase
  unfold joinUrl
  rw [hlast]
  split
  · contradiction
  · contradiction
  · next rest _ hrest =>
    -- the path brings its own slash
    have heq : path = "/" ++ String.ofList rest := by
      rw [← String.toList_inj, hrest]
      simp
    refine ⟨String.ofList rest, ?_⟩
    rw [heq, String.append_assoc]
  · next _ hnil => exact absurd (String.toList_eq_nil_iff.1 hnil) hpath
  · exact ⟨path, rfl⟩

/-- An address of the form `scheme://authority`, or with a path behind the authority. Something
stands behind the scheme. -/
structure Address (base scheme authority tail : String) : Prop where
  eq : base = scheme ++ "://" ++ authority ++ tail
  scheme_plain : ':' ∉ scheme.toList
  authority_plain : '/' ∉ authority.toList
  tail_cases : tail = "" ∨ ∃ rest, tail = "/" ++ rest
  ne_empty : authority ≠ "" ∨ tail ≠ ""

/-- **A slash follows the authority** in what is joined to an address. -/
theorem joinUrl_of_address {base scheme authority tail path : String}
    (h : Address base scheme authority tail) (hpath : path ≠ "") :
    ∃ rest, joinUrl base path = scheme ++ "://" ++ authority ++ "/" ++ rest := by
  rcases h.tail_cases with htail | ⟨rest, htail⟩
  · have hbase : base = scheme ++ "://" ++ authority := by
      rw [h.eq, htail, String.append_empty]
    have hauthority : authority.toList ≠ [] := by
      simpa using h.ne_empty.resolve_right (not_not_intro htail)
    have hlast : base.toList.getLast? ≠ some '/' := by
      rw [hbase, String.toList_append, List.getLast?_append_of_ne_nil _ hauthority]
      intro hslash
      exact h.authority_plain (List.mem_of_getLast? hslash)
    rw [← hbase]
    exact joinUrl_of_not_slash hlast hpath
  · obtain ⟨more, hmore⟩ := joinUrl_eq_append base path
    refine ⟨rest ++ more, ?_⟩
    rw [hmore, h.eq, htail]
    simp [String.append_assoc]

end Bourse
