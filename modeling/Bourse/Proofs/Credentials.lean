import Bourse.Credentials
import Mathlib.Tactic

/-! # Credentials that are there

A credential is used only if it is there and not empty (`expose_eq_ok_iff`). -/

namespace Bourse.Credentials

theorem present?_eq_some_iff {value : Option String} {s : String} :
    present? value = some s ↔ value = some s ∧ s ≠ "" := by
  simp [present?, Option.filter_eq_some_iff]

theorem expose_eq_ok_iff {value : Option String} {name s : String} :
    expose value name = .ok s ↔ value = some s ∧ s ≠ "" := by
  rw [← present?_eq_some_iff, expose]
  cases present? value <;> simp

end Bourse.Credentials
