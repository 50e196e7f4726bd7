import Bourse.Client.Markets
import Mathlib.Tactic

/-! # What a step does to the world

A step may fail at any point, and the world is then as it was left there. `KeepsWorld` says of a
step that the world is the same after it, and `Along` that it is related to the one before. Steps
that go along a preorder can be combined (`Along.bind`), and a step that keeps the world goes along
each.

* `bind_apply`: a sequence of two steps;
* `keepsWorld_market` and its like: questions that are answered from what is known. -/

namespace Bourse

namespace Session

variable {α β : Type}

/-- The world is the same after the step. -/
def KeepsWorld (s : Session α) : Prop := ∀ w : World, (s w).2 = w

/-- What follows a step happens if it succeeds, in the world that it leaves. -/
theorem bind_apply (s : Session α) (f : α → Session β) (w : World) :
    (s >>= f) w = match s w with
      | (.ok a, w') => f a w'
      | (.error e, w') => (.error e, w') := by
  show ExceptT.bindCont f (s w).1 (s w).2 = _
  rcases s w with ⟨_ | _, w'⟩ <;> rfl

/-- A sequence has an outcome if both steps have one, the second in the world that the first one
leaves. -/
theorem fst_bind_eq_ok_iff {s : Session α} {f : α → Session β} {w : World} {b : β} :
    ((s >>= f) w).1 = .ok b ↔ ∃ a, (s w).1 = .ok a ∧ (f a (s w).2).1 = .ok b := by
  rw [bind_apply]
  rcases s w with ⟨_ | _, w'⟩ <;> simp

theorem fst_ofResult_eq_ok_iff {r : Result α} {w : World} {a : α} :
    (ofResult r w).1 = .ok a ↔ r = .ok a := by
  cases r with
  | ok b => exact ⟨fun h => congrArg _ (Except.ok.inj h), fun h => congrArg _ (Except.ok.inj h)⟩
  | error e => exact ⟨nofun, nofun⟩

theorem ofResult_bind_ok (a : α) (f : α → Session β) (w : World) :
    (ofResult (.ok a) >>= f) w = f a w := rfl

theorem ofResult_bind_error (e : Error) (f : α → Session β) (w : World) :
    (ofResult (.error e) >>= f) w = (.error (.failed e), w) := rfl

/-! ### Keeping the world -/

theorem KeepsWorld.pure (a : α) : (Pure.pure a : Session α).KeepsWorld := fun _ => rfl

theorem keepsWorld_ofResult (r : Result α) : (ofResult r).KeepsWorld := fun _ => rfl

theorem keepsWorld_read (f : World → α) : (Session.read f).KeepsWorld := fun _ => rfl

theorem KeepsWorld.bind {s : Session α} {f : α → Session β} (hs : s.KeepsWorld)
    (hf : ∀ a, (f a).KeepsWorld) : (s >>= f).KeepsWorld := by
  intro w
  have hw := hs w
  rw [bind_apply]
  generalize s w = result at hw ⊢
  rcases result with ⟨e | a, w'⟩
  · exact hw
  · exact (hf a w').trans hw

/-! ### Steps along a relation -/

/-- The step takes the world along a relation, whether it fails or not. -/
def Along (R : World → World → Prop) (s : Session α) : Prop := ∀ w : World, R w (s w).2

variable {R : World → World → Prop}

theorem KeepsWorld.along [IsPreorder World R] {s : Session α} (h : s.KeepsWorld) :
    s.Along R := by
  intro w
  rw [h w]
  exact refl w

theorem Along.bind [IsPreorder World R] {s : Session α} {f : α → Session β} (hs : s.Along R)
    (hf : ∀ a, (f a).Along R) : (s >>= f).Along R := by
  intro w
  have hw := hs w
  rw [bind_apply]
  generalize s w = result at hw ⊢
  rcases result with ⟨e | a, w'⟩
  · exact hw
  · exact IsTrans.trans _ _ _ hw (hf a w')

/-- What follows a result goes along the relation if it does for that result. -/
theorem along_ofResult_bind [IsPreorder World R] {r : Result α} {f : α → Session β}
    (h : ∀ a, r = .ok a → (f a).Along R) : (ofResult r >>= f).Along R := by
  cases r with
  | error e => exact fun w => refl w
  | ok a => exact h a rfl

theorem Along.outcome {s : Session α} (h : s.Along R) : s.outcome.Along R := by
  intro w
  have hw := h w
  unfold Session.outcome
  generalize s w = result at hw ⊢
  rcases result with ⟨(_ | _) | _, w'⟩ <;> exact hw

end Session

namespace Client

open Session

variable (c : Client)

theorem keepsWorld_market (symbol : String) : (c.market symbol).KeepsWorld := by
  refine (keepsWorld_read _).bind fun registry => ?_
  split
  · exact keepsWorld_ofResult _
  · exact keepsWorld_ofResult _

theorem keepsWorld_marketById (id : String) : (c.marketById id).KeepsWorld := by
  refine (keepsWorld_read _).bind fun registry => ?_
  split
  · exact .pure _
  · exact keepsWorld_ofResult _

theorem keepsWorld_currency (code : String) : (currency code).KeepsWorld :=
  (keepsWorld_read _).bind fun _ => keepsWorld_ofResult _

/-- A number written to the precision of a market. -/
theorem keepsWorld_formatted (symbol : String) (value : Decimal) (rounding : RoundingMode)
    (precision : Market → Option Decimal) :
    KeepsWorld (do c.formatted value rounding (precision (← c.market symbol)) :
      Session String) :=
  (c.keepsWorld_market symbol).bind fun _ => keepsWorld_ofResult _

end Client

end Bourse
