import Bourse.Proofs.Client.Calls

/-! # What a client hands to the wire

`Hands P` says of a step that every request that it hands to the wire has the property `P`. All that
a client hands over are requests that were prepared for a tier, and so a property of prepared
requests holds of every request of a session.

* `handsOver_deliver`: a delivery hands over one request;
* `hands_request_call`, `hands_play`: a call of the caller's choice, and a session. -/

namespace Bourse

namespace Session

variable {α : Type} {P : PreparedRequest → Prop}

/-- Every request that the step hands to the wire has the property. -/
def Hands (P : PreparedRequest → Prop) (s : Session α) : Prop :=
  ∀ w : World, ∃ new, (s w).2.wire.handed = new ++ w.wire.handed ∧ ∀ p ∈ new, P p

/-- From one world to the other requests with the property were handed to the wire. -/
def HandsOver (P : PreparedRequest → Prop) (w w' : World) : Prop :=
  ∃ new, w'.wire.handed = new ++ w.wire.handed ∧ ∀ p ∈ new, P p

theorem handsOver_of_eq {w w' : World} (h : w'.wire.handed = w.wire.handed) : HandsOver P w w' :=
  ⟨[], h, by simp⟩

instance : IsPreorder World (HandsOver P) where
  refl _ := handsOver_of_eq rfl
  trans := by
    rintro u v w ⟨new, hnew, hall⟩ ⟨later, hlater, hall'⟩
    refine ⟨later ++ new, ?_, fun p hp => ?_⟩
    · rw [hlater, hnew, List.append_assoc]
    · rcases List.mem_append.1 hp with hp | hp
      · exact hall' p hp
      · exact hall p hp

end Session

namespace Client

open Session

variable {c : Client}

/-- **A delivery** hands over one request. -/
theorem handsOver_deliver {P : PreparedRequest → Prop} {p : PreparedRequest} (hp : P p) :
    (c.deliver p).Along (HandsOver P) := by
  intro w
  refine ⟨[p], ?_, fun q hq => ?_⟩
  · rw [deliver_apply]
    exact handed_transmit c.config.http w.wire p
  · rw [List.mem_singleton.1 hq]
    exact hp

/-! ### What holds of prepared requests -/

variable {P : (tier : String) → PreparedRequest → Prop}
  (hprepares : ∀ tier p, c.Prepares tier p → P tier p)
include hprepares

/-- **A call of the caller's choice** hands over requests of its tier. -/
theorem hands_request_call {call : Call} (h : call.isRequest = true) :
    (call.run c).Hands fun p => ∃ tier, call.tier? c = some tier ∧ P tier p :=
  along_request_call h fun tier htier p hp =>
    handsOver_deliver ⟨tier, htier, hprepares tier p hp⟩

/-- **Any call** hands over requests of some tiers. -/
theorem hands_call (call : Call) : (call.run c).Hands fun p => ∃ tier, P tier p :=
  along_call (fun tier p hp => handsOver_deliver ⟨tier, hprepares tier p hp⟩)
    (fun _ _ => handsOver_of_eq rfl) call

/-- **A session** hands over requests of some tiers, by induction on its turns. -/
theorem hands_play (w : World) (turns : List Turn) :
    HandsOver (fun p => ∃ tier, P tier p) w (c.play w turns) := by
  induction turns generalizing w with
  | nil => exact refl w
  | cons t ts ih =>
    have hturn : HandsOver (fun p => ∃ tier, P tier p) w (c.turn w t) :=
      hands_call hprepares t.call (w.within t.around)
    exact IsTrans.trans _ _ _ hturn (ih (c.turn w t))

end Client

end Bourse
