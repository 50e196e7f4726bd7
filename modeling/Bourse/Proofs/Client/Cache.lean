import Bourse.Binance.Venue
import Bourse.Client.Loading
import Bourse.Proofs.Client.Calls

/-! # What a client knows over a session

A session is a list of turns: before each call the network may have become another one, the venue
may answer what it likes, and time has passed. Whatever happens, the registry is empty or the whole
of one listing, the last one that was learnt; a load or reload that fails, at whatever point, leaves
it as it was.

* `registry_run`: what one call does to the registry;
* `registry_play`: what the registry is after a session;
* `session_cache`: the property. -/

namespace Bourse

namespace Client

open Session

variable (c : Client)

/-! ### One call -/

/-- The same is known about markets. -/
def SameRegistry (w w' : World) : Prop := w'.registry = w.registry

instance : IsPreorder World SameRegistry where
  refl _ := rfl
  trans _ _ _ h h' := h'.trans h

/-- What the venue says of its markets and its currencies. -/
def listing : Session Listing := do
  let markets ← c.fetchMarkets
  let currencies ← c.fetchCurrencies
  return (markets, currencies)

/-- The registry of a listing. -/
def registryOf (l : Listing) : Registry := .ofMarkets l.1 l.2 c.precisionMode

theorem sameRegistry_deliver (p : PreparedRequest) : (c.deliver p).Along SameRegistry := by
  intro w
  obtain ⟨bucket, elapsed, hthrottle⟩ := exists_throttle 1 w
  rw [deliver_apply, hthrottle]
  exact rfl

theorem sameRegistry_listing : c.listing.Along SameRegistry := by
  have hdeliver := fun tier p (_ : c.Prepares tier p) => c.sameRegistry_deliver p
  refine (along_run hdeliver _).bind fun markets => ?_
  exact (along_run hdeliver _).bind fun currencies => (KeepsWorld.pure _).along

/-- **A reload** asks first and writes then. -/
theorem reloadMarkets_apply (w : World) : c.reloadMarkets w = match c.listing w with
    | (.ok l, w') => (.ok (c.registryOf l).markets, { w' with registry := c.registryOf l })
    | (.error e, w') => (.error e, w') := by
  unfold reloadMarkets listing
  rw [bind_apply, bind_apply]
  rcases c.fetchMarkets w with ⟨e | markets, w₁⟩
  · rfl
  · show (c.fetchCurrencies >>= fun currencies => c.setMarkets markets currencies) w₁ =
      match (c.fetchCurrencies >>= fun currencies => pure (markets, currencies)) w₁ with
      | (.ok l, w') => _
      | (.error e, w') => _
    rw [bind_apply, bind_apply]
    rcases c.fetchCurrencies w₁ with ⟨e | currencies, w₂⟩ <;> rfl

theorem loadMarkets_of_loaded {w : World} (h : w.registry.loaded = true) :
    c.loadMarkets w = (.ok w.registry.markets, w) := by
  unfold loadMarkets
  rw [bind_apply]
  show (if w.registry.loaded then _ else _ : Session _) w = _
  rw [if_pos h]
  rfl

theorem loadMarkets_of_not_loaded {w : World} (h : w.registry.loaded = false) :
    c.loadMarkets w = c.reloadMarkets w := by
  unfold loadMarkets
  rw [bind_apply]
  show (if w.registry.loaded then _ else _ : Session _) w = _
  rw [h]
  rfl

/-- The listing that a call puts into the registry, if it does. -/
def learns (w : World) : Call → Option Listing
  | .setMarkets markets currencies => some (markets, currencies)
  | .reloadMarkets => (c.listing w).1.toOption
  | .loadMarkets => if w.registry.loaded then none else (c.listing w).1.toOption
  | _ => none

theorem registry_reloadMarkets (w : World) :
    (c.reloadMarkets w).2.registry =
      ((c.listing w).1.toOption.map c.registryOf).getD w.registry := by
  have hkeep := c.sameRegistry_listing w
  rw [reloadMarkets_apply]
  generalize c.listing w = result at hkeep ⊢
  rcases result with ⟨_ | l, w'⟩
  · exact hkeep
  · rfl

/-- Calls that are not there to set the registry keep it. -/
theorem sameRegistry_call {call : Call} (h : call.isLearning = false) :
    (call.run c).Along SameRegistry :=
  along_call_of_not_isLearning (fun _ p _ => c.sameRegistry_deliver p) h

/-- **What one call does to the registry.** -/
theorem registry_run (w : World) (call : Call) :
    (call.run c w).2.registry = ((c.learns w call).map c.registryOf).getD w.registry := by
  cases call with
  | loadMarkets =>
    show (c.loadMarkets w).2.registry = _
    unfold learns
    by_cases hl : w.registry.loaded = true
    · rw [c.loadMarkets_of_loaded hl, if_pos hl]
      rfl
    · rw [c.loadMarkets_of_not_loaded (Bool.eq_false_iff.2 hl), if_neg hl]
      exact c.registry_reloadMarkets w
  | reloadMarkets => exact c.registry_reloadMarkets w
  | setMarkets markets currencies => rfl
  | _ => exact c.sameRegistry_call rfl w

variable {c} {w : World}

theorem isOk_reloadMarkets : (c.reloadMarkets w).1.isOk = (c.listing w).1.toOption.isSome := by
  rw [reloadMarkets_apply]
  rcases c.listing w with ⟨_ | l, w'⟩ <;> rfl

/-- A call that is there to set the registry succeeds if it learns a listing or needs none. -/
theorem isOk_run_iff {call : Call} (hcall : call.isLearning = true) :
    (call.run c w).1.isOk = true ↔ (c.learns w call).isSome = true ∨
      call = .loadMarkets ∧ w.registry.loaded = true := by
  cases call with
  | loadMarkets =>
    show (c.loadMarkets w).1.isOk = true ↔ _
    unfold learns
    cases hl : w.registry.loaded with
    | true =>
      rw [c.loadMarkets_of_loaded hl]
      exact iff_of_true rfl (.inr ⟨rfl, rfl⟩)
    | false =>
      rw [c.loadMarkets_of_not_loaded hl, isOk_reloadMarkets]
      simp
  | reloadMarkets =>
    show (c.reloadMarkets w).1.isOk = true ↔ _
    rw [isOk_reloadMarkets]
    simp [learns]
  | setMarkets markets currencies => exact iff_of_true rfl (.inl rfl)
  | _ => cases hcall

theorem loaded_run (h : w.registry.loaded = true) (call : Call) :
    (call.run c w).2.registry.loaded = true := by
  rw [registry_run]
  cases c.learns w call with
  | none => exact h
  | some l => rfl

theorem loaded_of_isOk {call : Call} (hcall : call.isLearning = true)
    (h : (call.run c w).1.isOk = true) : (call.run c w).2.registry.loaded = true := by
  rcases (isOk_run_iff hcall).1 h with hlearns | ⟨-, hloaded⟩
  · obtain ⟨l, hl⟩ := Option.isSome_iff_exists.1 hlearns
    rw [registry_run, hl]
    rfl
  · exact loaded_run hloaded call

/-- **After a failure the registry is what it was.** -/
theorem registry_of_not_isOk {call : Call} (hcall : call.isLearning = true)
    (h : (call.run c w).1.isOk = false) : (call.run c w).2.registry = w.registry := by
  rw [Bool.eq_false_iff, ne_eq, isOk_run_iff hcall, not_or] at h
  rw [registry_run, Option.not_isSome_iff_eq_none.1 h.1]
  rfl

/-! ### Sessions -/

/-- The listing that was learnt last in some turns. -/
def lastLearnt (c : Client) (w : World) : List Turn → Option Listing
  | [] => none
  | t :: ts => (lastLearnt c (c.turn w t) ts).or (c.learns (w.within t.around) t.call)

/-- **The registry after a session** is that of the listing which was learnt last. -/
theorem registry_play (w : World) (turns : List Turn) :
    (c.play w turns).registry = ((lastLearnt c w turns).map c.registryOf).getD w.registry := by
  induction turns generalizing w with
  | nil => rfl
  | cons t ts ih =>
    show (c.play (c.turn w t) ts).registry = _
    have hturn : (c.turn w t).registry =
        ((c.learns (w.within t.around) t.call).map c.registryOf).getD w.registry :=
      c.registry_run _ t.call
    rw [ih, hturn, lastLearnt]
    cases lastLearnt c (c.turn w t) ts <;> rfl

theorem loaded_play (h : w.registry.loaded = true) (turns : List Turn) :
    (c.play w turns).registry.loaded = true := by
  induction turns generalizing w with
  | nil => exact h
  | cons t ts ih => exact ih (loaded_run (w := w.within t.around) h t.call)

/-- What holds of the registry after a session from a world in which nothing is known. -/
structure SessionCache (c : Client) (wire : Wire) (turns : List Turn) : Prop where
  /-- The registry is empty, or the whole of the listing that was learnt last. -/
  last_learnt : (c.play (c.world wire) turns).registry =
    ((lastLearnt c (c.world wire) turns).map c.registryOf).getD {}
  /-- After one success the markets are known, and a load asks nothing and changes nothing. -/
  known_once : ∀ before t after, turns = before ++ t :: after → t.call.isLearning = true →
    (t.call.run c ((c.play (c.world wire) before).within t.around)).1.isOk = true →
    ∀ x, let w := (c.play (c.world wire) turns).within x
      marketsLoaded w = (.ok true, w) ∧ c.loadMarkets w = (.ok w.registry.markets, w)
  /-- A load or reload that fails changes nothing of what is known. -/
  failure_keeps : ∀ (x : Surroundings) (call : Call), call.isLearning = true →
    let w := (c.play (c.world wire) turns).within x
    (call.run c w).1.isOk = false → (call.run c w).2.registry = w.registry
  /-- It succeeds if the venue gives it a listing, or if it is a load and the markets are known. -/
  success_iff : ∀ (x : Surroundings) (call : Call), call.isLearning = true →
    let w := (c.play (c.world wire) turns).within x
    ((call.run c w).1.isOk = true ↔ (c.learns w call).isSome = true ∨
      call = .loadMarkets ∧ w.registry.loaded = true)
  /-- Any other call changes nothing of what is known. -/
  others_keep : ∀ (x : Surroundings) (call : Call), call.isLearning = false →
    let w := (c.play (c.world wire) turns).within x
    (call.run c w).2.registry = w.registry

/-- **The registry over a session** of any length, whatever the venue answers. -/
theorem session_cache (c : Client) (wire : Wire) (turns : List Turn) :
    SessionCache c wire turns := by
  refine ⟨registry_play _ turns, ?_, fun x call hcall => registry_of_not_isOk hcall,
    fun x call hcall => isOk_run_iff hcall, fun x call hcall => c.sameRegistry_call hcall _⟩
  rintro before t after rfl hcall hok x w
  have hknown : w.registry.loaded = true := by
    show (c.play (c.world wire) (before ++ t :: after)).registry.loaded = true
    unfold play
    rw [List.foldl_append, List.foldl_cons]
    exact loaded_play (loaded_of_isOk hcall hok) after
  refine ⟨?_, c.loadMarkets_of_loaded hknown⟩
  show (Except.ok w.registry.loaded, w) = _
  rw [hknown]

/-- A load and a reload without a connection, and markets that were set between the two. -/
theorem session_cache_of_failures :
    let c : Client := ⟨Binance.adapter, {}⟩
    let turns : List Turn := [⟨{ reachable := false }, .loadMarkets⟩,
      ⟨{}, .setMarkets [{ id := "a", symbol := "A" }] none⟩,
      ⟨{ reachable := false }, .reloadMarkets⟩]
    (c.loadMarkets ((c.world {}).within { reachable := false })).1.isOk = false ∧
      (c.play (c.world {}) turns).registry.markets.keys = ["A"] ∧ SessionCache c {} turns := by
  intro c turns
  refine ⟨?_, ?_, session_cache c {} turns⟩
  · decide +kernel
  · decide +kernel

end Client

end Bourse
