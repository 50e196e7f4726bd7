import Bourse.Client.Loading
import Mathlib.Tactic

/-! # One flight at a time

Whatever the order of their steps, tasks that load the markets of one client never ask the venue at
the same time, and a load never asks again once markets have been learnt.

The lock alone does not give the second part, since a load looks at the registry before it waits for
the lock. Two facts about the state carry it (`Reached`): the tasks with the lock are the holder
(`locked`), and a load between its second look and its write still finds nothing in the registry
(`unloaded`), since only the holder writes. The rest of `Reached` ties the state to the steps that
led to it: what a task carries has been answered, and what the registry has was written whole.

* `moved_of_step?`: what one step does;
* `Reached.step`, `reached`: what every step keeps, and what every schedule leaves behind;
* `single_flight`: the property. -/

namespace Bourse

/-- Whether a task at this stage has looked for the last time and has yet to write. -/
def LoadStage.isLearning : LoadStage → Bool
  | .asking | .fetching | .writing _ => true
  | _ => false

/-- Whether a step writes the registry. -/
def LoadEvent.isWrite : LoadEvent → Bool
  | .write _ => true
  | _ => false

theorem LoadEvent.isWrite_iff {e : LoadEvent} : e.isWrite = true ↔ ∃ i, e = .write i := by
  cases e <;> simp [isWrite]

theorem LoadStage.hasLock_of_isLearning {stage : LoadStage} (h : stage.isLearning = true) :
    stage.hasLock = true := by
  cases stage <;> first | rfl | cases h

namespace Loading

/-! ### Steps -/

/-- What a step does to the stage of the task that takes it, to the registry and to the lock. -/
inductive Moves (s : Loading) (i : ℕ) (mode : LoadMode) :
    LoadEvent → LoadStage → LoadStage → Registry → Option ℕ → Prop
  | lookKnown (h : s.registry.loaded = true) :
      Moves s i mode (.look i) .looking (.finished (.ok s.registry.markets)) s.registry s.holder
  | lookUnknown (h : s.registry.loaded = false) :
      Moves s i mode (.look i) .looking .waiting s.registry s.holder
  | lockLoad (h : s.holder = none) (hm : mode = .load) :
      Moves s i mode (.lock i) .waiting .lookingAgain s.registry (some i)
  | lockReload (h : s.holder = none) (hm : mode = .reload) :
      Moves s i mode (.lock i) .waiting .asking s.registry (some i)
  | lookAgainKnown (h : s.registry.loaded = true) :
      Moves s i mode (.lookAgain i) .lookingAgain (.leaving (.ok s.registry.markets)) s.registry
        s.holder
  | lookAgainUnknown (h : s.registry.loaded = false) :
      Moves s i mode (.lookAgain i) .lookingAgain .asking s.registry s.holder
  | ask : Moves s i mode (.ask i) .asking .fetching s.registry s.holder
  | answer (listing : Listing) :
      Moves s i mode (.answer i (.ok listing)) .fetching (.writing listing) s.registry s.holder
  | fail (e : Error) :
      Moves s i mode (.answer i (.error e)) .fetching (.leaving (.error e)) s.registry s.holder
  | write (listing : Listing) {r : Registry}
      (h : r = .ofMarkets listing.1 listing.2 s.precision) :
      Moves s i mode (.write i) (.writing listing) (.leaving (.ok r.markets)) r s.holder
  | unlock (result : Result (Table Market)) :
      Moves s i mode (.unlock i) (.leaving result) (.finished result) s.registry none
  | abandon {stage : LoadStage} (h : stage.isOver = false) :
      Moves s i mode (.abandon i) stage .abandoned s.registry
        (if stage.hasLock then none else s.holder)

theorem stage?_eq_some {s : Loading} {i : ℕ} {stage : LoadStage} :
    s.stage? i = some stage ↔ ∃ t, s.tasks[i]? = some t ∧ t.stage = stage := by
  unfold stage?
  rw [Option.map_eq_some_iff]

/-- What a step does, as a statement about the states before and after it. -/
def Moved (s : Loading) (e : LoadEvent) (s' : Loading) : Prop :=
  ∃ i t stage registry holder, s.tasks[i]? = some t ∧
    Moves s i t.mode e t.stage stage registry holder ∧
      s' = { s.moveTo i stage with registry, holder }

theorem Moves.moved {s s' : Loading} {e : LoadEvent} {i : ℕ} {old new : LoadStage}
    {registry : Registry} {holder : Option ℕ} (hstage : s.stage? i = some old)
    (hmoves : ∀ mode, Moves s i mode e old new registry holder)
    (h : some { s.moveTo i new with registry, holder } = some s') : Moved s e s' := by
  obtain ⟨t, ht, rfl⟩ := stage?_eq_some.1 hstage
  exact ⟨i, t, new, registry, holder, ht, hmoves t.mode, (Option.some.inj h).symm⟩

/-- **A step** moves one task. -/
theorem moved_of_step? {s s' : Loading} {e : LoadEvent} (h : s.step? e = some s') :
    Moved s e s' := by
  cases e with
  | look i =>
    simp only [step?] at h
    split at h
    · rename_i hstage
      cases hl : s.registry.loaded <;> rw [hl] at h
      · exact Moves.moved hstage (fun _ => .lookUnknown hl) h
      · exact Moves.moved hstage (fun _ => .lookKnown hl) h
    · cases h
  | lock i =>
    simp only [step?] at h
    split at h
    · rename_i mode ht hfree
      cases mode with
      | load => exact ⟨i, _, _, _, _, ht, .lockLoad hfree rfl, (Option.some.inj h).symm⟩
      | reload => exact ⟨i, _, _, _, _, ht, .lockReload hfree rfl, (Option.some.inj h).symm⟩
    · cases h
  | lookAgain i =>
    simp only [step?] at h
    split at h
    · rename_i hstage
      cases hl : s.registry.loaded <;> rw [hl] at h
      · exact Moves.moved hstage (fun _ => .lookAgainUnknown hl) h
      · exact Moves.moved hstage (fun _ => .lookAgainKnown hl) h
    · cases h
  | ask i =>
    simp only [step?] at h
    split at h
    · rename_i hstage
      exact Moves.moved hstage (fun _ => .ask) h
    · cases h
  | answer i outcome =>
    simp only [step?] at h
    split at h
    · rename_i hstage
      cases outcome with
      | ok listing => exact Moves.moved hstage (fun _ => .answer listing) h
      | error e => exact Moves.moved hstage (fun _ => .fail e) h
    · cases h
  | write i =>
    simp only [step?] at h
    split at h
    · rename_i markets currencies hstage
      exact Moves.moved hstage (fun _ => .write (markets, currencies) rfl) h
    · cases h
  | unlock i =>
    simp only [step?] at h
    split at h
    · rename_i result hstage
      exact Moves.moved hstage (fun _ => .unlock result) h
    · cases h
  | abandon i =>
    simp only [step?] at h
    split at h
    · rename_i stage hstage
      cases hover : stage.isOver <;> rw [hover] at h
      · exact Moves.moved hstage (fun _ => .abandon hover) h
      · cases h
    · cases h

/-- Moving one task leaves the others where they were. -/
theorem tasks_moveTo {s : Loading} {i j : ℕ} {t t' : LoadTask} {stage : LoadStage}
    (ht : s.tasks[i]? = some t) (h : (s.moveTo i stage).tasks[j]? = some t') :
    j = i ∧ t' = { t with stage } ∨ j ≠ i ∧ s.tasks[j]? = some t' := by
  unfold moveTo at h
  by_cases hij : i = j
  · subst hij
    rw [List.getElem?_modify_eq, ht] at h
    exact .inl ⟨rfl, (Option.some.inj h).symm⟩
  · rw [List.getElem?_modify_ne _ _ hij] at h
    exact .inr ⟨Ne.symm hij, h⟩

/-! ### The lock -/

section
variable {s : Loading} {i : ℕ} {mode : LoadMode} {e : LoadEvent} {old new : LoadStage}
  {registry : Registry} {holder : Option ℕ} (h : Moves s i mode e old new registry holder)
include h

/-- The task that moves has the lock if it is the holder. -/
theorem Moves.hasLock_iff (hold : old.hasLock = true ↔ s.holder = some i) :
    new.hasLock = true ↔ holder = some i := by
  cases h with
  | abandon =>
    split_ifs with hlock
    · simp [LoadStage.hasLock]
    · simp only [LoadStage.hasLock, Bool.false_eq_true, false_iff]
      exact fun h0 => hlock (hold.2 h0)
  | lockLoad => simp [LoadStage.hasLock]
  | lockReload => simp [LoadStage.hasLock]
  | unlock => simp [LoadStage.hasLock]
  | _ => exact hold

/-- Of the other tasks none gets the lock, and none loses it. -/
theorem Moves.holder_iff (hold : old.hasLock = true ↔ s.holder = some i) {j : ℕ} (hj : j ≠ i) :
    holder = some j ↔ s.holder = some j := by
  cases h with
  | lockLoad hfree =>
    rw [hfree]
    simp [hj.symm]
  | lockReload hfree =>
    rw [hfree]
    simp [hj.symm]
  | unlock =>
    -- the lock that is given back was this task's own
    rw [hold.1 rfl]
    simp [hj.symm]
  | abandon =>
    split_ifs with hlock
    · rw [hold.1 hlock]
      simp [hj.symm]
    · rfl
  | _ => rfl

/-- Only the holder changes the registry. -/
theorem Moves.registry_eq_or : registry = s.registry ∨ old.hasLock = true := by
  cases h with
  | write => exact .inr rfl
  | _ => exact .inl rfl

/-- The markets are known once they have been written. -/
theorem Moves.loaded_iff :
    registry.loaded = true ↔ s.registry.loaded = true ∨ ∃ j, e = .write j := by
  cases h with
  | write _ hr => simp [hr, Registry.ofMarkets]
  | _ => simp

/-- **The second look**: a load goes on to learn the markets only if they are unknown. -/
theorem Moves.unloaded (hm : mode = .load)
    (hold : old.isLearning = true → s.registry.loaded = false) (hnew : new.isLearning = true) :
    registry.loaded = false := by
  cases h with
  | lookAgainUnknown hl => exact hl
  | ask => exact hold rfl
  | answer => exact hold rfl
  | lockReload _ hr =>
    rw [hm] at hr
    cases hr
  | _ => cases hnew

end

/-! ### The steps before a state -/

/-- The markets are those of one listing that was asked for, answered and written, in this order. -/
def Learnt (precision : PrecisionMode) (events : List LoadEvent) (markets : Table Market) : Prop :=
  ∃ i listing, markets = (Registry.ofMarkets listing.1 listing.2 precision).markets ∧
    [.ask i, .answer i (.ok listing), .write i].Sublist events

/-- What the stage of a task says about the steps before. -/
def Carries (precision : PrecisionMode) (events : List LoadEvent) (i : ℕ) : LoadStage → Prop
  | .fetching => .ask i ∈ events
  | .writing listing => [.ask i, .answer i (.ok listing)].Sublist events
  | .leaving (.ok markets) | .finished (.ok markets) => Learnt precision events markets
  | _ => True

section
variable {precision : PrecisionMode} {events : List LoadEvent} {markets : Table Market}

theorem Learnt.append (h : Learnt precision events markets) (e : LoadEvent) :
    Learnt precision (events ++ [e]) markets := by
  obtain ⟨i, listing, hm, hsub⟩ := h
  exact ⟨i, listing, hm, hsub.trans (List.sublist_append_left events [e])⟩

theorem Carries.append {i : ℕ} {stage : LoadStage} (h : Carries precision events i stage)
    (e : LoadEvent) : Carries precision (events ++ [e]) i stage := by
  unfold Carries at h ⊢
  split at h
  · exact List.mem_append_left _ h
  · exact h.trans (List.sublist_append_left events [e])
  · exact h.append e
  · exact h.append e
  · trivial

variable {s : Loading} {i : ℕ} {mode : LoadMode} {e : LoadEvent} {old new : LoadStage}
  {registry : Registry} {holder : Option ℕ} (h : Moves s i mode e old new registry holder)
  (hp : s.precision = precision)
  (hknown : s.registry.loaded = true → Learnt precision events s.registry.markets)
  (hold : Carries precision events i old)
include h hp hknown hold

/-- What a task takes along has been answered. -/
theorem Moves.carries : Carries precision (events ++ [e]) i new := by
  cases h with
  | lookKnown hl => exact (hknown hl).append _
  | lookAgainKnown hl => exact (hknown hl).append _
  | ask => exact List.mem_append_right _ List.mem_cons_self
  | answer => exact (List.singleton_sublist.2 hold).append (.refl _)
  | write listing hr => exact ⟨i, listing, by rw [hr, hp], List.Sublist.append hold (.refl _)⟩
  | unlock result =>
    cases result with
    | ok markets => exact Learnt.append hold _
    | error e => trivial
  | _ => trivial

/-- What the registry has was written whole. -/
theorem Moves.known (hl : registry.loaded = true) :
    Learnt precision (events ++ [e]) registry.markets := by
  cases h with
  | write listing hr => exact ⟨i, listing, by rw [hr, hp], List.Sublist.append hold (.refl _)⟩
  | _ => exact (hknown hl).append _

end

/-! ### What every schedule leaves behind -/

/-- The state after some steps of tasks with these modes. -/
structure Reached (precision : PrecisionMode) (modes : List LoadMode) (events : List LoadEvent)
    (s : Loading) : Prop where
  precision_eq : s.precision = precision
  mode_eq : ∀ {i : ℕ} {t : LoadTask}, s.tasks[i]? = some t → modes[i]? = some t.mode
  locked : ∀ {i : ℕ} {t : LoadTask}, s.tasks[i]? = some t →
    (t.stage.hasLock = true ↔ s.holder = some i)
  unloaded : ∀ {i : ℕ} {t : LoadTask}, s.tasks[i]? = some t → t.mode = .load →
    t.stage.isLearning = true → s.registry.loaded = false
  loaded_iff : s.registry.loaded = true ↔ ∃ i, .write i ∈ events
  known : s.registry.loaded = true → Learnt precision events s.registry.markets
  carries : ∀ {i : ℕ} {t : LoadTask}, s.tasks[i]? = some t → Carries precision events i t.stage

variable {precision : PrecisionMode} {modes : List LoadMode} {events : List LoadEvent}
  {s s' : Loading} {e : LoadEvent}

theorem reached_start : Reached precision modes [] (start precision modes) := by
  have htask : ∀ {i : ℕ} {t : LoadTask}, (start precision modes).tasks[i]? = some t →
      ∃ mode, modes[i]? = some mode ∧ t = LoadTask.start mode := by
    intro i t h
    simp only [start, List.getElem?_map, Option.map_eq_some_iff] at h
    obtain ⟨mode, hmode, rfl⟩ := h
    exact ⟨mode, hmode, rfl⟩
  refine ⟨rfl, ?_, ?_, fun _ _ _ => rfl, by simp [start], by simp [start], ?_⟩
  · intro i t h
    obtain ⟨mode, hmode, rfl⟩ := htask h
    exact hmode
  · intro i t h
    obtain ⟨mode, -, rfl⟩ := htask h
    cases mode <;> simp [LoadTask.start, LoadStage.hasLock, start]
  · intro i t h
    obtain ⟨mode, -, rfl⟩ := htask h
    cases mode <;> trivial

/-- **What every step keeps.** -/
theorem Reached.step (h : Reached precision modes events s) (hstep : s.step? e = some s') :
    Reached precision modes (events ++ [e]) s' := by
  obtain ⟨i, t, new, registry, holder, ht, hmoves, rfl⟩ := moved_of_step? hstep
  have hlock := h.locked ht
  have hcarries := h.carries ht
  refine ⟨h.precision_eq, ?_, ?_, ?_, ?_, hmoves.known h.precision_eq h.known hcarries, ?_⟩
  · intro j t' ht'
    rcases tasks_moveTo ht ht' with ⟨rfl, rfl⟩ | ⟨-, hj⟩
    · exact (h.mode_eq ht :)
    · exact h.mode_eq hj
  · intro j t' ht'
    rcases tasks_moveTo ht ht' with ⟨rfl, rfl⟩ | ⟨hne, hj⟩
    · exact hmoves.hasLock_iff hlock
    · exact (h.locked hj).trans (hmoves.holder_iff hlock hne).symm
  · intro j t' ht' hload hlearning
    rcases tasks_moveTo ht ht' with ⟨rfl, rfl⟩ | ⟨hne, hj⟩
    · exact hmoves.unloaded hload (h.unloaded ht hload) hlearning
    · -- the other task has the lock, so that this one cannot have written
      rcases hmoves.registry_eq_or with heq | hhas
      · show registry.loaded = false
        rw [heq]
        exact h.unloaded hj hload hlearning
      · have hother := (h.locked hj).1 (LoadStage.hasLock_of_isLearning hlearning)
        rw [hlock.1 hhas] at hother
        exact absurd (Option.some.inj hother).symm hne
  · show registry.loaded = true ↔ _
    rw [hmoves.loaded_iff, h.loaded_iff]
    simp only [List.mem_append, List.mem_singleton, exists_or, eq_comm]
  · intro j t' ht'
    rcases tasks_moveTo ht ht' with ⟨rfl, rfl⟩ | ⟨-, hj⟩
    · exact hmoves.carries h.precision_eq h.known hcarries
    · exact (h.carries hj).append e

theorem run?_append_cons {s₀ : Loading} {before after : List LoadEvent}
    (h : s₀.run? (before ++ e :: after) = some s) :
    ∃ s₁ s₂, s₀.run? before = some s₁ ∧ s₁.step? e = some s₂ ∧ s₂.run? after = some s := by
  rw [run?, List.foldlM_append, Option.bind_eq_bind, Option.bind_eq_some_iff] at h
  obtain ⟨s₁, hbefore, hrest⟩ := h
  rw [List.foldlM_cons, Option.bind_eq_bind, Option.bind_eq_some_iff] at hrest
  obtain ⟨s₂, hstep, hafter⟩ := hrest
  exact ⟨s₁, s₂, hbefore, hstep, hafter⟩

/-- **What every schedule leaves behind.** -/
theorem reached (h : (start precision modes).run? events = some s) :
    Reached precision modes events s := by
  induction events using List.reverseRecOn generalizing s with
  | nil =>
    rw [run?, List.foldlM_nil] at h
    obtain rfl := Option.some.inj h
    exact reached_start
  | append_singleton before e ih =>
    obtain ⟨s₁, s₂, hbefore, hstep, hend⟩ := run?_append_cons h
    obtain rfl := Option.some.inj hend
    exact (ih hbefore).step hstep

/-! ### The property -/

/-- What holds of steps that led tasks with these modes to the state `s`. -/
structure SingleFlight (precision : PrecisionMode) (modes : List LoadMode)
    (events : List LoadEvent) (s : Loading) : Prop where
  /-- At most one task waits for an answer of the venue. -/
  one_fetch : ∀ i j, s.stage? i = some .fetching → s.stage? j = some .fetching → i = j
  /-- A load asks only as long as nothing has been written. -/
  ask_first : ∀ before i after, events = before ++ .ask i :: after → modes[i]? = some .load →
    ∀ j, .write j ∉ before
  /-- Loads alone write at most once. -/
  write_once : (∀ mode ∈ modes, mode = .load) → events.countP LoadEvent.isWrite ≤ 1
  /-- A result is the whole index of one listing, which was asked for, answered and written. -/
  whole : ∀ i markets, s.stage? i = some (.finished (.ok markets)) →
    Learnt precision events markets

/-- No load is between its last look and its write once the markets are written. -/
theorem Reached.not_mem_write (h : Reached precision modes events s) {i : ℕ} {t : LoadTask}
    (ht : s.tasks[i]? = some t) (hload : t.mode = .load) (hlearning : t.stage.isLearning = true)
    (j : ℕ) : .write j ∉ events := by
  intro hj
  have := h.loaded_iff.2 ⟨j, hj⟩
  rw [h.unloaded ht hload hlearning] at this
  cases this

/-- Asking and writing are steps of a task that is learning the markets. -/
theorem isLearning_of_step? (h : s.step? e = some s') {i : ℕ} (he : e = .ask i ∨ e = .write i) :
    ∃ t, s.tasks[i]? = some t ∧ t.stage.isLearning = true := by
  obtain ⟨k, t, new, registry, holder, ht, hmoves, -⟩ := moved_of_step? h
  generalize hold : t.stage = old at hmoves
  refine ⟨t, ?_, ?_⟩
  · rcases he with rfl | rfl <;> cases hmoves <;> exact ht
  · rw [hold]
    rcases he with rfl | rfl <;> cases hmoves <;> rfl

/-- A load neither asks nor writes after a write. -/
theorem not_mem_write_before {before after : List LoadEvent} {i : ℕ}
    (h : (start precision modes).run? (before ++ e :: after) = some s)
    (he : e = .ask i ∨ e = .write i) (hload : modes[i]? = some .load) (j : ℕ) :
    .write j ∉ before := by
  obtain ⟨s₁, s₂, hbefore, hstep, -⟩ := run?_append_cons h
  obtain ⟨t, ht, hlearning⟩ := isLearning_of_step? hstep he
  have hmode : t.mode = .load := by
    have := (reached hbefore).mode_eq ht
    rw [hload] at this
    exact (Option.some.inj this).symm
  exact (reached hbefore).not_mem_write ht hmode hlearning j

/-- Loads alone write at most once. -/
theorem countP_isWrite_le_one (hmodes : ∀ mode ∈ modes, mode = .load)
    (h : (start precision modes).run? events = some s) : events.countP LoadEvent.isWrite ≤ 1 := by
  induction events using List.reverseRecOn generalizing s with
  | nil => simp
  | append_singleton before e ih =>
    obtain ⟨s₁, s₂, hbefore, hstep, -⟩ := run?_append_cons h
    rw [List.countP_append, List.countP_singleton]
    by_cases hwrite : e.isWrite = true
    · obtain ⟨i, rfl⟩ := LoadEvent.isWrite_iff.1 hwrite
      obtain ⟨t, ht, -⟩ := isLearning_of_step? hstep (.inr rfl)
      have hmode := (reached hbefore).mode_eq ht
      rw [hmodes t.mode (List.mem_of_getElem? hmode)] at hmode
      -- a second write would have come after the first
      have hnone : before.countP LoadEvent.isWrite = 0 := by
        rw [List.countP_eq_zero]
        intro e he hw
        obtain ⟨j, rfl⟩ := LoadEvent.isWrite_iff.1 hw
        exact not_mem_write_before h (.inr rfl) hmode j he
      rw [hnone, if_pos hwrite]
    · rw [if_neg hwrite]
      exact ih hbefore

/-- **One flight at a time**, in every order of the steps of any tasks. -/
theorem single_flight (h : (start precision modes).run? events = some s) :
    SingleFlight precision modes events s := by
  have hreached := reached h
  refine ⟨?_, ?_, fun hmodes => countP_isWrite_le_one hmodes h, ?_⟩
  · intro i j hi hj
    obtain ⟨t, ht, hti⟩ := stage?_eq_some.1 hi
    obtain ⟨t', ht', htj⟩ := stage?_eq_some.1 hj
    have h1 := (hreached.locked ht).1 (by rw [hti]; rfl)
    have h2 := (hreached.locked ht').1 (by rw [htj]; rfl)
    rw [h1] at h2
    exact Option.some.inj h2
  · rintro before i after rfl hload
    exact not_mem_write_before h (.inl rfl) hload
  · intro i markets hi
    obtain ⟨t, ht, hti⟩ := stage?_eq_some.1 hi
    have := hreached.carries ht
    rw [hti] at this
    exact this

/-- Two loads and a reload: the first load fails, the second one asks again and a late one finds the
markets; the reload is given up. -/
theorem single_flight_of_retry : ∃ events s, events.countP LoadEvent.isWrite = 1 ∧
    (start .tickSize [.load, .load, .reload, .load]).run? events = some s ∧
    SingleFlight .tickSize [.load, .load, .reload, .load] events s :=
  ⟨[.look 0, .look 1, .lock 0, .lookAgain 0, .ask 0, .answer 0 (.error (.internal "down")),
      .unlock 0, .lock 1, .lookAgain 1, .ask 1,
      .answer 1 (.ok ([{ id := "a", symbol := "A" }], none)), .write 1, .look 3, .unlock 1,
      .lock 2, .ask 2, .abandon 2],
    _, rfl, rfl, single_flight rfl⟩

end Loading

end Bourse
