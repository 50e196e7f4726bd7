import Bourse.Limiter
import Mathlib.Tactic

/-! # The rate of a bucket

A bucket in exact arithmetic, over whole runs: steps of any kind and cost, at times that do not go
back. What it grants between two times is at most what it can hold and what it earns in between. The
potential behind the bound is what the bucket holds, together with what it is still going to earn
until the end of the window.

* `step_of_le`, `step_of_not_le`: all that a step can do;
* `Sound.run`: a bucket never holds less than nothing or more than its capacity;
* `grantedWithin_le`: the bound on every window, by induction on the run;
* `acquire_starts`: a caller waits by attempts and goes on at the one that succeeds;
* `countP_starts_le`: the bound on successful attempts at one token;
* `Sound.serves`: what one step does, whether it is covered or not. -/

namespace Bourse

namespace Bucket

/-- The tokens that a bucket holds at a time: what it held, what it has earned since, and never more
than its capacity. -/
def tokensAt (b : Bucket) (now : ℕ) : ℚ :=
  smaller (b.tokens + ((now - b.filledAt : ℕ) : ℚ) / b.interval) b.capacity

/-- The bucket at a time, after some tokens have been taken out of it. -/
def less (b : Bucket) (now : ℕ) (taken : ℚ) : Bucket :=
  { b with tokens := b.tokensAt now - taken, filledAt := now }

/-- The bucket earns tokens, and holds between none of them and its capacity. -/
structure Sound (b : Bucket) : Prop where
  interval_pos : 0 < b.interval
  tokens_nonneg : 0 ≤ b.tokens
  tokens_le : b.tokens ≤ b.capacity

namespace Event

/-- When a step takes place. -/
def time : Event → ℕ
  | .tryAcquire now _ | .attempt now _ | .available now => now

/-- The cost that a step names. -/
def cost : Event → ℚ
  | .tryAcquire _ cost | .attempt _ cost => cost
  | .available _ => 0

/-- The tokens that a step asks for, out of a bucket with this capacity. -/
def asks (capacity : ℚ) : Event → ℚ
  | .tryAcquire _ cost => cost
  | .attempt _ cost => smaller cost capacity
  | .available _ => 0

end Event

variable {b : Bucket} {e : Event} {es : List Event} {now s t : ℕ}

/-! ### The tokens at a time -/

theorem smaller_le_left (x y : ℚ) : smaller x y ≤ x := by
  unfold smaller
  split <;> linarith

theorem smaller_le_right (x y : ℚ) : smaller x y ≤ y := by
  unfold smaller
  split <;> linarith

theorem le_smaller {x y z : ℚ} (hx : z ≤ x) (hy : z ≤ y) : z ≤ smaller x y := by
  unfold smaller
  split <;> assumption

theorem tokensAt_le_capacity : b.tokensAt now ≤ b.capacity := smaller_le_right _ _

theorem tokensAt_le : b.tokensAt now ≤ b.tokens + ((now - b.filledAt : ℕ) : ℚ) / b.interval :=
  smaller_le_left _ _

theorem Sound.tokensAt_nonneg (hb : b.Sound) : 0 ≤ b.tokensAt now := by
  have hearned : 0 ≤ ((now - b.filledAt : ℕ) : ℚ) / b.interval := by positivity
  have htokens := hb.tokens_nonneg
  have hcapacity := hb.tokens_le
  exact le_smaller (by linarith) (by linarith)

theorem Sound.less (hb : b.Sound) {taken : ℚ} (h0 : 0 ≤ taken) (h : taken ≤ b.tokensAt now) :
    (b.less now taken).Sound := by
  have hcapacity : b.tokensAt now ≤ b.capacity := tokensAt_le_capacity
  constructor
  · exact hb.interval_pos
  · show 0 ≤ b.tokensAt now - taken
    linarith
  · show b.tokensAt now - taken ≤ b.capacity
    linarith

theorem sound_full {interval : ℕ} (h : 0 < interval) (capacity : ℚ) (start : ℕ) :
    (full interval capacity start).Sound := by
  constructor
  · exact h
  · show 0 ≤ larger capacity 1
    unfold larger
    split <;> linarith
  · exact le_refl (larger capacity 1)

/-! ### One step -/

theorem seconds_exact (ns : ℕ) : seconds exact ns = (ns : ℚ) / 1000000000 := by
  have hns : (ns : ℚ) = 1000000000 * (ns / 1000000000 : ℕ) + (ns % 1000000000 : ℕ) := by
    exact_mod_cast (Nat.div_add_mod ns 1000000000).symm
  unfold seconds exact
  simp only [id_eq]
  rw [hns]
  ring

theorem refill_exact (hb : 0 < b.interval) : refill exact b now = b.less now 0 := by
  unfold refill
  rw [if_neg (by omega), seconds_exact, seconds_exact]
  unfold Bucket.less tokensAt exact
  simp only [id_eq, sub_zero]
  rw [div_div_div_cancel_right₀ (by norm_num)]

theorem tryAcquire_of_le {cost : ℚ} (hb : 0 < b.interval) (h : cost ≤ b.tokensAt now) :
    tryAcquire exact b now cost = (true, b.less now cost) := by
  unfold tryAcquire
  rw [refill_exact hb]
  unfold Bucket.less exact
  simp only [sub_zero, id_eq]
  rw [if_pos h]

theorem tryAcquire_of_not_le {cost : ℚ} (hb : 0 < b.interval) (h : ¬ cost ≤ b.tokensAt now) :
    tryAcquire exact b now cost = (false, b.less now 0) := by
  unfold tryAcquire
  rw [refill_exact hb]
  unfold Bucket.less exact
  simp only [sub_zero]
  rw [if_neg h]

/-- **A step that is covered** takes what it asks for out of the refilled bucket. -/
theorem step_of_le (hb : b.Sound) (h : e.asks b.capacity ≤ b.tokensAt e.time) :
    step exact b e = (e.asks b.capacity, b.less e.time (e.asks b.capacity)) := by
  cases e with
  | tryAcquire now cost =>
    have hgot : tryAcquire exact b now cost = _ := tryAcquire_of_le hb.interval_pos h
    rw [step, hgot]
    rfl
  | attempt now cost =>
    have hgot : attempt exact b now cost = _ := tryAcquire_of_le hb.interval_pos h
    rw [step, hgot]
    rfl
  | available now =>
    rw [step, available, refill_exact hb.interval_pos]
    rfl

/-- **A step that is not covered** only refills the bucket. -/
theorem step_of_not_le (hb : b.Sound) (h : ¬ e.asks b.capacity ≤ b.tokensAt e.time) :
    step exact b e = (0, b.less e.time 0) := by
  cases e with
  | tryAcquire now cost =>
    have hgot : tryAcquire exact b now cost = _ := tryAcquire_of_not_le hb.interval_pos h
    rw [step, hgot]
    rfl
  | attempt now cost =>
    have hgot : attempt exact b now cost = _ := tryAcquire_of_not_le hb.interval_pos h
    rw [step, hgot]
    rfl
  | available now => exact absurd hb.tokensAt_nonneg h

theorem Event.asks_nonneg (hb : b.Sound) (h : 0 ≤ e.cost) : 0 ≤ e.asks b.capacity := by
  have hcapacity : 0 ≤ b.capacity := le_trans hb.tokens_nonneg hb.tokens_le
  cases e with
  | tryAcquire now cost => exact h
  | attempt now cost => exact le_smaller h hcapacity
  | available now => exact le_refl 0

/-- What a step grants is no less than nothing, and is what the bucket then holds less. -/
theorem step_cases (hb : b.Sound) (h : 0 ≤ e.cost) :
    ∃ taken, 0 ≤ taken ∧ taken ≤ b.tokensAt e.time ∧
      step exact b e = (taken, b.less e.time taken) := by
  by_cases hcovered : e.asks b.capacity ≤ b.tokensAt e.time
  · exact ⟨_, Event.asks_nonneg hb h, hcovered, step_of_le hb hcovered⟩
  · exact ⟨0, le_refl 0, hb.tokensAt_nonneg, step_of_not_le hb hcovered⟩

/-! ### Runs -/

/-- The steps come one after another from a time on, and none names a cost below zero. -/
def Follows : (now : ℕ) → List Event → Prop
  | _, [] => True
  | now, e :: es => now ≤ e.time ∧ 0 ≤ e.cost ∧ Follows e.time es

/-- **A run keeps a bucket sound**, and its capacity and interval: by induction on its steps. -/
theorem Sound.run (hb : b.Sound) (h : Follows now es) :
    (run exact b es).Sound ∧ (run exact b es).capacity = b.capacity ∧
      (run exact b es).interval = b.interval := by
  induction es generalizing b now with
  | nil => exact ⟨hb, rfl, rfl⟩
  | cons e es ih =>
    obtain ⟨-, hcost, hlater⟩ := h
    obtain ⟨taken, h0, hle, heq⟩ := step_cases hb hcost
    have hrun : Bucket.run exact b (e :: es) = Bucket.run exact (b.less e.time taken) es := by
      show Bucket.run exact (step exact b e).2 es = _
      rw [heq]
    rw [hrun]
    exact ih (hb.less h0 hle) hlater

/-- The steps behind a part of a run follow the bucket that it leaves. -/
theorem Sound.follows_run {before : List Event} (hb : b.Sound)
    (h : Follows b.filledAt (before ++ es)) :
    Follows b.filledAt before ∧ Follows (Bucket.run exact b before).filledAt es := by
  induction before generalizing b with
  | nil => exact ⟨trivial, h⟩
  | cons e before ih =>
    obtain ⟨hnow, hcost, hlater⟩ := h
    obtain ⟨taken, h0, hle, heq⟩ := step_cases hb hcost
    have hrun : Bucket.run exact b (e :: before)
        = Bucket.run exact (b.less e.time taken) before := by
      show Bucket.run exact (step exact b e).2 before = _
      rw [heq]
    obtain ⟨hbefore, hes⟩ := ih (hb.less h0 hle) hlater
    rw [hrun]
    exact ⟨⟨hnow, hcost, hbefore⟩, hes⟩

/-- The cost that a run grants from one time to another. -/
def grantedWithin (s t : ℕ) (b : Bucket) : List Event → ℚ
  | [] => 0
  | e :: es => (if s ≤ e.time ∧ e.time ≤ t then (step exact b e).1 else 0)
      + grantedWithin s t (step exact b e).2 es

theorem grantedWithin_of_late (h : Follows now es) (ht : t < now) : grantedWithin s t b es = 0 := by
  induction es generalizing b now with
  | nil => rfl
  | cons e es ih =>
    have hnow := h.1
    rw [grantedWithin, if_neg (by omega), ih h.2.2 (by omega), add_zero]

theorem earned_mono {m n : ℕ} (h : m ≤ n) (i : ℕ) : (m : ℚ) / i ≤ (n : ℚ) / i := by
  have hmn : (m : ℚ) ≤ n := by exact_mod_cast h
  gcongr

/-- What is earned up to a time and from it on is earned in all. -/
theorem earned_add {l m n : ℕ} (hlm : l ≤ m) (hmn : m ≤ n) (i : ℕ) :
    ((m - l : ℕ) : ℚ) / i + ((n - m : ℕ) : ℚ) / i = ((n - l : ℕ) : ℚ) / i := by
  rw [← add_div, ← Nat.cast_add]
  congr 2
  omega

/-- Inside a window, the bound is what the bucket holds and earns until the end of the window. -/
theorem grantedWithin_le_tokens (hb : b.Sound) (hs : s ≤ b.filledAt) (h : Follows b.filledAt es)
    (ht : b.filledAt ≤ t) :
    grantedWithin s t b es ≤ b.tokens + ((t - b.filledAt : ℕ) : ℚ) / b.interval := by
  induction es generalizing b with
  | nil =>
    have hearned : 0 ≤ ((t - b.filledAt : ℕ) : ℚ) / b.interval := by positivity
    have htokens := hb.tokens_nonneg
    rw [grantedWithin]
    linarith
  | cons e es ih =>
    obtain ⟨hnow, hcost, hes⟩ := h
    by_cases hlate : t < e.time
    · have hall : Follows (t + 1) (e :: es) := ⟨hlate, hcost, hes⟩
      have hearned : 0 ≤ ((t - b.filledAt : ℕ) : ℚ) / b.interval := by positivity
      have htokens := hb.tokens_nonneg
      rw [grantedWithin_of_late hall (by omega)]
      linarith
    · obtain ⟨taken, h0, hle, heq⟩ := step_cases hb hcost
      rw [grantedWithin, heq, if_pos (by omega)]
      have hrest := ih (hb.less h0 hle) (le_trans hs hnow) hes (by omega : e.time ≤ t)
      have hheld : b.tokensAt e.time ≤ _ := tokensAt_le
      have hearned := earned_add hnow (by omega : e.time ≤ t) b.interval
      have hrest' : grantedWithin s t (b.less e.time taken) es
          ≤ b.tokensAt e.time - taken + ((t - e.time : ℕ) : ℚ) / b.interval := hrest
      linarith

/-- **The bound on a window**: what the bucket can hold, and what it earns in the window. -/
theorem grantedWithin_le (hb : b.Sound) (h : Follows b.filledAt es) :
    grantedWithin s t b es ≤ b.capacity + ((t - s : ℕ) : ℚ) / b.interval := by
  have hbound : 0 ≤ b.capacity + ((t - s : ℕ) : ℚ) / b.interval := by
    have hearned : 0 ≤ ((t - s : ℕ) : ℚ) / b.interval := by positivity
    have htokens := hb.tokens_nonneg
    have hcapacity := hb.tokens_le
    linarith
  induction es generalizing b with
  | nil => exact hbound
  | cons e es ih =>
    obtain ⟨hnow, hcost, hes⟩ := h
    obtain ⟨taken, h0, hle, heq⟩ := step_cases hb hcost
    rw [grantedWithin, heq]
    by_cases hearly : e.time < s
    · rw [if_neg (by omega), zero_add]
      exact ih (hb.less h0 hle) hes hbound
    · by_cases hlate : t < e.time
      · rw [if_neg (by omega), zero_add, grantedWithin_of_late hes hlate]
        exact hbound
      · -- the first step in the window finds at most a full bucket
        rw [if_pos (by omega)]
        have hrest : grantedWithin s t (b.less e.time taken) es
            ≤ b.tokensAt e.time - taken + ((t - e.time : ℕ) : ℚ) / b.interval :=
          grantedWithin_le_tokens (hb.less h0 hle) (not_lt.1 hearly) hes (not_lt.1 hlate)
        have hfull : b.tokensAt e.time ≤ b.capacity := tokensAt_le_capacity
        have hearned := earned_mono (by omega : t - e.time ≤ t - s) b.interval
        linarith

/-! ### Attempts at one token -/

/-- Attempts at one token, at some times. -/
def attempts (nows : List ℕ) : List Event := nows.map fun now => .attempt now 1

/-- The times of the attempts at one token that succeed. -/
def starts (b : Bucket) : List ℕ → List ℕ
  | [] => []
  | now :: later =>
    if (attempt exact b now 1).1 then now :: starts (attempt exact b now 1).2 later
    else starts (attempt exact b now 1).2 later

theorem follows_attempts {nows : List ℕ} (h : (now :: nows).Pairwise (· ≤ ·)) :
    Follows now (attempts nows) := by
  induction nows generalizing now with
  | nil => trivial
  | cons u nows ih =>
    obtain ⟨hnow, hu⟩ := List.pairwise_cons.1 h
    exact ⟨hnow u List.mem_cons_self, zero_le_one, ih hu⟩

/-- An attempt at one token takes it if it is there, and else only refills the bucket. -/
theorem attempt_one (hb : b.Sound) (hcapacity : 1 ≤ b.capacity) (now : ℕ) :
    (1 ≤ b.tokensAt now ∧ attempt exact b now 1 = (true, b.less now 1)) ∨
      (b.tokensAt now < 1 ∧ attempt exact b now 1 = (false, b.less now 0)) := by
  have hone : smaller 1 b.capacity = 1 := if_pos hcapacity
  unfold attempt
  rw [hone]
  rcases le_or_gt 1 (b.tokensAt now) with h | h
  · exact .inl ⟨h, tryAcquire_of_le hb.interval_pos h⟩
  · exact .inr ⟨h, tryAcquire_of_not_le hb.interval_pos (not_le.2 h)⟩

theorem starts_of_granted {next : Bucket} (h : attempt exact b now 1 = (true, next))
    (later : List ℕ) : b.starts (now :: later) = now :: next.starts later := by
  rw [starts, h]
  rfl

theorem starts_of_refused {next : Bucket} (h : attempt exact b now 1 = (false, next))
    (later : List ℕ) : b.starts (now :: later) = next.starts later := by
  rw [starts, h]
  rfl

theorem run_attempts_cons (b : Bucket) (now : ℕ) (later : List ℕ) :
    run exact b (attempts (now :: later)) = run exact (attempt exact b now 1).2 (attempts later) :=
  rfl

/-- What attempts at one token are granted is the number of those that succeed. -/
theorem grantedWithin_attempts {nows : List ℕ} (hb : b.Sound) (hcapacity : 1 ≤ b.capacity) :
    grantedWithin s t b (attempts nows)
      = ((b.starts nows).countP fun u => s ≤ u ∧ u ≤ t : ℕ) := by
  have hone : smaller 1 b.capacity = 1 := if_pos hcapacity
  induction nows generalizing b with
  | nil => rfl
  | cons now nows ih =>
    have hunfold : grantedWithin s t b (attempts (now :: nows))
        = (if s ≤ now ∧ now ≤ t then
            (if (attempt exact b now 1).1 then smaller 1 b.capacity else 0) else 0)
          + grantedWithin s t (attempt exact b now 1).2 (attempts nows) := rfl
    rw [hunfold, hone]
    rcases attempt_one hb hcapacity now with ⟨hle, hgot⟩ | ⟨-, hgot⟩
    · rw [starts_of_granted hgot, hgot, ih (hb.less zero_le_one hle) hcapacity hone,
        List.countP_cons]
      by_cases hin : s ≤ now ∧ now ≤ t
      · simp [hin, add_comm]
      · simp [hin]
    · rw [starts_of_refused hgot, hgot, ih (hb.less le_rfl hb.tokensAt_nonneg) hcapacity hone]
      simp

theorem run_attempts_append (b : Bucket) (nows later : List ℕ) :
    run exact b (attempts (nows ++ later)) = run exact (run exact b (attempts nows))
      (attempts later) := by
  unfold attempts run
  rw [List.map_append, List.foldl_append]

theorem starts_append (b : Bucket) (nows later : List ℕ) :
    b.starts (nows ++ later) = b.starts nows ++ (run exact b (attempts nows)).starts later := by
  induction nows generalizing b with
  | nil => rfl
  | cons now nows ih =>
    rw [List.cons_append, starts, starts, run_attempts_cons, ih]
    split
    · rfl
    · rfl

/-- After the time that a bucket says to wait, it covers the cost. -/
theorem le_tokensAt_waitFor {cost : ℚ} (hb : b.Sound) (hcost : cost ≤ b.capacity) :
    cost ≤ b.tokensAt (b.filledAt + b.waitFor cost) := by
  have hinterval : (0 : ℚ) < b.interval := by exact_mod_cast hb.interval_pos
  have hmissing : cost - b.tokens ≤ larger (cost - b.tokens) 0 := by
    unfold larger
    split <;> linarith
  have hwait : larger (cost - b.tokens) 0 * b.interval ≤ (b.waitFor cost : ℚ) := by
    have hceil : ((larger (cost - b.tokens) 0 * b.interval).ceil : ℚ) ≤ (b.waitFor cost : ℚ) := by
      have hnat : (larger (cost - b.tokens) 0 * b.interval).ceil ≤ (b.waitFor cost : ℤ) :=
        le_trans (Int.self_le_toNat _) (by exact_mod_cast Nat.le_max_left _ _)
      exact_mod_cast hnat
    exact le_trans Rat.le_ceil hceil
  have hearned : larger (cost - b.tokens) 0 ≤ (b.waitFor cost : ℚ) / b.interval :=
    (le_div_iff₀ hinterval).2 hwait
  refine le_smaller ?_ hcost
  rw [Nat.add_sub_cancel_left]
  linarith

/-- **Waiting for a token** comes down to attempts at it, of which the last one succeeds: the first
one, or the one after the time that the bucket says to wait. -/
theorem acquire_starts (hb : b.Sound) (hcapacity : 1 ≤ b.capacity) (now : ℕ) :
    ∃ nows, (now :: nows ++ [(acquire exact b now 1).1]).Pairwise (· ≤ ·) ∧
      b.starts nows = [(acquire exact b now 1).1] ∧
      (acquire exact b now 1).2 = run exact b (attempts nows) := by
  have hone : smaller 1 b.capacity = 1 := if_pos hcapacity
  rcases attempt_one hb hcapacity now with ⟨hle, hgot⟩ | ⟨-, hgot⟩
  · have hacquire : acquire exact b now 1 = (now, b.less now 1) := by
      rw [acquire, hgot]
    refine ⟨[now], by simp [hacquire], ?_, ?_⟩
    · rw [starts_of_granted hgot, hacquire]
      rfl
    · rw [run_attempts_cons, hacquire, hgot]
      rfl
  · -- the second attempt comes when the missing part has been earned
    have hrefilled : (b.less now 0).Sound := hb.less le_rfl hb.tokensAt_nonneg
    have henough := le_tokensAt_waitFor hrefilled hcapacity
    set later := now + (b.less now 0).waitFor 1 with hlater
    have hagain : attempt exact (b.less now 0) later 1 = (true, (b.less now 0).less later 1) := by
      rcases attempt_one hrefilled hcapacity later with ⟨-, h⟩ | ⟨hlt, -⟩
      · exact h
      · exact absurd henough (not_le.2 hlt)
    have hacquire : acquire exact b now 1 = (later, (b.less now 0).less later 1) := by
      rw [acquire, hgot, hone]
      show (later, (attempt exact (b.less now 0) later 1).2) = _
      rw [hagain]
    refine ⟨[now, later], by simp [hacquire, hlater], ?_, ?_⟩
    · rw [starts_of_refused hgot, starts_of_granted hagain, hacquire]
      rfl
    · rw [run_attempts_cons, run_attempts_cons, hacquire, hgot, hagain]
      rfl

/-- **The rate of attempts at one token** on a bucket that holds one. -/
theorem countP_starts_le {interval : ℕ} (hinterval : 0 < interval) {start : ℕ} {nows : List ℕ}
    (h : (start :: nows).Pairwise (· ≤ ·)) (hst : s ≤ t) :
    ((((full interval 1 start).starts nows).countP fun u => s ≤ u ∧ u ≤ t : ℕ) : ℚ)
      ≤ 1 + ((t : ℚ) - s) / interval := by
  have hsound := sound_full hinterval 1 start
  have hle : grantedWithin s t (full interval 1 start) (attempts nows) ≤ _ :=
    grantedWithin_le hsound (follows_attempts h)
  rw [grantedWithin_attempts hsound le_rfl, Nat.cast_sub hst] at hle
  exact hle

/-! ### What a step does -/

/-- What a step of a run does: the bucket holds between nothing and its capacity after it, and the
step succeeds exactly if the tokens of the refilled bucket cover what it asks for; if it fails, none
of them is taken. -/
structure Serves (interval : ℕ) (capacity : ℚ) (b : Bucket) (e : Event) : Prop where
  /-- The bucket is refilled by what was earned since it was refilled last. -/
  refilled : b.tokensAt e.time
    = smaller (b.tokens + ((e.time : ℚ) - b.filledAt) / interval) capacity
  tokens_nonneg : 0 ≤ (step exact b e).2.tokens
  tokens_le : (step exact b e).2.tokens ≤ capacity
  tries : ∀ now cost, e = .tryAcquire now cost →
    ((tryAcquire exact b now cost).1 = true ↔ e.asks capacity ≤ b.tokensAt now)
  attempts : ∀ now cost, e = .attempt now cost →
    ((attempt exact b now cost).1 = true ↔ e.asks capacity ≤ b.tokensAt now)
  granted : e.asks capacity ≤ b.tokensAt e.time → (step exact b e).1 = e.asks capacity ∧
    (step exact b e).2.tokens = b.tokensAt e.time - e.asks capacity
  refused : b.tokensAt e.time < e.asks capacity → (step exact b e).1 = 0 ∧
    (step exact b e).2.tokens = b.tokensAt e.time

theorem fst_tryAcquire_iff {cost : ℚ} (hb : 0 < b.interval) :
    (tryAcquire exact b now cost).1 = true ↔ cost ≤ b.tokensAt now := by
  by_cases h : cost ≤ b.tokensAt now
  · rw [tryAcquire_of_le hb h]
    exact iff_of_true rfl h
  · rw [tryAcquire_of_not_le hb h]
    exact iff_of_false (by simp) h

theorem Sound.serves (hb : b.Sound) (hcost : 0 ≤ e.cost) (hnow : b.filledAt ≤ e.time) :
    Serves b.interval b.capacity b e where
  refilled := by
    unfold tokensAt
    rw [Nat.cast_sub hnow]
  tokens_nonneg := by
    obtain ⟨taken, -, hle, heq⟩ := step_cases hb hcost
    rw [heq]
    exact sub_nonneg.2 hle
  tokens_le := by
    obtain ⟨taken, h0, -, heq⟩ := step_cases hb hcost
    have hfull : b.tokensAt e.time ≤ b.capacity := tokensAt_le_capacity
    rw [heq]
    show b.tokensAt e.time - taken ≤ b.capacity
    linarith
  tries := by
    rintro now cost rfl
    exact fst_tryAcquire_iff hb.interval_pos
  attempts := by
    rintro now cost rfl
    exact fst_tryAcquire_iff hb.interval_pos
  granted := by
    intro h
    rw [step_of_le hb h]
    exact ⟨rfl, rfl⟩
  refused := by
    intro h
    rw [step_of_not_le hb (not_le.2 h)]
    exact ⟨rfl, sub_zero _⟩

end Bucket

end Bourse
