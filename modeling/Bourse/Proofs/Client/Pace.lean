import Bourse.Proofs.Client.Calls
import Bourse.Proofs.Limiter

/-! # The pace of a client

A client that limits its requests takes a token before it hands one to the wire. `OnPace` says that
requests were handed over at successful attempts at one token, and that the bucket is what these
attempts have left. A delivery keeps this (`keeping_deliver`), and so does a session of calls that
come one after another (`play_of_keeping`). The bound on attempts is therefore one on requests
(`countP_departures_le`), and `keeps_rate` has both. -/

namespace Bourse

namespace Session

/-- A property of the world that is kept. -/
def Keeping (I : World → Prop) (w w' : World) : Prop := I w → I w'

instance {I : World → Prop} : IsPreorder World (Keeping I) where
  refl _ := id
  trans _ _ _ h h' := h' ∘ h

end Session

namespace Client

open Session Bucket

/-! ### Calls that come one after another -/

/-- No call has its turn before the one in front of it is done with waiting. -/
def OneByOne (c : Client) (w : World) : List Turn → Prop
  | [] => True
  | t :: ts => w.elapsed ≤ t.around.elapsed ∧ OneByOne c (c.turn w t) ts

instance decidableOneByOne (c : Client) (w : World) :
    (turns : List Turn) → Decidable (c.OneByOne w turns)
  | [] => .isTrue trivial
  | t :: ts =>
    have := decidableOneByOne c (c.turn w t) ts
    inferInstanceAs (Decidable (w.elapsed ≤ t.around.elapsed ∧ c.OneByOne (c.turn w t) ts))

/-- **A session** keeps what its calls keep and what the passing of time does, by induction on its
turns. -/
theorem play_of_keeping {c : Client} {I : World → Prop}
    (hcall : ∀ call : Call, (call.run c).Along (Keeping I))
    (hwithin : ∀ (w : World) (x : Surroundings), w.elapsed ≤ x.elapsed → I w → I (w.within x))
    {w : World} (hw : I w) {turns : List Turn} (h : c.OneByOne w turns) : I (c.play w turns) := by
  induction turns generalizing w with
  | nil => exact hw
  | cons t ts ih =>
    obtain ⟨htime, hlater⟩ := h
    exact ih (hcall t.call _ (hwithin w t.around htime hw)) hlater

/-! ### The pace -/

variable {c : Client} {interval before : ℕ} {w : World}

/-- Requests were handed to the wire, each at a successful attempt at one token of a bucket that was
full at the beginning, and the attempts have left the bucket that there is. -/
structure OnPace (interval before : ℕ) (w : World) : Prop where
  /-- The time of each request has been recorded, but for some before the session. -/
  recorded : w.wire.handed.length = w.departures.length + before
  attempted : ∃ nows, (0 :: nows).Pairwise (· ≤ ·) ∧ (∀ u ∈ nows, u ≤ w.elapsed) ∧
    w.bucket = some (Bucket.run exact (full interval 1 0) (attempts nows)) ∧
    w.departures = ((full interval 1 0).starts nows).reverse

theorem onPace_world (wire : Wire) (henabled : c.config.enableRateLimit = true)
    (hlimit : millisSpan c.rateLimit = interval) :
    OnPace interval wire.handed.length (c.world wire) where
  recorded := (Nat.zero_add _).symm
  attempted := by
    refine ⟨[], by simp, by simp, ?_, rfl⟩
    show c.bucket = _
    rw [Client.bucket, if_pos henabled, hlimit]
    rfl

theorem OnPace.within (h : OnPace interval before w) {x : Surroundings}
    (htime : w.elapsed ≤ x.elapsed) : OnPace interval before (w.within x) where
  recorded := h.recorded
  attempted := by
    obtain ⟨nows, hsorted, hpast, hrest⟩ := h.attempted
    exact ⟨nows, hsorted, fun u hu => (hpast u hu).trans htime, hrest⟩

/-- **A delivery keeps the pace**: it waits by attempts, and goes on at the one that succeeds. -/
theorem keeping_deliver (hinterval : 0 < interval) (p : PreparedRequest) :
    (c.deliver p).Along (Keeping (OnPace interval before)) := by
  rintro w ⟨hrecorded, nows, hsorted, hpast, hbucket, hdepartures⟩
  obtain ⟨hsound, hcapacity, -⟩ := (sound_full hinterval 1 0).run (follows_attempts hsorted)
  obtain ⟨waited, hordered, hgone, hrun⟩ :=
    acquire_starts hsound (le_of_eq hcapacity.symm) w.elapsed
  set gone := (acquire exact (Bucket.run exact (full interval 1 0) (attempts nows)) w.elapsed 1).1
  have hthrottle : (throttle 1 w).2 = { w with
      bucket := some (Bucket.run exact (full interval 1 0) (attempts (nows ++ waited)))
      elapsed := gone } := by
    unfold throttle
    rw [hbucket, run_attempts_append, ← hrun]
  obtain ⟨hlater, -, hlast⟩ := List.pairwise_append.1 hordered
  obtain ⟨hnext, hwaited⟩ := List.pairwise_cons.1 hlater
  have hnow : w.elapsed ≤ gone := hlast _ List.mem_cons_self gone (List.mem_singleton_self _)
  rw [deliver_apply, hthrottle]
  constructor
  · show (w.wire.transmit c.config.http p).2.handed.length = w.departures.length + 1 + before
    rw [handed_transmit, List.length_cons, hrecorded]
    omega
  · refine ⟨nows ++ waited, ?_, fun u hu => ?_, rfl, ?_⟩
    · -- what has been tried so far is in the past, and what the request waits for is to come
      refine List.pairwise_append.2 ⟨hsorted, hwaited, fun u hu v hv => le_trans ?_ (hnext v hv)⟩
      rcases List.mem_cons.1 hu with rfl | hu
      · exact Nat.zero_le _
      · exact hpast u hu
    · rcases List.mem_append.1 hu with hu | hu
      · exact (hpast u hu).trans hnow
      · exact hlast u (List.mem_cons_of_mem _ hu) gone (List.mem_singleton_self _)
    · show gone :: w.departures = _
      rw [starts_append, hgone, List.reverse_append, hdepartures]
      rfl

/-- **The requests of a session** of calls that come one after another, whatever they are and
whatever is answered: each has been recorded with its time, and the times keep the rate. -/
theorem countP_departures_le (hinterval : 0 < interval) (wire : Wire)
    (henabled : c.config.enableRateLimit = true) (hlimit : millisSpan c.rateLimit = interval)
    {turns : List Turn} (h : c.OneByOne (c.world wire) turns) :
    let w := c.play (c.world wire) turns
    w.wire.handed.length = w.departures.length + wire.handed.length ∧
      ∀ s t, s ≤ t → ((w.departures.countP fun u => s ≤ u ∧ u ≤ t : ℕ) : ℚ)
        ≤ 1 + ((t : ℚ) - s) / interval := by
  have hpace : OnPace interval wire.handed.length (c.play (c.world wire) turns) :=
    play_of_keeping (along_call (fun _ p _ => keeping_deliver hinterval p)
        fun w registry hw => ⟨hw.recorded, hw.attempted⟩)
      (fun w x htime hw => hw.within htime) (onPace_world wire henabled hlimit) h
  obtain ⟨nows, hsorted, -, -, hdepartures⟩ := hpace.attempted
  refine ⟨hpace.recorded, fun s t hst => ?_⟩
  rw [hdepartures, List.countP_reverse]
  exact countP_starts_le hinterval hsorted hst

end Client

/-! ### The property -/

namespace Bucket

/-- **The throttle keeps its rate.** For every interval, every capacity, which counts as one at
least, and every run from the making of the bucket on: each step serves as it should, and what is
granted from one time to another is at most the capacity and what is earned in between. So of
attempts at one token, whoever makes them and in whatever order, no more succeed in a window than
one and one for each interval. And over a session of a client that limits its requests, whatever its
calls are and whatever the venue answers, no more requests than that are handed to the wire in a
window. -/
theorem keeps_rate {interval : ℕ} (hinterval : 0 < interval) (capacity : ℚ) (start : ℕ) :
    (∀ before e later, Follows start (before ++ e :: later) →
      Serves interval (larger capacity 1) (run exact (full interval capacity start) before) e) ∧
    (∀ events, Follows start events → ∀ s t, s ≤ t →
      grantedWithin s t (full interval capacity start) events
        ≤ larger capacity 1 + ((t : ℚ) - s) / interval) ∧
    (∀ nows, (start :: nows).Pairwise (· ≤ ·) → ∀ s t, s ≤ t →
      ((((full interval 1 start).starts nows).countP fun u => s ≤ u ∧ u ≤ t : ℕ) : ℚ)
        ≤ 1 + ((t : ℚ) - s) / interval) ∧
    (∀ (c : Client) (wire : Wire) (turns : List Turn), c.config.enableRateLimit = true →
      millisSpan c.rateLimit = interval → c.OneByOne (c.world wire) turns →
      let w := c.play (c.world wire) turns
      w.wire.handed.length = w.departures.length + wire.handed.length ∧
        ∀ s t, s ≤ t → ((w.departures.countP fun u => s ≤ u ∧ u ≤ t : ℕ) : ℚ)
          ≤ 1 + ((t : ℚ) - s) / interval) := by
  have hsound := sound_full hinterval capacity start
  refine ⟨?_, ?_, ?_, ?_⟩
  · intro before e later h
    obtain ⟨hbefore, hnow, hcost, -⟩ := hsound.follows_run h
    obtain ⟨hreached, hcapacity, hsame⟩ := hsound.run hbefore
    have hserves := hreached.serves hcost hnow
    rw [hcapacity, hsame] at hserves
    exact hserves
  · intro events h s t hst
    have hle : grantedWithin s t (full interval capacity start) events ≤ _ :=
      grantedWithin_le hsound h
    rw [Nat.cast_sub hst] at hle
    exact hle
  · intro nows h s t hst
    exact countP_starts_le hinterval h hst
  · intro c wire turns henabled hlimit h
    exact Client.countP_departures_le hinterval wire henabled hlimit h

/-- Steps at a bucket of two tokens: it is emptied, it refuses, it is looked at, and it gives out
what it has earned. -/
def burst : List Event :=
  [.tryAcquire 0 2, .attempt 0 50, .available 20000000, .tryAcquire 60000000 1]

theorem follows_burst : Follows 0 burst := by
  simp [Follows, burst, Event.time, Event.cost]

/-- Three pings, of which two come at once, and before the last of them a request that cannot be
signed. -/
def pings : List Turn :=
  let ping : Request := { path := "ping", tier := "public" }
  [⟨{}, .send ping⟩, ⟨{}, .fetch "publicGetPing" .empty⟩,
    ⟨{ elapsed := 70000000 }, .send { path := "account", tier := "private" }⟩,
    ⟨{ elapsed := 80000000 }, .send ping⟩]

/-- A client that limits its requests: the interval of Binance is fifty milliseconds. -/
def pinger : Client := ⟨Binance.adapter, {}⟩

/-- What the pings leave. -/
def pinged : World := pinger.play (pinger.world {}) pings

/-- The second ping waits for one interval and the third one for what is left of the next. -/
theorem departures_pings : pinger.OneByOne (pinger.world {}) pings ∧
    pinged.departures = [100000000, 50000000, 0] := by
  decide +kernel

/-- The steps of the burst, attempts of several callers, and the pings of a limited client. -/
theorem keeps_rate_of_burst :
    0 < 50000000 ∧ Follows 0 burst ∧
    Serves 50000000 (larger 2 1) (run exact (full 50000000 2 0) [.tryAcquire 0 2]) (.attempt 0 50) ∧
    grantedWithin 0 60000000 (full 50000000 2 0) burst
      ≤ larger 2 1 + (((60000000 : ℕ) : ℚ) - (0 : ℕ)) / (50000000 : ℕ) ∧
    (0 :: [0, 0, 49999999]).Pairwise (· ≤ ·) ∧
    ((((full 50000000 1 0).starts [0, 0, 49999999]).countP fun u => 0 ≤ u ∧ u ≤ 49999999 : ℕ) : ℚ)
      ≤ 1 + (((49999999 : ℕ) : ℚ) - (0 : ℕ)) / (50000000 : ℕ) ∧
    pinger.config.enableRateLimit = true ∧ millisSpan pinger.rateLimit = 50000000 ∧
    pinger.OneByOne (pinger.world {}) pings ∧ pinged.departures = [100000000, 50000000, 0] ∧
    pinged.wire.handed.length = 3 ∧
    ((pinged.departures.countP fun u => 0 ≤ u ∧ u ≤ 99999999 : ℕ) : ℚ)
      ≤ 1 + (((99999999 : ℕ) : ℚ) - (0 : ℕ)) / (50000000 : ℕ) := by
  have hinterval : 0 < 50000000 := by decide
  obtain ⟨hserves, hwindow, hstarts, hclient⟩ := keeps_rate hinterval 2 0
  have hfollows := follows_burst
  have hlimited : pinger.config.enableRateLimit = true := rfl
  have hlimit : millisSpan pinger.rateLimit = 50000000 := by
    have hrate : pinger.rateLimit = 50 := rfl
    rw [hrate, millisSpan]
  have hsorted : (0 :: [0, 0, 49999999]).Pairwise (· ≤ ·) := by decide
  obtain ⟨hturns, hdepartures⟩ := departures_pings
  have hpaced := hclient pinger {} pings hlimited hlimit hturns
  rw [← pinged] at hpaced
  obtain ⟨hhanded, hrate⟩ := hpaced
  refine ⟨hinterval, hfollows, ?_, ?_, hsorted, ?_, hlimited, hlimit, hturns, hdepartures, ?_, ?_⟩
  · exact hserves [.tryAcquire 0 2] (.attempt 0 50) _ hfollows
  · exact hwindow burst hfollows 0 60000000 (by decide)
  · exact hstarts _ hsorted 0 49999999 (by decide)
  · rw [hhanded, hdepartures]
    rfl
  · exact hrate 0 99999999 (by decide)

end Bucket

end Bourse
