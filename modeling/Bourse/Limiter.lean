import Bourse.Binary64.Basic
import Bourse.Rounding
import Bourse.Text.Numeral

/-! # The rate limiter

A bucket of tokens that fills at one token in each interval up to its capacity; a request takes its
cost out of the bucket or has to wait. Time is given with each step and the arithmetic is that of
rationals under a rounding of its results: the identity gives the exact bucket, and
`Binary64.nearest` the one that computes in binary floating point. -/

namespace Bourse

/-- The number of the binary format nearest to a rational; what is too large stays as it is. -/
def Binary64.nearest (q : Rat) : Rat :=
  match ofRat q with
  | .finite x => x.toRat
  | _ => q

/-- A bucket of tokens. -/
structure Bucket where
  /-- Nanoseconds in which a token is earned. -/
  interval : Nat
  capacity : Rat
  tokens : Rat
  /-- When the bucket was filled last, in nanoseconds. -/
  filledAt : Nat

namespace Bucket

/-- The larger of two numbers. -/
def larger (a b : Rat) : Rat := if a ≤ b then b else a

/-- The smaller of two numbers. -/
def smaller (a b : Rat) : Rat := if a ≤ b then a else b

/-- A full bucket; it holds at least one token. -/
def full (interval : Nat) (capacity : Rat) (now : Nat) : Bucket :=
  { interval, capacity := larger capacity 1, tokens := larger capacity 1, filledAt := now }

/-- The interval of a bucket that is not told one: a tenth of a second. -/
def defaultInterval : Nat := 100000000

/-- The steps of a bucket under a rounding of results. -/
structure Arithmetic where
  round : Rat → Rat

/-- Exact arithmetic. -/
def exact : Arithmetic := ⟨id⟩

/-- Arithmetic in the binary format. -/
def binary : Arithmetic := ⟨Binary64.nearest⟩

variable (ar : Arithmetic)

/-- A span of nanoseconds in seconds: whole seconds and the rest are rounded, and then their
sum. -/
def seconds (ns : Nat) : Rat :=
  ar.round (ar.round (ns / 1000000000 : Nat)
    + ar.round (((ns % 1000000000 : Nat) : Rat) / 1000000000))

/-- Adds the tokens that were earned until `now`. A bucket without interval is always full. -/
def refill (b : Bucket) (now : Nat) : Bucket :=
  if b.interval = 0 then { b with tokens := b.capacity, filledAt := now }
  else
    let earned := ar.round (seconds ar (now - b.filledAt) / seconds ar b.interval)
    { b with tokens := smaller (ar.round (b.tokens + earned)) b.capacity, filledAt := now }

/-- Takes a cost out of the bucket if its tokens cover it. -/
def tryAcquire (b : Bucket) (now : Nat) (cost : Rat) : Bool × Bucket :=
  let b := refill ar b now
  if cost ≤ b.tokens then (true, { b with tokens := ar.round (b.tokens - cost) }) else (false, b)

/-- One attempt of a waiting caller: a cost beyond the capacity counts as the capacity. -/
def attempt (b : Bucket) (now : Nat) (cost : Rat) : Bool × Bucket :=
  tryAcquire ar b now (smaller cost b.capacity)

/-- The shortest time that a waiting caller sleeps: a millisecond. -/
def shortestWait : Nat := 1000000

/-- How long a caller waits for the tokens that are missing, in whole nanoseconds. -/
def waitFor (b : Bucket) (cost : Rat) : Nat :=
  Nat.max (larger (cost - b.tokens) 0 * b.interval).ceil.toNat shortestWait

/-- Takes a cost out of the bucket as soon as its tokens cover it: the time at which that is, and
the bucket after it. -/
def acquire (b : Bucket) (now : Nat) (cost : Rat) : Nat × Bucket :=
  match attempt ar b now cost with
  | (true, after) => (now, after)
  | (false, after) =>
    let later := now + waitFor after (smaller cost b.capacity)
    (later, (attempt ar after later cost).2)

/-- The tokens at a time. -/
def available (b : Bucket) (now : Nat) : Rat × Bucket :=
  let b := refill ar b now
  (b.tokens, b)

/-! ### Runs -/

/-- What is asked of a bucket at a time. -/
inductive Event where
  | tryAcquire (now : Nat) (cost : Rat)
  | attempt (now : Nat) (cost : Rat)
  | available (now : Nat)

/-- The cost that a step grants, and the bucket after it. -/
def step (b : Bucket) : Event → Rat × Bucket
  | .tryAcquire now cost =>
    let (ok, after) := tryAcquire ar b now cost
    (if ok then cost else 0, after)
  | .attempt now cost =>
    let (ok, after) := attempt ar b now cost
    (if ok then smaller cost b.capacity else 0, after)
  | .available now => (0, (available ar b now).2)

/-- The bucket after a sequence of steps. -/
def run (b : Bucket) (events : List Event) : Bucket :=
  events.foldl (fun b e => (step ar b e).2) b

/-- The total cost that a sequence of steps grants. -/
def granted (b : Bucket) : List Event → Rat
  | [] => 0
  | e :: es => (step ar b e).1 + granted (step ar b e).2 es

end Bucket

/-- A number of tokens with three decimals. -/
def tokenText (q : Rat) : String :=
  let n := Rounding.halfEven.divide (q.num.natAbs * 1000) q.den
  String.ofList ((if q < 0 then ['-'] else []) ++ Text.digits (n / 1000) ++ '.' ::
    Text.paddedDigits 3 (n % 1000))

end Bourse
