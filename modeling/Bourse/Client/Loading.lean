import Bourse.Registry

/-! # Loading by several tasks

Tasks that load the markets of one client at the same time, step by step. A task looks whether
markets are known, takes a lock, looks once more, asks the venue, writes the registry and gives the
lock back. Between two steps of a task the others may go on, and a task may be abandoned at any
point, which gives back a lock that it holds. `step?` says when a step is possible and what it does,
and `run?` plays a schedule of steps. -/

namespace Bourse

/-- What a task is for. -/
inductive LoadMode where
  /-- Learns the markets unless they are known. -/
  | load
  /-- Learns the markets anew. -/
  | reload
  deriving DecidableEq, Repr

/-- What a venue has answered: its markets, and its currencies if it tells them. -/
abbrev Listing := List Market × Option (List Currency)

/-- How far a task is. -/
inductive LoadStage where
  /-- About to look whether markets are known. -/
  | looking
  /-- Waits for the lock. -/
  | waiting
  /-- Has the lock and is about to look once more. -/
  | lookingAgain
  /-- Has the lock and is about to ask the venue. -/
  | asking
  /-- Has the lock and waits for the answer of the venue. -/
  | fetching
  /-- Has the lock and is about to write the answer into the registry. -/
  | writing (listing : Listing)
  /-- Has the lock, no more use for it, and a result. -/
  | leaving (result : Result (Table Market))
  | finished (result : Result (Table Market))
  | abandoned

namespace LoadStage

/-- Whether a task at this stage has the lock. -/
def hasLock : LoadStage → Bool
  | lookingAgain | asking | fetching | writing _ | leaving _ => true
  | looking | waiting | finished _ | abandoned => false

/-- Whether a task at this stage waits for an answer of the venue. -/
def isFetching : LoadStage → Bool
  | fetching => true
  | _ => false

/-- Whether a task at this stage has come to its end. -/
def isOver : LoadStage → Bool
  | finished _ | abandoned => true
  | _ => false

end LoadStage

/-- A task. -/
structure LoadTask where
  mode : LoadMode
  stage : LoadStage

/-- A task before its first step. Only a load looks before it waits for the lock. -/
def LoadTask.start (mode : LoadMode) : LoadTask :=
  { mode, stage := if mode = .load then .looking else .waiting }

/-- A step of a task. -/
inductive LoadEvent where
  | look (task : Nat)
  | lock (task : Nat)
  | lookAgain (task : Nat)
  | ask (task : Nat)
  /-- The answer of the venue arrives, or the failure to get one. -/
  | answer (task : Nat) (outcome : Result Listing)
  | write (task : Nat)
  | unlock (task : Nat)
  | abandon (task : Nat)

/-- Tasks at work on one registry. -/
structure Loading where
  precision : PrecisionMode
  registry : Registry := {}
  /-- The task that has the lock. -/
  holder : Option Nat := none
  tasks : List LoadTask

namespace Loading

/-- Tasks before their first steps, and nothing known. -/
def start (precision : PrecisionMode) (modes : List LoadMode) : Loading :=
  { precision, tasks := modes.map LoadTask.start }

/-- The stage of a task. -/
def stage? (s : Loading) (i : Nat) : Option LoadStage := (s.tasks[i]?).map (·.stage)

/-- Moves a task to a stage. -/
def moveTo (s : Loading) (i : Nat) (stage : LoadStage) : Loading :=
  { s with tasks := s.tasks.modify i fun t => { t with stage } }

/-- A step of the tasks, if it is possible. -/
def step? (s : Loading) : LoadEvent → Option Loading
  | .look i =>
    match s.stage? i with
    | some .looking =>
      some (s.moveTo i (if s.registry.loaded then .finished (.ok s.registry.markets) else .waiting))
    | _ => none
  | .lock i =>
    match s.tasks[i]?, s.holder with
    | some ⟨mode, .waiting⟩, none =>
      some { s.moveTo i (if mode = .load then .lookingAgain else .asking) with holder := some i }
    | _, _ => none
  | .lookAgain i =>
    match s.stage? i with
    | some .lookingAgain =>
      some (s.moveTo i (if s.registry.loaded then .leaving (.ok s.registry.markets) else .asking))
    | _ => none
  | .ask i =>
    match s.stage? i with
    | some .asking => some (s.moveTo i .fetching)
    | _ => none
  | .answer i outcome =>
    match s.stage? i with
    | some .fetching =>
      match outcome with
      | .ok listing => some (s.moveTo i (.writing listing))
      | .error e => some (s.moveTo i (.leaving (.error e)))
    | _ => none
  | .write i =>
    match s.stage? i with
    | some (.writing (markets, currencies)) =>
      let registry := Registry.ofMarkets markets currencies s.precision
      some { s.moveTo i (.leaving (.ok registry.markets)) with registry }
    | _ => none
  | .unlock i =>
    match s.stage? i with
    | some (.leaving result) => some { s.moveTo i (.finished result) with holder := none }
    | _ => none
  | .abandon i =>
    match s.stage? i with
    | some stage =>
      if stage.isOver then none
      else
        some { s.moveTo i .abandoned with
          holder := if stage.hasLock then none else s.holder }
    | none => none

/-- The tasks after a schedule, if each of its steps is possible in its turn. -/
def run? (s : Loading) (events : List LoadEvent) : Option Loading := events.foldlM step? s

end Loading

end Bourse
