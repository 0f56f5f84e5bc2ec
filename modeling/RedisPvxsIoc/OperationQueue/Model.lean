import RedisPvxsIoc.Foundations.Machine
import RedisPvxsIoc.Foundations.FinMap
import Mathlib.Data.String.Basic

/-!
# The Operation Queue

Model of `src/operation_queue.cpp`: a bounded executor with one serial lane per key.
Every critical section of the queue's mutex is one label of the machine, and so is
every client callback that is invoked between two of them:

- `submit`, `cancel` and the three parts of `stop` run on the callers' threads
- `pick`, `dispatch`, `runReturns` and `finish` are one turn of a worker's loop
- `expire` and `expired` are one turn of the timer's loop

A clock reading is part of the label that makes it.  Task objects are shared between
the lanes, the index and the worker that runs them, so they live in a `heap` indexed
by their identifier; `tasks` is the set of identifiers the index holds.  The field
`log` is a ghost record of picks, starts of `run()` and calls of `fail`.
-/

namespace RedisPvxsIoc.OperationQueue

open Foundations

/-! ## Data -/

abbrev Key := String
abbrev TaskId := Nat
abbrev Time := Nat

inductive OperationFailure where
  | overload | deadline | cancelled | stopped | exception
  deriving DecidableEq, Repr

structure OperationQueueLimits where
  workers : Nat := 4
  queuedPerKey : Nat := 16
  residentBytes : Nat := 64 * 1024 * 1024
  deriving DecidableEq, Repr

/-- The constructor throws unless this holds. -/
def OperationQueueLimits.valid (limits : OperationQueueLimits) : Bool :=
  limits.workers ≠ 0 && limits.queuedPerKey ≠ 0 && 256 ≤ limits.residentBytes

structure OperationQueueStats where
  accepted : Nat := 0
  completed : Nat := 0
  overloaded : Nat := 0
  expired : Nat := 0
  cancelled : Nat := 0
  queued : Nat := 0
  running : Nat := 0
  residentBytes : Nat := 0
  peakBytes : Nat := 0
  deriving DecidableEq, Repr

/-- What a caller submits.  The closures `run` and `fail` are represented by the
    events they leave in the log. -/
structure Work where
  key : Key
  bytes : Nat := 0
  deadline : Time
  deriving DecidableEq, Repr, Inhabited

structure Task where
  work : Work
  charge : Nat
  active : Bool := false
  failed : Bool := false
  /-- `expiry != deadlines.end()` -/
  timed : Bool := true
  deriving DecidableEq, Repr, Inhabited

structure Lane where
  active : Bool := false
  ready : Bool := false
  queue : List TaskId := []
  deriving DecidableEq, Repr

/-- `!lane.active && !lane.ready && lane.queue.empty()` -/
def Lane.idle (lane : Lane) : Bool :=
  !lane.active && !lane.ready && lane.queue.isEmpty

/-- Where a worker is in its loop.  `returned` covers the way from the end of `run()`
    (or of the `fail` call in its place) to the locked section that follows. -/
inductive Worker where
  | waiting
  | picked (task : TaskId) (pastDeadline : Bool)
  | running (task : TaskId)
  | returned (task : TaskId)
  | exited
  deriving DecidableEq, Repr

/-- The task a worker holds, from the pick to the locked section after `run()`. -/
def Worker.task? : Worker → Option TaskId
  | .picked id _ | .running id | .returned id => some id
  | .waiting | .exited => none

inductive Timer where
  | waiting
  | rejecting (task : TaskId)
  | exited
  deriving DecidableEq, Repr

/-- Progress of `stop()`, which `shutdownMutex` serialises. -/
inductive Shutdown where
  | idle
  | rejecting (cancelled : List TaskId)
  | returned
  deriving DecidableEq, Repr

inductive Event where
  | picked (key : Key) (task : TaskId)
  | started (task : TaskId)
  | failed (task : TaskId) (reason : OperationFailure)
  /-- The `fail` call of the `n`-th submission that returned zero. -/
  | refused (n : Nat) (reason : OperationFailure)
  deriving DecidableEq, Repr

/-- `OperationQueue::Impl`, the program counters of its threads and the ghost log. -/
structure Impl where
  limits : OperationQueueLimits
  stopped : Bool := false
  nextId : Nat := 0
  counts : OperationQueueStats := {}
  lanes : FinMap Key Lane := ∅
  tasks : List TaskId := []
  heap : TaskId → Task := fun _ => default
  deadlines : List (Time × TaskId) := []
  runnable : List Key := []
  workers : Nat → Worker := fun _ => .waiting
  timer : Timer := .waiting
  /-- `cancel` calls that have left the lock and still have to call `fail`. -/
  cancelling : List TaskId := []
  /-- `submit` calls that have left the lock and still have to call `fail`. -/
  refusing : List (Nat × OperationFailure) := []
  nextRefused : Nat := 0
  shutdown : Shutdown := .idle
  log : List Event := []

/-! ## Critical sections -/

/-- `std::multimap::emplace`: behind the entries with the same deadline. -/
def insertDeadline (deadline : Time) (id : TaskId) : List (Time × TaskId) → List (Time × TaskId)
  | [] => [(deadline, id)]
  | entry :: rest =>
    if deadline < entry.1 then (deadline, id) :: entry :: rest
    else entry :: insertDeadline deadline id rest

namespace Impl

/-- Overwrite a task object in place. -/
def setTask (s : Impl) (id : TaskId) (task : Task) : Impl :=
  { s with heap := Function.update s.heap id task }

/-- `ready`: write the lane back and, if it can run and is not announced yet, push its
    token. -/
def ready (s : Impl) (key : Key) (lane : Lane) : Impl :=
  if !lane.active && !lane.ready && !lane.queue.isEmpty then
    { s with
      runnable := s.runnable ++ [key]
      lanes := s.lanes.insert key { lane with ready := true } }
  else { s with lanes := s.lanes.insert key lane }

/-- `releaseQueued`.  A token may still refer to the lane; the worker consumes it. -/
def releaseQueued (s : Impl) (id : TaskId) : Option Impl := do
  let task := s.heap id
  let lane ← s.lanes.find? task.work.key
  let lane := { lane with queue := lane.queue.erase id }
  return { s with
    counts := { s.counts with
      queued := s.counts.queued - 1
      residentBytes := s.counts.residentBytes - task.charge }
    tasks := s.tasks.erase id
    lanes := if lane.idle then s.lanes.erase task.work.key else s.lanes.insert task.work.key lane }

/-- A submission that returns zero: its `fail` is called outside the lock. -/
def refuse (s : Impl) (reason : OperationFailure) (counts : OperationQueueStats) : Impl :=
  { s with
    counts := counts
    refusing := (s.nextRefused, reason) :: s.refusing
    nextRefused := s.nextRefused + 1 }

/-- The accepting branch of `submit`, under the next identifier. -/
def accept (s : Impl) (work : Work) (lane : Lane) : Impl :=
  let charge := max work.bytes 256
  let id := s.nextId + 1
  let s := { s with
    nextId := id
    heap := Function.update s.heap id { work := work, charge := charge }
    deadlines := insertDeadline work.deadline id s.deadlines
    tasks := id :: s.tasks }
  let s := s.ready work.key { lane with queue := lane.queue ++ [id] }
  let resident := s.counts.residentBytes + charge
  { s with counts := { s.counts with
      accepted := s.counts.accepted + 1
      queued := s.counts.queued + 1
      residentBytes := resident
      peakBytes := max s.counts.peakBytes resident } }

def submit (s : Impl) (work : Work) (now : Time) : Impl :=
  if s.stopped then s.refuse .stopped s.counts
  else if work.deadline ≤ now then
    s.refuse .deadline { s.counts with expired := s.counts.expired + 1 }
  else
    let lane := (s.lanes.find? work.key).getD {}
    if lane.queue.length < s.limits.queuedPerKey ∧
        max work.bytes 256 ≤ s.limits.residentBytes - s.counts.residentBytes then
      s.accept work lane
    else s.refuse .overload { s.counts with overloaded := s.counts.overloaded + 1 }

/-- Take a task out of the timer's index and mark it failed. -/
def expireTask (s : Impl) (id : TaskId) : Impl :=
  let task := s.heap id
  { s with
    heap := Function.update s.heap id { task with failed := true, timed := false }
    deadlines := s.deadlines.erase (task.work.deadline, id) }

def cancel (s : Impl) (id : TaskId) : Option Impl :=
  if id ∈ s.tasks ∧ (s.heap id).failed = false then
    let active := (s.heap id).active
    let s := { s.expireTask id with
      counts := { s.counts with cancelled := s.counts.cancelled + 1 }
      cancelling := id :: s.cancelling }
    if active then some s else s.releaseQueued id
  else some s

/-- One turn of the timer's loop, up to the call of `fail`. -/
def expire (s : Impl) (now : Time) : Option Impl :=
  if s.timer ≠ .waiting then none
  else if s.stopped then some { s with timer := .exited }
  else match s.deadlines with
    | [] => none
    | (deadline, id) :: rest =>
      if now < deadline ∨ id ∉ s.tasks then none
      else if (s.heap id).failed then
        -- Keep active tasks indexed for shutdown, but no longer timed.
        some { s.setTask id { s.heap id with timed := false } with deadlines := rest }
      else
        let active := (s.heap id).active
        let s := { s.expireTask id with
          counts := { s.counts with expired := s.counts.expired + 1 }
          timer := .rejecting id }
        if active then some s else s.releaseQueued id

/-- The lane of a consumed token: a lane that was emptied meanwhile is dropped. -/
def dropToken (s : Impl) (key : Key) (lane : Lane) : Impl :=
  if lane.active then { s with lanes := s.lanes.insert key { lane with ready := false } }
  else { s with lanes := s.lanes.erase key }

/-- The worker takes the front task of a lane. -/
def take (s : Impl) (w : Nat) (key : Key) (id : TaskId) (rest : List TaskId) (now : Time) :
    Impl :=
  let task := s.heap id
  let past := decide (task.work.deadline ≤ now)
  { s with
    lanes := s.lanes.insert key { active := true, ready := false, queue := rest }
    heap := Function.update s.heap id { task with active := true, failed := task.failed || past }
    counts := { s.counts with
      queued := s.counts.queued - 1
      running := s.counts.running + 1
      expired := if past then s.counts.expired + 1 else s.counts.expired }
    workers := Function.update s.workers w (.picked id past)
    log := s.log ++ [.picked key id] }

/-- The first locked section of a worker's turn. -/
def pick (s : Impl) (w : Nat) (now : Time) : Option Impl :=
  if s.limits.workers ≤ w ∨ s.workers w ≠ .waiting then none
  else if s.stopped then some { s with workers := Function.update s.workers w .exited }
  else match s.runnable with
    | [] => none
    | key :: runnable =>
      let s := { s with runnable := runnable }
      match s.lanes.find? key with
      | none => some s
      | some lane =>
        match lane.queue with
        | [] => some (s.dropToken key lane)
        | id :: rest => some (s.take w key id rest now)

/-- Outside the lock: `run()` starts, or `fail` is called in its place. -/
def dispatch (s : Impl) (w : Nat) : Option Impl :=
  match s.workers w with
  | .picked id true => some { s with
      workers := Function.update s.workers w (.returned id)
      log := s.log ++ [.failed id .deadline] }
  | .picked id false => some { s with
      workers := Function.update s.workers w (.running id)
      log := s.log ++ [.started id] }
  | _ => none

/-- `run()` returns or throws; an exception is reported through `fail`. -/
def runReturns (s : Impl) (w : Nat) (threw : Bool) : Option Impl :=
  match s.workers w with
  | .running id => some { s with
      workers := Function.update s.workers w (.returned id)
      log := if threw then s.log ++ [.failed id .exception] else s.log }
  | _ => none

/-- The second locked section of a worker's turn. -/
def finish (s : Impl) (w : Nat) : Option Impl :=
  match s.workers w with
  | .returned id => do
    let task := s.heap id
    let lane ← s.lanes.find? task.work.key
    let s := { s with
      deadlines := if task.timed then s.deadlines.erase (task.work.deadline, id) else s.deadlines
      tasks := s.tasks.erase id
      counts := { s.counts with
        running := s.counts.running - 1
        residentBytes := s.counts.residentBytes - task.charge
        completed := s.counts.completed + 1 }
      workers := Function.update s.workers w .waiting }
    let lane := { lane with active := false }
    if lane.queue.isEmpty then
      return { s with lanes := s.lanes.erase task.work.key }
    else return s.ready task.work.key lane
  | _ => none

/-- First section of `stop()`: nothing new starts, every task that has not failed yet
    is to be rejected. -/
def stop (s : Impl) : Option Impl :=
  match s.shutdown with
  | .rejecting _ => none
  | _ =>
    if s.stopped then some { s with shutdown := .rejecting [] }
    else some { s with
      stopped := true
      heap := fun id => if id ∈ s.tasks then { s.heap id with failed := true } else s.heap id
      shutdown := .rejecting (s.tasks.filter fun id => !(s.heap id).failed) }

/-- Last section of `stop()`, after the threads have been joined. -/
def stopJoin (s : Impl) : Option Impl :=
  if s.shutdown = .rejecting [] ∧ s.timer = .exited ∧
      ∀ w < s.limits.workers, s.workers w = .exited then
    some { s with
      tasks := []
      lanes := ∅
      deadlines := []
      runnable := []
      counts := { s.counts with queued := 0, running := 0, residentBytes := 0 }
      shutdown := .returned }
  else none

end Impl

/-! ## The machine -/

inductive Label where
  | submit (work : Work) (now : Time)
  | refused (n : Nat) (reason : OperationFailure)
  | cancel (id : TaskId)
  | cancelled (id : TaskId)
  | pick (w : Nat) (now : Time)
  | dispatch (w : Nat)
  | runReturns (w : Nat) (threw : Bool)
  | finish (w : Nat)
  | expire (now : Time)
  | expired
  | stop
  | stopReject
  | stopJoin
  deriving DecidableEq, Repr

def step (s : Impl) : Label → Option Impl
  | .submit work now => some (s.submit work now)
  | .refused n reason =>
    if (n, reason) ∈ s.refusing then
      some { s with
        refusing := s.refusing.erase (n, reason)
        log := s.log ++ [.refused n reason] }
    else none
  | .cancel id => s.cancel id
  | .cancelled id =>
    if id ∈ s.cancelling then
      some { s with
        cancelling := s.cancelling.erase id
        log := s.log ++ [.failed id .cancelled] }
    else none
  | .pick w now => s.pick w now
  | .dispatch w => s.dispatch w
  | .runReturns w threw => s.runReturns w threw
  | .finish w => s.finish w
  | .expire now => s.expire now
  | .expired =>
    match s.timer with
    | .rejecting id => some { s with timer := .waiting, log := s.log ++ [.failed id .deadline] }
    | _ => none
  | .stop => s.stop
  | .stopReject =>
    match s.shutdown with
    | .rejecting (id :: rest) => some { s with
        shutdown := .rejecting rest
        log := s.log ++ [.failed id .stopped] }
    | _ => none
  | .stopJoin => s.stopJoin

/-- The queue as its constructor leaves it, with any accepted limits. -/
def machine : Machine Impl Label where
  start s := ∃ limits : OperationQueueLimits, limits.valid = true ∧ s = { limits := limits }
  step := step

end RedisPvxsIoc.OperationQueue
