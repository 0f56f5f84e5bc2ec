import RedisPvxsIoc.OperationQueue.Model

/-!
# A Queued Operation

Model of `include/redis_pvxs_ioc/queued_exec.h`: the object that owns the handle of a PVA
operation while it waits in the operation queue, runs, times out or is cancelled.  Four kinds of
calls meet on it:

- `reply` and `error`, from workers, the timer and the queue, any number of them
- the client's `onCancel` callback, which finishes and then cancels the ticket
- `ticket`, once `submit` has returned
- `wake`, from the worker that is about to wait

`finish` holds `mutex_` from the exchange of `stopped_` to the swap of `op_`, but `aborted_` and
`ticket_` are read and written without it, so each access is a step of its own.  The field
`winner` is a ghost that remembers who stopped the operation, and `log` records what the object
does to its surroundings.

## Main results

- `coherent_reachable`: the invariant of all interleavings
- `queued_exec_once`: one answer, no lost cancellation, no lost wake-up
- `error_reported_iff`: which errors reach the client
-/

namespace RedisPvxsIoc.QueuedExec

open Foundations OperationQueue

/-! ## Data -/

/-- The arguments of `finish`. -/
structure Finish where
  message : String
  cancelled : Bool := false
  value : Option Nat := none
  deriving DecidableEq, Repr

/-- What `finish` stores in `aborted_`. -/
def Finish.aborts (f : Finish) : Bool := f.cancelled || f.message != ""

/-- The calls that end an operation; a `fail` callback of the queue is an `error`. -/
inductive Terminal where
  | reply
  | replyValue (value : Nat)
  | error (message : String)
  deriving DecidableEq, Repr

def Terminal.finish : Terminal → Finish
  | .reply => { message := "" }
  | .replyValue value => { message := "", value := some value }
  | .error message => { message := message }

/-- `finish("", true)` -/
def cancellation : Finish := { message := "", cancelled := true }

/-- Who calls `finish`. -/
inductive Caller where
  | client
  | other (n : Nat)
  deriving DecidableEq, Repr

/-- Where a call of `finish` is; the callback goes on to the ticket when it has returned. -/
inductive Stage where
  | idle
  | entered (f : Finish)
  | stopping (f : Finish)
  | marked (f : Finish)
  | notifying (f : Finish) (op : Bool) (notify : Option Nat)
  | answering (f : Finish) (op : Bool)
  | returned
  | loaded (id : TaskId)
  | completed
  deriving DecidableEq, Repr

/-- Where the thread is that submits the operation and then calls `ticket`. -/
inductive Submitter where
  | idle
  | submitted (id : TaskId)
  | stored (id : TaskId)
  | aborting (id : TaskId)
  | completed (id : TaskId)
  deriving DecidableEq, Repr

/-- Where a call of `wake` is. -/
inductive Waker where
  | idle
  | registered (notify : Bool)
  | completed
  deriving DecidableEq, Repr

inductive Event where
  | replied (value : Option Nat)
  | errored (message : String)
  /-- `OperationQueue::cancel` -/
  | cancelled (id : TaskId)
  /-- The function of the `n`-th `wake` is invoked; `stopped` is what `stopped()` gives then. -/
  | woken (n : Nat) (stopped : Bool)
  deriving DecidableEq, Repr

structure Exec where
  op : Bool := true
  wake : Option Nat := none
  stopped : Bool := false
  aborted : Bool := false
  ticket : TaskId := 0
  /-- Who is between the exchange and the swap of `finish`. -/
  mutex : Option Caller := none
  calls : Caller → Stage := fun _ => .idle
  submitter : Submitter := .idle
  wakers : Nat → Waker := fun _ => .idle
  /-- Ghost: the call that stopped the operation. -/
  winner : Option (Caller × Finish) := none
  /-- Ghost: replies, errors, cancellations and wake-ups, in order. -/
  log : List Event := []

/-! ## Steps -/

inductive Label where
  | enter (n : Nat) (call : Terminal)
  | cancel
  | stop (c : Caller)
  | mark (c : Caller)
  | swap (c : Caller)
  | notify (c : Caller)
  | answer (c : Caller)
  | load
  | cancelLoaded
  | submit (id : TaskId)
  | store
  | check
  | cancelTicket
  | wake (n : Nat)
  | runWake (n : Nat)
  deriving DecidableEq, Repr

namespace Exec

def setCall (s : Exec) (c : Caller) (stage : Stage) : Exec :=
  { s with calls := Function.update s.calls c stage }

def setWaker (s : Exec) (n : Nat) (waker : Waker) : Exec :=
  { s with wakers := Function.update s.wakers n waker }

/-- The lock and `stopped_.exchange(true)`. -/
def stop (s : Exec) (c : Caller) (f : Finish) : Exec :=
  if s.stopped then s.setCall c .returned
  else { s.setCall c (.stopping f) with stopped := true, mutex := some c, winner := some (c, f) }

/-- `op.swap(op_)` and `notify = wake_`; the lock is released. -/
def swap (s : Exec) (c : Caller) (f : Finish) : Exec :=
  { s.setCall c (.notifying f s.op s.wake) with op := false, mutex := none }

/-- What `finish` tells the client. -/
def answer (f : Finish) (op : Bool) : List Event :=
  if op && !f.cancelled then
    if f.message = "" then [.replied f.value] else [.errored f.message]
  else []

/-- `wake_ = fn; notify = stopped();` -/
def register (s : Exec) (n : Nat) : Exec :=
  { s.setWaker n (.registered s.stopped) with wake := some n }

end Exec

def step (s : Exec) : Label → Option Exec
  | .enter n call =>
    if s.calls (.other n) = .idle then some (s.setCall (.other n) (.entered call.finish)) else none
  | .cancel =>
    if s.calls .client = .idle then some (s.setCall .client (.entered cancellation)) else none
  | .stop c =>
    match s.calls c with
    | .entered f => if s.mutex = none then some (s.stop c f) else none
    | _ => none
  | .mark c =>
    match s.calls c with
    | .stopping f => some { s.setCall c (.marked f) with aborted := f.aborts }
    | _ => none
  | .swap c =>
    match s.calls c with
    | .marked f => some (s.swap c f)
    | _ => none
  | .notify c =>
    match s.calls c with
    | .notifying f op notify => some { s.setCall c (.answering f op) with
        log := s.log ++ notify.toList.map (.woken · s.stopped) }
    | _ => none
  | .answer c =>
    match s.calls c with
    | .answering f op => some { s.setCall c .returned with log := s.log ++ Exec.answer f op }
    | _ => none
  | .load => if s.calls .client = .returned then some (s.setCall .client (.loaded s.ticket)) else none
  | .cancelLoaded =>
    match s.calls .client with
    | .loaded id => some { s.setCall .client .completed with log := s.log ++ [.cancelled id] }
    | _ => none
  | .submit id => if s.submitter = .idle then some { s with submitter := .submitted id } else none
  | .store =>
    match s.submitter with
    | .submitted id => some { s with ticket := id, submitter := .stored id }
    | _ => none
  | .check =>
    match s.submitter with
    | .stored id =>
      some { s with submitter := if s.aborted then .aborting id else .completed id }
    | _ => none
  | .cancelTicket =>
    match s.submitter with
    | .aborting id =>
      some { s with submitter := .completed id, log := s.log ++ [.cancelled id] }
    | _ => none
  | .wake n =>
    if s.wakers n = .idle ∧ s.mutex = none then some (s.register n) else none
  | .runWake n =>
    match s.wakers n with
    | .registered notify => some { s.setWaker n .completed with
        log := if notify then s.log ++ [.woken n s.stopped] else s.log }
    | _ => none

/-- Every interleaving of the calls on one object. -/
def machine : Machine Exec Label where
  start s := s = {}
  step := step

/-! ## What a step does -/

/-- The steps with their guards. -/
inductive ExecStep (s : Exec) : Label → Exec → Prop where
  | enter (n : Nat) (call : Terminal) (h : s.calls (.other n) = .idle) :
      ExecStep s (.enter n call) (s.setCall (.other n) (.entered call.finish))
  | cancel (h : s.calls .client = .idle) :
      ExecStep s .cancel (s.setCall .client (.entered cancellation))
  | late (c : Caller) (f : Finish) (h : s.calls c = .entered f) (hstopped : s.stopped = true) :
      ExecStep s (.stop c) (s.setCall c .returned)
  | stop (c : Caller) (f : Finish) (h : s.calls c = .entered f) (hmutex : s.mutex = none)
      (hstopped : s.stopped = false) : ExecStep s (.stop c)
        { s.setCall c (.stopping f) with
          stopped := true, mutex := some c, winner := some (c, f) }
  | mark (c : Caller) (f : Finish) (h : s.calls c = .stopping f) :
      ExecStep s (.mark c) { s.setCall c (.marked f) with aborted := f.aborts }
  | swap (c : Caller) (f : Finish) (h : s.calls c = .marked f) : ExecStep s (.swap c) (s.swap c f)
  | notify (c : Caller) (f : Finish) (op : Bool) (notify : Option Nat)
      (h : s.calls c = .notifying f op notify) : ExecStep s (.notify c)
        { s.setCall c (.answering f op) with
          log := s.log ++ notify.toList.map (.woken · s.stopped) }
  | answer (c : Caller) (f : Finish) (op : Bool) (h : s.calls c = .answering f op) :
      ExecStep s (.answer c) { s.setCall c .returned with log := s.log ++ Exec.answer f op }
  | load (h : s.calls .client = .returned) :
      ExecStep s .load (s.setCall .client (.loaded s.ticket))
  | cancelLoaded (id : TaskId) (h : s.calls .client = .loaded id) : ExecStep s .cancelLoaded
      { s.setCall .client .completed with log := s.log ++ [.cancelled id] }
  | submit (id : TaskId) (h : s.submitter = .idle) :
      ExecStep s (.submit id) { s with submitter := .submitted id }
  | store (id : TaskId) (h : s.submitter = .submitted id) :
      ExecStep s .store { s with ticket := id, submitter := .stored id }
  | abort (id : TaskId) (h : s.submitter = .stored id) (haborted : s.aborted = true) :
      ExecStep s .check { s with submitter := .aborting id }
  | keep (id : TaskId) (h : s.submitter = .stored id) (haborted : s.aborted = false) :
      ExecStep s .check { s with submitter := .completed id }
  | cancelTicket (id : TaskId) (h : s.submitter = .aborting id) : ExecStep s .cancelTicket
      { s with submitter := .completed id, log := s.log ++ [.cancelled id] }
  | wake (n : Nat) (h : s.wakers n = .idle) (hmutex : s.mutex = none) :
      ExecStep s (.wake n) (s.register n)
  | runWake (n : Nat) (notify : Bool) (h : s.wakers n = .registered notify) :
      ExecStep s (.runWake n) { s.setWaker n .completed with
        log := if notify then s.log ++ [.woken n s.stopped] else s.log }

variable {s' : Exec} {a : Label}

variable {s : Exec}

theorem step_execStep (h : step s a = some s') : ExecStep s a s' := by
  cases a with
  | enter | cancel | load | submit =>
    obtain ⟨hcall, hnext⟩ := Option.ite_none_right_eq_some.mp h
    cases hnext
    constructor
    exact hcall
  | stop c =>
    simp only [step] at h
    split at h
    · rename_i f hcall
      obtain ⟨hmutex, hnext⟩ := Option.ite_none_right_eq_some.mp h
      cases hnext
      unfold Exec.stop
      split
      · exact .late c f hcall ‹_›
      · exact .stop c f hcall hmutex (Bool.eq_false_iff.mpr ‹_›)
    · cases h
  | mark | swap | notify | answer | cancelLoaded | store | cancelTicket | runWake =>
    -- the caller has to be at the stage before
    simp only [step] at h
    split at h
    · cases h
      constructor
      assumption
    · cases h
  | check =>
    simp only [step] at h
    split at h
    · rename_i id hstored
      cases h
      split
      · exact .abort id hstored ‹_›
      · exact .keep id hstored (Bool.eq_false_iff.mpr ‹_›)
    · cases h
  | wake n =>
    obtain ⟨⟨hidle, hmutex⟩, hnext⟩ := Option.ite_none_right_eq_some.mp h
    cases hnext
    exact .wake n hidle hmutex

/-! ## Who has stopped the operation -/

/-- The call has stopped the operation and is not done with it. -/
def Stage.won : Stage → Option Finish
  | .stopping f | .marked f | .notifying f _ _ | .answering f _ => some f
  | _ => none

/-- The call has not reached the exchange. -/
def Stage.early : Stage → Bool
  | .idle | .entered _ => true
  | _ => false

/-- `finish` has returned. -/
def Stage.settled : Stage → Bool
  | .returned | .loaded _ | .completed => true
  | _ => false

/-- Nobody has stopped the operation. -/
structure Open (s : Exec) : Prop where
  stopped : s.stopped = false
  winner : s.winner = none
  mutex : s.mutex = none
  op : s.op = true
  aborted : s.aborted = false
  calls : ∀ c, (s.calls c).early = true

/-- How far the call is that stopped the operation, and what it has done to the object. -/
inductive Progress (s : Exec) (c : Caller) (f : Finish) : Stage → Prop where
  | stopping : s.mutex = some c → s.op = true → s.aborted = false → Progress s c f (.stopping f)
  | marked : s.mutex = some c → s.op = true → s.aborted = f.aborts → Progress s c f (.marked f)
  | notifying (notify : Option Nat) : s.mutex = none → s.aborted = f.aborts →
      Progress s c f (.notifying f true notify)
  | answering : s.mutex = none → s.aborted = f.aborts → Progress s c f (.answering f true)
  | settled {stage : Stage} : stage.settled = true → s.mutex = none → s.aborted = f.aborts →
      Progress s c f stage

/-- One call has stopped the operation; the others have not reached the exchange or are done. -/
structure Closed (s : Exec) (c : Caller) (f : Finish) : Prop where
  stopped : s.stopped = true
  winner : s.winner = some (c, f)
  progress : Progress s c f (s.calls c)
  others : ∀ c', c' ≠ c → (s.calls c').early = true ∨ (s.calls c').settled = true

/-- At most one call stops the operation, and it alone goes through the rest of `finish`. -/
def OneWinner (s : Exec) : Prop := Open s ∨ ∃ c f, Closed s c f

section Winner

variable {s : Exec} {c : Caller} {f : Finish} {stage : Stage}

theorem OneWinner.opened (h : OneWinner s) (hstopped : s.stopped = false) : Open s := by
  rcases h with hopen | ⟨c, f, hclosed⟩
  · exact hopen
  · rw [hclosed.stopped] at hstopped
    cases hstopped

/-- The winner is past the exchange. -/
theorem Progress.not_early (h : Progress s c f stage) : stage.early = false := by
  cases h with
  | stopping | marked | notifying | answering => rfl
  | settled hsettled => cases stage <;> first | rfl | cases hsettled

theorem Progress.of_settled (h : Progress s c f stage) (hsettled : stage.settled = true) :
    s.mutex = none ∧ s.aborted = f.aborts := by
  cases h with
  | stopping | marked | notifying | answering => cases hsettled
  | settled _ hmutex haborted => exact ⟨hmutex, haborted⟩

/-- A call that is past the exchange and not done is the winner. -/
theorem OneWinner.closed_of_won (h : OneWinner s) (hcall : s.calls c = stage)
    (hwon : stage.won = some f) : Closed s c f := by
  subst hcall
  rcases h with hopen | ⟨c', f', hclosed⟩
  · have hearly := hopen.calls c
    cases hcall : s.calls c <;> simp [hcall, Stage.won, Stage.early] at hwon hearly
  · by_cases heq : c = c'
    · subst heq
      have hprogress := hclosed.progress
      have hf : f' = f := by
        generalize s.calls c = stage at hprogress hwon
        cases hprogress with
        | stopping | marked | notifying | answering => exact Option.some.inj hwon
        | settled hsettled => cases stage <;> simp [Stage.settled, Stage.won] at hsettled hwon
      exact hf ▸ hclosed
    · have hother := hclosed.others c heq
      cases hcall : s.calls c <;>
        simp [hcall, Stage.won, Stage.early, Stage.settled] at hwon hother

theorem Progress.transfer (h : Progress s c f stage) (hmutex : s'.mutex = s.mutex)
    (hop : s'.op = s.op) (haborted : s'.aborted = s.aborted) : Progress s' c f stage := by
  cases h with
  | stopping h₁ h₂ h₃ => exact .stopping (hmutex.trans h₁) (hop.trans h₂) (haborted.trans h₃)
  | marked h₁ h₂ h₃ => exact .marked (hmutex.trans h₁) (hop.trans h₂) (haborted.trans h₃)
  | notifying notify h₁ h₂ => exact .notifying notify (hmutex.trans h₁) (haborted.trans h₂)
  | answering h₁ h₂ => exact .answering (hmutex.trans h₁) (haborted.trans h₂)
  | settled h₁ h₂ h₃ => exact .settled h₁ (hmutex.trans h₂) (haborted.trans h₃)

/-- Steps that leave the calls of `finish` alone. -/
theorem OneWinner.transfer (h : OneWinner s) (hstopped : s'.stopped = s.stopped)
    (hwinner : s'.winner = s.winner) (hmutex : s'.mutex = s.mutex) (hop : s'.op = s.op)
    (haborted : s'.aborted = s.aborted) (hcalls : s'.calls = s.calls) : OneWinner s' := by
  rcases h with hopen | ⟨c, f, hclosed⟩
  · exact .inl ⟨hstopped.trans hopen.stopped, hwinner.trans hopen.winner,
      hmutex.trans hopen.mutex, hop.trans hopen.op, haborted.trans hopen.aborted,
      hcalls ▸ hopen.calls⟩
  · refine .inr ⟨c, f, hstopped.trans hclosed.stopped, hwinner.trans hclosed.winner, ?_,
      hcalls ▸ hclosed.others⟩
    rw [hcalls]
    exact hclosed.progress.transfer hmutex hop haborted

/-- The winner moves on. -/
theorem Closed.advance (h : Closed s c f) (hstopped : s'.stopped = s.stopped)
    (hwinner : s'.winner = s.winner) (hcalls : s'.calls = Function.update s.calls c stage)
    (hprogress : Progress s' c f stage) : Closed s' c f := by
  refine ⟨hstopped.trans h.stopped, hwinner.trans h.winner, ?_, fun c' hc' => ?_⟩
  · rw [hcalls, Function.update_self]
    exact hprogress
  · rw [hcalls, Function.update_of_ne hc']
    exact h.others c' hc'

/-- A call that enters, comes too late or goes on after `finish`. -/
theorem OneWinner.bystander (h : OneWinner s) (log : List Event)
    (hcase : ((s.calls c).early = true ∧ (stage.early = true ∨
        s.stopped = true ∧ stage.settled = true)) ∨
      (s.calls c).settled = true ∧ stage.settled = true) :
    OneWinner { s.setCall c stage with log := log } := by
  rcases h with hopen | ⟨c', f', hclosed⟩
  · refine .inl ⟨hopen.stopped, hopen.winner, hopen.mutex, hopen.op, hopen.aborted, fun x => ?_⟩
    have hold := hopen.calls c
    by_cases heq : x = c
    · subst heq
      rcases hcase with ⟨-, hearly | ⟨hstopped, -⟩⟩ | ⟨hsettled, -⟩
      · simpa [Exec.setCall] using hearly
      · rw [hopen.stopped] at hstopped
        cases hstopped
      · cases hcall : s.calls x <;> simp [hcall, Stage.early, Stage.settled] at hold hsettled
    · simpa [Exec.setCall, heq] using hopen.calls x
  · refine .inr ⟨c', f', hclosed.stopped, hclosed.winner, ?_, fun x hx => ?_⟩
    · by_cases heq : c' = c
      · subst heq
        -- the winner is not early, so it goes on after `finish`
        have hprogress := hclosed.progress
        rcases hcase with ⟨hearly, -⟩ | ⟨hold, hnew⟩
        · rw [hprogress.not_early] at hearly
          cases hearly
        · obtain ⟨hmutex, haborted⟩ := hprogress.of_settled hold
          simp only [Exec.setCall, Function.update_self]
          exact .settled hnew hmutex haborted
      · simp only [Exec.setCall, Function.update_of_ne heq]
        exact hclosed.progress.transfer rfl rfl rfl
    · by_cases heq : x = c
      · subst heq
        simp only [Exec.setCall, Function.update_self]
        rcases hcase with ⟨-, hearly | ⟨-, hsettled⟩⟩ | ⟨-, hsettled⟩
        · exact .inl hearly
        · exact .inr hsettled
        · exact .inr hsettled
      · simpa [Exec.setCall, heq] using hclosed.others x hx

/-- The winner after the exchange. -/
theorem Closed.at_stopping (h : Closed s c f) (hcall : s.calls c = .stopping f) :
    s.mutex = some c ∧ s.op = true ∧ s.aborted = false := by
  have hprogress := hcall ▸ h.progress
  cases hprogress with
  | stopping hmutex hop haborted => exact ⟨hmutex, hop, haborted⟩
  | settled hsettled => cases hsettled

theorem Closed.at_marked (h : Closed s c f) (hcall : s.calls c = .marked f) :
    s.mutex = some c ∧ s.op = true ∧ s.aborted = f.aborts := by
  have hprogress := hcall ▸ h.progress
  cases hprogress with
  | marked hmutex hop haborted => exact ⟨hmutex, hop, haborted⟩
  | settled hsettled => cases hsettled

/-- The winner took the handle with it. -/
theorem Closed.at_notifying {op : Bool} {notify : Option Nat} (h : Closed s c f)
    (hcall : s.calls c = .notifying f op notify) :
    op = true ∧ s.mutex = none ∧ s.aborted = f.aborts := by
  have hprogress := hcall ▸ h.progress
  cases hprogress with
  | notifying notify hmutex haborted => exact ⟨rfl, hmutex, haborted⟩
  | settled hsettled => cases hsettled

theorem Closed.at_answering {op : Bool} (h : Closed s c f)
    (hcall : s.calls c = .answering f op) :
    op = true ∧ s.mutex = none ∧ s.aborted = f.aborts := by
  have hprogress := hcall ▸ h.progress
  cases hprogress with
  | answering hmutex haborted => exact ⟨rfl, hmutex, haborted⟩
  | settled hsettled => cases hsettled

end Winner

theorem oneWinner_step (hs : OneWinner s) (h : ExecStep s a s') :
    OneWinner s' := by
  cases h with
  | enter _ _ hcall | cancel hcall =>
    exact hs.bystander s.log (.inl ⟨by rw [hcall]; rfl, .inl rfl⟩)
  | late c f hcall hstopped =>
    exact hs.bystander s.log (.inl ⟨by rw [hcall]; rfl, .inr ⟨hstopped, rfl⟩⟩)
  | stop c f hcall hmutex hstopped =>
    have hopen := hs.opened hstopped
    refine .inr ⟨c, f, rfl, rfl, ?_, fun c' hc' => .inl ?_⟩
    · simp only [Exec.setCall, Function.update_self]
      exact .stopping rfl hopen.op hopen.aborted
    · simpa [Exec.setCall, hc'] using hopen.calls c'
  | mark c f hcall =>
    have hclosed := hs.closed_of_won hcall rfl
    obtain ⟨hmutex, hop, -⟩ := hclosed.at_stopping hcall
    exact .inr ⟨c, f, hclosed.advance rfl rfl rfl (.marked hmutex hop rfl)⟩
  | swap c f hcall =>
    have hclosed := hs.closed_of_won hcall rfl
    obtain ⟨-, hop, haborted⟩ := hclosed.at_marked hcall
    refine .inr ⟨c, f, hclosed.advance rfl rfl rfl ?_⟩
    rw [hop]
    exact .notifying s.wake rfl haborted
  | notify c f op notify hcall =>
    have hclosed := hs.closed_of_won hcall rfl
    obtain ⟨rfl, hmutex, haborted⟩ := hclosed.at_notifying hcall
    exact .inr ⟨c, f, hclosed.advance rfl rfl rfl (.answering hmutex haborted)⟩
  | answer c f op hcall =>
    have hclosed := hs.closed_of_won hcall rfl
    obtain ⟨rfl, hmutex, haborted⟩ := hclosed.at_answering hcall
    exact .inr ⟨c, f, hclosed.advance rfl rfl rfl (.settled rfl hmutex haborted)⟩
  | load hcall | cancelLoaded _ hcall => exact hs.bystander _ (.inr ⟨by rw [hcall]; rfl, rfl⟩)
  | submit | store | abort | keep | cancelTicket | wake | runWake =>
    exact hs.transfer rfl rfl rfl rfl rfl rfl

variable {c : Caller} {f : Finish}

/-- The winner of a state, once there is one. -/
theorem OneWinner.closed_of_winner (h : OneWinner s) (hwinner : s.winner = some (c, f)) :
    Closed s c f := by
  rcases h with hopen | ⟨c', f', hclosed⟩
  · rw [hopen.winner] at hwinner
    cases hwinner
  · cases hclosed.winner.symm.trans hwinner
    exact hclosed

/-! ## What the callers ask for -/

/-- The callback cancels, and everybody else replies or reports an error. -/
structure Asked (s : Exec) : Prop where
  client : ∀ f, s.calls .client = .entered f → f = cancellation
  other : ∀ n f, s.calls (.other n) = .entered f → ∃ call : Terminal, f = call.finish
  winner : ∀ c f, s.winner = some (c, f) →
    (c = .client ∧ f = cancellation) ∨ ∃ n call, c = .other n ∧ f = Terminal.finish call

/-- Steps after which nobody new is about to call `finish`. -/
theorem Asked.transfer (hs : Asked s) (hwinner : s'.winner = s.winner)
    (hcalls : ∀ c f, s'.calls c = .entered f → s.calls c = .entered f) : Asked s' :=
  ⟨fun f hf => hs.client f (hcalls _ f hf), fun n f hf => hs.other n f (hcalls _ f hf),
    hwinner ▸ hs.winner⟩

variable {stage : Stage}

theorem entered_of_update {calls : Caller → Stage} {c' : Caller} (hstage : stage ≠ .entered f)
    (h : Function.update calls c' stage c = .entered f) :
    calls c = .entered f := by
  by_cases heq : c = c'
  · subst heq
    rw [Function.update_self] at h
    exact absurd h hstage
  · rwa [Function.update_of_ne heq] at h

theorem asked_step (hs : Asked s) (h : ExecStep s a s') : Asked s' := by
  cases h with
  | enter n call hcall =>
    refine ⟨fun f hf => hs.client f ?_, fun m f hf => ?_, hs.winner⟩
    · simpa [Exec.setCall] using hf
    · by_cases heq : m = n
      · subst heq
        exact ⟨call, by simpa [Exec.setCall] using hf.symm⟩
      · exact hs.other m f (by simpa [Exec.setCall, heq] using hf)
  | cancel hcall =>
    refine ⟨fun f hf => ?_, fun m f hf => hs.other m f ?_, hs.winner⟩
    · simpa [Exec.setCall] using hf.symm
    · simpa [Exec.setCall] using hf
  | stop c f hcall hmutex hstopped =>
    have hrest : Asked (s.setCall c (.stopping f)) :=
      hs.transfer rfl fun _ _ => entered_of_update Stage.noConfusion
    refine ⟨hrest.client, hrest.other, ?_⟩
    rintro c' f' hc'
    cases hc'
    cases c with
    | client => exact .inl ⟨rfl, hs.client f hcall⟩
    | other n =>
      obtain ⟨call, hf⟩ := hs.other n f hcall
      exact .inr ⟨n, call, rfl, hf⟩
  | submit | store | abort | keep | cancelTicket | wake | runWake =>
    exact hs.transfer rfl fun _ _ h => h
  | late | mark | swap | notify | answer | load | cancelLoaded =>
    exact hs.transfer rfl fun _ _ => entered_of_update Stage.noConfusion

/-! ## One answer -/

def Event.isAnswer : Event → Bool
  | .replied _ | .errored _ => true
  | _ => false

/-- The replies and errors that the client has received. -/
def Exec.answers (s : Exec) : List Event := s.log.filter Event.isAnswer

/-- The client gets its answer from the winner, when that has finished. -/
structure Answered (s : Exec) : Prop where
  none : s.winner = none → s.answers = []
  pending : ∀ c f, s.winner = some (c, f) → (s.calls c).settled = false → s.answers = []
  given : ∀ c f, s.winner = some (c, f) → (s.calls c).settled = true →
    s.answers = Exec.answer f true

theorem filter_answer (f : Finish) (op : Bool) :
    (Exec.answer f op).filter Event.isAnswer = Exec.answer f op := by
  unfold Exec.answer
  split
  · split <;> rfl
  · rfl

/-- A call other than the winner's, or a step that keeps the winner where it is. -/
theorem Answered.transfer (hs : Answered s) (hwinner : s'.winner = s.winner)
    (hanswers : s'.answers = s.answers)
    (hcalls : ∀ c f, s.winner = some (c, f) → (s'.calls c).settled = (s.calls c).settled) :
    Answered s' := by
  refine ⟨?_, ?_, ?_⟩
  · rw [hwinner, hanswers]
    exact hs.none
  · intro c f hc hsettled
    rw [hwinner] at hc
    rw [hcalls c f hc] at hsettled
    exact hanswers.trans (hs.pending c f hc hsettled)
  · intro c f hc hsettled
    rw [hwinner] at hc
    rw [hcalls c f hc] at hsettled
    exact hanswers.trans (hs.given c f hc hsettled)

theorem answered_step (hone : OneWinner s) (hs : Answered s) (h : ExecStep s a s') :
    Answered s' := by
  -- a call whose stage is early is not the winner's
  have hearly : ∀ c f, s.winner = some (c, f) → ∀ c', (s.calls c').early = true → c ≠ c' := by
    rintro c f hwinner c' hc' rfl
    rw [(hone.closed_of_winner hwinner).progress.not_early] at hc'
    cases hc'
  have hkeep : ∀ c' stage, (stage.settled = (s.calls c').settled ∨ (s.calls c').early = true) →
      ∀ c f, s.winner = some (c, f) →
        (Function.update s.calls c' stage c).settled = (s.calls c).settled := by
    intro c' stage hcase c f hwinner
    by_cases heq : c = c'
    · subst heq
      rcases hcase with hsame | hc'
      · simpa using hsame
      · exact absurd rfl (hearly c f hwinner c hc')
    · rw [Function.update_of_ne heq]
  cases h with
  | enter _ _ hcall | cancel hcall | late _ _ hcall =>
    exact hs.transfer rfl rfl (hkeep _ _ (.inr (by rw [hcall]; rfl)))
  | stop c f hcall hmutex hstopped =>
    have hnone := hs.none (hone.opened hstopped).winner
    refine ⟨fun h => absurd h (Option.some_ne_none _), fun _ _ _ _ => hnone, ?_⟩
    rintro c' f' hc' hsettled
    cases hc'
    simp [Exec.setCall, Stage.settled] at hsettled
  | mark _ _ hcall | swap _ _ hcall | load hcall =>
    exact hs.transfer rfl rfl (hkeep _ _ (.inl (by rw [hcall]; rfl)))
  | notify c f op notify hcall =>
    refine hs.transfer rfl ?_ (hkeep _ _ (.inl (by rw [hcall]; rfl)))
    cases notify <;> simp [Exec.answers, Event.isAnswer]
  | answer c f op hcall =>
    have hclosed := hone.closed_of_won hcall rfl
    obtain ⟨rfl, -, -⟩ := hclosed.at_answering hcall
    have hpending := hs.pending c f hclosed.winner (by rw [hcall]; rfl)
    refine ⟨fun hnone => ?_, ?_, ?_⟩
    · cases hclosed.winner.symm.trans hnone
    · rintro c' f' hc' hsettled
      cases hclosed.winner.symm.trans hc'
      simp [Exec.setCall, Stage.settled] at hsettled
    · rintro c' f' hc' -
      cases hclosed.winner.symm.trans hc'
      show List.filter _ (s.log ++ Exec.answer f true) = _
      rw [List.filter_append, filter_answer]
      exact (congrArg (· ++ Exec.answer f true) hpending).trans (List.nil_append _)
  | cancelLoaded id hcall =>
    refine hs.transfer rfl ?_ (hkeep _ _ (.inl (by rw [hcall]; rfl)))
    simp [Exec.answers, Event.isAnswer]
  | submit | store | abort | keep | wake => exact hs.transfer rfl rfl fun _ _ _ => rfl
  | cancelTicket id hid =>
    refine hs.transfer rfl ?_ fun _ _ _ => rfl
    simp [Exec.answers, Event.isAnswer]
  | runWake n notify hn =>
    refine hs.transfer rfl ?_ fun _ _ _ => rfl
    cases notify <;> simp [Exec.answers, Event.isAnswer]

/-! ## No lost cancellation -/

/-- The callback has read the ticket. -/
def Stage.past : Stage → Bool
  | .loaded _ | .completed => true
  | _ => false

/-- The ticket is stored before `aborted_` is read, and the callback marks before it reads the
    ticket; whichever comes second sees the other. -/
structure Ticketed (s : Exec) : Prop where
  stored : ∀ id, s.submitter = .stored id ∨ s.submitter = .aborting id ∨
    s.submitter = .completed id → s.ticket = id
  cancelled : ∀ id, s.winner = some (.client, cancellation) → s.submitter = .completed id →
    (s.calls .client).past = true → s.calls .client = .loaded id ∨ .cancelled id ∈ s.log

/-- Steps that move neither the submitter nor the callback. -/
theorem Ticketed.transfer (hs : Ticketed s) (hsubmitter : s'.submitter = s.submitter)
    (hticket : s'.ticket = s.ticket)
    (hwinner : s'.winner = some (.client, cancellation) → (s'.calls .client).past = true →
      s.winner = some (.client, cancellation) ∧ s'.calls .client = s.calls .client)
    (hlog : ∀ e ∈ s.log, e ∈ s'.log) : Ticketed s' := by
  refine ⟨?_, ?_⟩
  · rw [hsubmitter, hticket]
    exact hs.stored
  · intro id hw hid hpast
    obtain ⟨hwin, hcalls⟩ := hwinner hw hpast
    rw [hsubmitter] at hid
    rw [hcalls] at hpast ⊢
    exact (hs.cancelled id hwin hid hpast).imp_right (hlog _)

theorem client_of_setCall (hstage : c = .client → stage.past = false)
    (h : ((s.setCall c stage).calls .client).past = true) :
    (s.setCall c stage).calls .client = s.calls .client := by
  unfold Exec.setCall at *
  by_cases heq : Caller.client = c
  · subst heq
    simp [hstage rfl] at h
  · exact Function.update_of_ne heq _ _

theorem ticketed_step (hone : OneWinner s) (hs : Ticketed s) (h : ExecStep s a s') :
    Ticketed s' := by
  have hmem : ∀ new : List Event, ∀ e ∈ s.log, e ∈ s.log ++ new :=
    fun new e he => List.mem_append_left new he
  -- a callback that is past the mark has set `aborted_`
  have haborted : s.winner = some (.client, cancellation) → (s.calls .client).past = true →
      s.aborted = true := by
    intro hwinner hpast
    have hsettled : (s.calls .client).settled = true := by
      cases hcall : s.calls .client <;> simp [hcall, Stage.past, Stage.settled] at hpast ⊢
    exact ((hone.closed_of_winner hwinner).progress.of_settled hsettled).2
  cases h with
  | stop c f hcall hmutex hstopped =>
    refine hs.transfer rfl rfl (fun hwinner hpast => ?_) fun _ h => h
    cases hwinner
    simp [Exec.setCall, Stage.past] at hpast
  | enter | cancel | late | mark | swap =>
    exact hs.transfer rfl rfl (fun hw h => ⟨hw, client_of_setCall (fun _ => rfl) h⟩) fun _ h => h
  | notify | answer =>
    exact hs.transfer rfl rfl (fun hw h => ⟨hw, client_of_setCall (fun _ => rfl) h⟩) (hmem _)
  | load hcall =>
    refine ⟨hs.stored, fun id hw hid _ => .inl ?_⟩
    rw [← hs.stored id (.inr (.inr hid))]
    simp [Exec.setCall]
  | cancelLoaded id hcall =>
    refine ⟨hs.stored, fun id' hw hid _ => .inr ?_⟩
    rcases hs.cancelled id' hw hid (by rw [hcall]; rfl) with hloaded | hdone
    · cases hcall.symm.trans hloaded
      exact List.mem_append_right _ (List.mem_singleton_self _)
    · exact hmem _ _ hdone
  | submit | store =>
    refine ⟨?_, ?_⟩
    · rintro id' (h | h | h) <;> cases h <;> rfl
    · rintro id' - h
      cases h
  | abort id hid habort =>
    refine ⟨?_, ?_⟩
    · rintro id' (h | h | h) <;> cases h
      exact hs.stored id (.inl hid)
    · rintro id' - h
      cases h
  | keep id hid hkeep =>
    refine ⟨?_, ?_⟩
    · rintro id' (h | h | h) <;> cases h
      exact hs.stored id (.inl hid)
    · -- the callback has not read the ticket yet, or `aborted_` would be set
      intro id' hw _ hpast
      rw [haborted hw hpast] at hkeep
      cases hkeep
  | cancelTicket id hid =>
    refine ⟨?_, ?_⟩
    · rintro id' (h | h | h) <;> cases h
      exact hs.stored id (.inr (.inl hid))
    · rintro id' - h -
      cases h
      exact .inr (List.mem_append_right _ (List.mem_singleton_self _))
  | wake => exact hs.transfer rfl rfl (fun hw _ => ⟨hw, rfl⟩) fun _ h => h
  | runWake n notify hn =>
    refine hs.transfer rfl rfl (fun hw _ => ⟨hw, rfl⟩) fun e he => ?_
    cases notify with
    | true => exact hmem _ e he
    | false => exact he

/-! ## No lost wake-up -/

/-- The call is inside the section of `finish`. -/
def Stage.locked : Stage → Bool
  | .stopping _ | .marked _ => true
  | _ => false

/-- The function of a `wake` has been invoked after the stop, or somebody still has to. -/
def Exec.wakeDue (s : Exec) (n : Nat) : Prop :=
  s.wakers n = .registered true ∨ .woken n true ∈ s.log ∨
    (s.wake = some n ∧ ∀ c f, s.winner = some (c, f) → (s.calls c).locked = true) ∨
    ∃ c f op, s.winner = some (c, f) ∧ s.calls c = .notifying f op (some n)

structure WakesKept (s : Exec) : Prop where
  stopped : ∀ n, s.wakers n = .registered true → s.stopped = true
  due : ∀ n, (∀ m, m ≠ n → s.wakers m = .idle) → s.wakers n ≠ .idle → s.wakeDue n

/-- Steps that register nobody. -/
theorem WakesKept.transfer (hs : WakesKept s) (hwakers : s'.wakers = s.wakers)
    (hstopped : s.stopped = true → s'.stopped = true) (hdue : ∀ n, s.wakeDue n → s'.wakeDue n) :
    WakesKept s' := by
  refine ⟨?_, ?_⟩
  · rw [hwakers]
    exact fun n hn => hstopped (hs.stopped n hn)
  · rw [hwakers]
    exact fun n hothers hn => hdue n (hs.due n hothers hn)

/-- What is due stays due while the winner stays where it is. -/
theorem wakeDue_transfer {n : Nat} (h : s.wakeDue n) (hwakers : s'.wakers n = s.wakers n)
    (hlog : ∀ e ∈ s.log, e ∈ s'.log) (hwake : s'.wake = s.wake) (hwinner : s'.winner = s.winner)
    (hcalls : ∀ c f, s.winner = some (c, f) → (s.calls c).locked = true ∨
      (∃ op, s.calls c = .notifying f op (some n)) → s'.calls c = s.calls c) : s'.wakeDue n := by
  rcases h with hnotify | hdone | ⟨hreg, hlocked⟩ | ⟨c, f, op, hc, hcall⟩
  · exact .inl (hwakers.trans hnotify)
  · exact .inr (.inl (hlog _ hdone))
  · refine .inr (.inr (.inl ⟨hwake.trans hreg, fun c f hc => ?_⟩))
    rw [hwinner] at hc
    rw [hcalls c f hc (.inl (hlocked c f hc))]
    exact hlocked c f hc
  · refine .inr (.inr (.inr ⟨c, f, op, hwinner.trans hc, ?_⟩))
    rw [hcalls c f hc (.inr ⟨op, hcall⟩)]
    exact hcall

/-- A call that is not in the section and has nobody to notify moves on. -/
theorem wakeDue_setCall {n : Nat} (log : List Event) (h : s.wakeDue n)
    (hfree : (s.calls c).locked = false) (hquiet : ∀ f op, s.calls c ≠ .notifying f op (some n))
    (hlog : ∀ e ∈ s.log, e ∈ log) :
    { s.setCall c stage with log := log }.wakeDue n := by
  refine wakeDue_transfer h rfl hlog rfl rfl fun c' f hc' hcase => ?_
  refine Function.update_of_ne ?_ _ _
  rintro rfl
  rcases hcase with hlocked | ⟨op, hcall⟩
  · rw [hfree] at hlocked
    cases hlocked
  · exact hquiet f op hcall

/-- If a call of `wake` is the only one, it is the one that has just moved. -/
theorem sole_waker {m n : Nat} {waker : Waker} (hwaker : waker ≠ .idle)
    (hothers : ∀ x, x ≠ m → Function.update s.wakers n waker x = .idle) : m = n := by
  by_contra hne
  exact hwaker (by simpa using hothers n (Ne.symm hne))

theorem wakesKept_step (hone : OneWinner s) (hs : WakesKept s) (h : ExecStep s a s') :
    WakesKept s' := by
  have hmem : ∀ new : List Event, ∀ e ∈ s.log, e ∈ s.log ++ new :=
    fun new e he => List.mem_append_left new he
  cases h with
  | enter _ _ hcall | cancel hcall | late _ _ hcall | load hcall =>
    exact hs.transfer rfl (fun h => h) fun m hdue =>
      wakeDue_setCall s.log hdue (by rw [hcall]; rfl) (by simp [hcall]) fun _ h => h
  | cancelLoaded _ hcall | answer _ _ _ hcall =>
    exact hs.transfer rfl (fun h => h) fun m hdue =>
      wakeDue_setCall _ hdue (by rw [hcall]; rfl) (by simp [hcall]) (hmem _)
  | stop c f hcall hmutex hstopped =>
    refine hs.transfer rfl (fun _ => rfl) fun m hdue => ?_
    -- before the exchange nobody has been notified
    have hnone := (hone.opened hstopped).winner
    rcases hdue with hnotify | hdone | ⟨hreg, -⟩ | ⟨c', f', op, hc', -⟩
    · exact .inl hnotify
    · exact .inr (.inl hdone)
    · refine .inr (.inr (.inl ⟨hreg, ?_⟩))
      rintro c' f' hc'
      cases hc'
      simp [Exec.setCall, Stage.locked]
    · cases hnone.symm.trans hc'
  | mark c f hcall | swap c f hcall | notify c f op notify hcall =>
    -- the winner goes on to the next stage, with what it has to notify
    have hclosed := hone.closed_of_won hcall rfl
    have hwinner := hclosed.winner
    have hstopped := hclosed.stopped
    refine hs.transfer rfl (fun h => h) fun m hdue => ?_
    simp only [Exec.wakeDue, Exec.setCall, Exec.swap] at hdue ⊢
    grind [Stage.locked]
  | submit | store | abort | keep =>
    exact hs.transfer rfl (fun h => h) fun m hdue =>
      wakeDue_transfer hdue rfl (fun _ h => h) rfl rfl fun _ _ _ _ => rfl
  | cancelTicket id hid =>
    exact hs.transfer rfl (fun h => h) fun m hdue =>
      wakeDue_transfer hdue rfl (hmem _) rfl rfl fun _ _ _ _ => rfl
  | wake n hidle hmutex =>
    have hold := hs.stopped
    -- if only the new call is there, it is the one that is registered
    have hstopped : s.winner = none ∨ s.stopped = true :=
      hone.imp Open.winner fun ⟨_, _, hclosed⟩ => hclosed.stopped
    simp only [Exec.register, Exec.setWaker]
    refine ⟨fun m hm => by grind, fun m hothers _ => ?_⟩
    obtain rfl := sole_waker Waker.noConfusion hothers
    unfold Exec.wakeDue
    grind
  | runWake n notify hn =>
    have hold := hs.stopped
    simp only [Exec.setWaker]
    refine ⟨fun m hm => by grind, fun m hothers _ => ?_⟩
    obtain rfl := sole_waker Waker.noConfusion hothers
    have hbefore : ∀ x, x ≠ m → s.wakers x = .idle := fun x hx => by simpa [hx] using hothers x hx
    have hdue := hs.due m hbefore (by simp [hn])
    unfold Exec.wakeDue at *
    grind

/-! ## Every interleaving -/

/-- The invariants together. -/
structure Coherent (s : Exec) : Prop where
  one : OneWinner s
  asked : Asked s
  answered : Answered s
  ticketed : Ticketed s
  wakes : WakesKept s

theorem coherent_start : Coherent {} where
  one := .inl ⟨rfl, rfl, rfl, rfl, rfl, fun _ => rfl⟩
  asked := ⟨by simp, by simp, by simp⟩
  answered := ⟨fun _ => rfl, by simp, by simp⟩
  ticketed := ⟨by simp, by simp⟩
  wakes := ⟨by simp, by simp⟩

theorem coherent_step (hs : Coherent s) (h : step s a = some s') :
    Coherent s' :=
  have hstep := step_execStep h
  ⟨oneWinner_step hs.one hstep, asked_step hs.asked hstep,
    answered_step hs.one hs.answered hstep, ticketed_step hs.one hs.ticketed hstep,
    wakesKept_step hs.one hs.wakes hstep⟩

theorem coherent_reachable (hs : machine.Reachable s) : Coherent s := by
  refine hs.invariant (P := Coherent) ?_ fun _ _ _ => coherent_step
  rintro _ rfl
  exact coherent_start

/-- One answer, no lost cancellation, no lost wake-up.  A `wake` that another one replaces is
    nobody's to invoke, so the last part is about the only `wake` of the operation. -/
structure QueuedOnce (s : Exec) : Prop where
  once : s.answers.length ≤ 1
  silent : ∀ f, s.winner = some (.client, f) → s.answers = []
  cancelled : ∀ f id, s.winner = some (.client, f) → s.submitter = .completed id →
    s.calls .client = .completed → .cancelled id ∈ s.log
  woken : ∀ n c f, (∀ m, m ≠ n → s.wakers m = .idle) → s.wakers n = .completed →
    s.winner = some (c, f) → (s.calls c).settled = true → .woken n true ∈ s.log

theorem length_answer_le (f : Finish) (op : Bool) : (Exec.answer f op).length ≤ 1 := by
  unfold Exec.answer
  split
  · split <;> exact le_refl _
  · exact Nat.zero_le _

/-- **A queued operation** is answered at most once and not at all after a cancellation, whose
    ticket is cancelled, and whoever waits is woken. -/
theorem queued_exec_once {s : Exec} (hs : machine.Reachable s) : QueuedOnce s := by
  have hinv := coherent_reachable hs
  have hclient : ∀ f, s.winner = some (.client, f) → f = cancellation := by
    intro f hwinner
    rcases hinv.asked.winner _ _ hwinner with ⟨-, hf⟩ | ⟨n, call, hc, -⟩
    · exact hf
    · cases hc
  refine ⟨?_, ?_, ?_, ?_⟩
  · cases hwinner : s.winner with
    | none => simp [hinv.answered.none hwinner]
    | some win =>
      cases hsettled : (s.calls win.1).settled with
      | true =>
        rw [hinv.answered.given win.1 win.2 hwinner hsettled]
        exact length_answer_le _ _
      | false => simp [hinv.answered.pending win.1 win.2 hwinner hsettled]
  · intro f hwinner
    obtain rfl := hclient f hwinner
    cases hsettled : (s.calls .client).settled with
    | true => exact hinv.answered.given _ _ hwinner hsettled
    | false => exact hinv.answered.pending _ _ hwinner hsettled
  · intro f id hwinner hid hcall
    obtain rfl := hclient f hwinner
    rcases hinv.ticketed.cancelled id hwinner hid (by rw [hcall]; rfl) with hloaded | hdone
    · cases hcall.symm.trans hloaded
    · exact hdone
  · intro n c f hothers hn hwinner hsettled
    rcases hinv.wakes.due n hothers (by simp [hn]) with h | hdone | ⟨-, hlocked⟩ | ⟨c', f', op, hc', h⟩
    · cases hn.symm.trans h
    · exact hdone
    · have hsection := hlocked c f hwinner
      cases hcall : s.calls c <;> simp [hcall, Stage.settled, Stage.locked] at hsettled hsection
    · cases hwinner.symm.trans hc'
      rw [h] at hsettled
      cases hsettled

/-- The callback reads the ticket before it is stored, an error comes too late, and a worker
    starts to wait after the stop. -/
theorem queued_exec_once_race : ∃ s, machine.Reachable s ∧ QueuedOnce s ∧
    s.log = [.cancelled 0, .cancelled 7, .woken 0 true] ∧ s.submitter = .completed 7 := by
  let run : List Label := [.submit 7, .cancel, .enter 0 (.error "expired"), .stop .client,
    .mark .client, .swap .client, .stop (.other 0), .notify .client, .answer .client, .load,
    .store, .cancelLoaded, .check, .cancelTicket, .wake 0, .runWake 0]
  have hrun : (machine.exec {} run).map (fun s => (s.log, s.submitter)) =
      some ([.cancelled 0, .cancelled 7, .woken 0 true], .completed 7) := by decide
  obtain ⟨s, hexec, hobs⟩ := Option.map_eq_some_iff.mp hrun
  have hreach : machine.Reachable s := ⟨_, run, rfl, hexec⟩
  obtain ⟨hlog, hsubmitter⟩ := Prod.mk.inj hobs
  exact ⟨s, hreach, queued_exec_once hreach, hlog, hsubmitter⟩

/-! ## Errors -/

/-- The winner and its return are final. -/
theorem settled_step (hone : OneWinner s) (hs : s.winner = some (c, f) ∧ (s.calls c).settled = true)
    (h : ExecStep s a s') :
    s'.winner = some (c, f) ∧ (s'.calls c).settled = true := by
  obtain ⟨hwinner, hsettled⟩ := hs
  have hkeep : ∀ c' stage, ((s.calls c').settled = true → stage.settled = true) →
      ((s.setCall c' stage).calls c).settled = true := by
    intro c' stage hstage
    unfold Exec.setCall
    by_cases heq : c = c'
    · subst heq
      simpa using hstage hsettled
    · simpa [heq] using hsettled
  cases h with
  | stop c' f' hcall hmutex hstopped =>
    rw [(hone.closed_of_winner hwinner).stopped] at hstopped
    cases hstopped
  | enter _ _ hcall | cancel hcall | mark _ _ hcall | swap _ _ hcall | notify _ _ _ _ hcall =>
    exact ⟨hwinner, hkeep _ _ (by simp [hcall, Stage.settled])⟩
  | late | answer | load | cancelLoaded => exact ⟨hwinner, hkeep _ _ fun _ => rfl⟩
  | submit | store | abort | keep | cancelTicket | wake | runWake => exact ⟨hwinner, hsettled⟩

/-- What the client has received and what `ticket` will see after the winner has returned. -/
theorem settled_run {t : Exec} (hs : machine.Reachable s) {as : List Label}
    (hrun : machine.exec s as = some t) (hwinner : s.winner = some (c, f))
    (hsettled : (s.calls c).settled = true) :
    t.answers = Exec.answer f true ∧ t.aborted = f.aborts := by
  have hfinal : machine.Reachable t ∧ t.winner = some (c, f) ∧ (t.calls c).settled = true := by
    refine machine.exec_invariant
      (P := fun t => machine.Reachable t ∧ t.winner = some (c, f) ∧ (t.calls c).settled = true)
      ?_ ⟨hs, hwinner, hsettled⟩ hrun
    intro u a u' ⟨hu, hrest⟩ hstep
    exact ⟨hu.step hstep, settled_step (coherent_reachable hu).one hrest (step_execStep hstep)⟩
  obtain ⟨ht, hwin, hset⟩ := hfinal
  have hinv := coherent_reachable ht
  exact ⟨hinv.answered.given c f hwin hset, ((hinv.one.closed_of_winner hwin).progress.of_settled hset).2⟩

/-- The client has received this error and nothing else, now and later, and a later `ticket`
    cancels the operation. -/
def ReportedAs (s : Exec) (message : String) : Prop :=
  ∀ as t, machine.exec s as = some t → t.answers = [.errored message] ∧
    ∀ id, t.submitter = .stored id → ∃ u, step t .check = some u ∧ u.submitter = .aborting id

/-- **An error that comes first** reaches the client as an error, and the ticket as an abortion,
    exactly when it has a text. -/
theorem error_reported_iff {s : Exec} (hs : machine.Reachable s) {n : Nat} {message : String}
    (hfirst : s.winner = some (.other n, (Terminal.error message).finish))
    (hdone : (s.calls (.other n)).settled = true) : ReportedAs s message ↔ message ≠ "" := by
  constructor
  · rintro hreported rfl
    obtain ⟨herror, -⟩ := hreported [] s rfl
    have hreply := (settled_run hs (machine.exec_nil s) hfirst hdone).1
    cases hreply.symm.trans herror
  · intro hmessage as t hrun
    obtain ⟨hanswers, haborted⟩ := settled_run hs hrun hfirst hdone
    refine ⟨?_, ?_⟩
    · rw [hanswers]
      simp [Exec.answer, Terminal.finish, hmessage]
    · intro id hid
      refine ⟨{ t with submitter := .aborting id }, ?_, rfl⟩
      simp [step, hid, haborted, Finish.aborts, Terminal.finish, hmessage]

/-- A task that is refused by the queue, whose ticket arrives after the error. -/
theorem error_reported_refused : ∃ s, machine.Reachable s ∧ s.submitter = .stored 0 ∧
    ReportedAs s "operation queue overloaded" := by
  let run : List Label := [.enter 0 (.error "operation queue overloaded"), .stop (.other 0),
    .mark (.other 0), .swap (.other 0), .notify (.other 0), .answer (.other 0), .submit 0, .store]
  have hrun : (machine.exec {} run).map (fun s => (s.winner, s.calls (.other 0), s.submitter)) =
      some (some (.other 0, (Terminal.error "operation queue overloaded").finish), .returned,
        .stored 0) := by decide
  obtain ⟨s, hexec, hobs⟩ := Option.map_eq_some_iff.mp hrun
  simp only [Prod.mk.injEq] at hobs
  have hreach : machine.Reachable s := ⟨_, run, rfl, hexec⟩
  refine ⟨s, hreach, hobs.2.2, (error_reported_iff hreach hobs.1 ?_).mpr (by decide)⟩
  rw [hobs.2.1]
  rfl

/-- **An error without a text** reaches the client as a reply. -/
theorem empty_error_replied : ∃ s, machine.exec {} [.enter 0 (.error ""), .stop (.other 0),
    .mark (.other 0), .swap (.other 0), .notify (.other 0), .answer (.other 0)] = some s ∧
      s.log = [.replied none] ∧ s.aborted = false := by
  have hrun : (machine.exec {} [.enter 0 (.error ""), .stop (.other 0), .mark (.other 0),
      .swap (.other 0), .notify (.other 0), .answer (.other 0)]).map
        (fun s => (s.log, s.aborted)) = some ([.replied none], false) := by decide
  obtain ⟨s, hexec, hobs⟩ := Option.map_eq_some_iff.mp hrun
  obtain ⟨hlog, haborted⟩ := Prod.mk.inj hobs
  exact ⟨s, hexec, hlog, haborted⟩

end RedisPvxsIoc.QueuedExec
