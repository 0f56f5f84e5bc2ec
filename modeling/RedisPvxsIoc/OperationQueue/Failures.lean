import RedisPvxsIoc.OperationQueue.LifeCycle

/-!
# Reported Failures

A task that was accepted can be failed from four sides: the timer, a `cancel`, `stop`, and the
worker that picks it too late.  Each of them looks at the `failed` flag, or at a task whose flag
cannot be set, before it promises a call of `fail`, so together they make one call at most.  The
handler of an exception from `run()` does not look at the flag, and does not set it.

## Main results

- `reportedOnce_reachable`: the calls of the four sides, made or still to be made, are as many as
  the flag says
- `thrownOnce_reachable`: an exception is reported at most once
- `fail_called_once_iff`: `fail` is called at most once unless both happen
-/

namespace RedisPvxsIoc.OperationQueue

open Foundations

/-! ## Counting -/

/-- A call of `fail` for the task. -/
def Event.failure (id : TaskId) : Event → Bool
  | .failed id' _ => id' == id
  | _ => false

/-- A call that the timer, a `cancel`, `stop` or a late pick makes. -/
def Event.report (id : TaskId) : Event → Bool
  | .failed id' reason => id' == id && reason != .exception
  | _ => false

namespace Impl

/-- The calls of `fail` for an accepted task. -/
def failures (s : Impl) (id : TaskId) : Nat := s.log.countP (Event.failure id)

/-- The calls of `fail` for the `n`-th submission that returned zero. -/
def refusalCalls (s : Impl) (n : Nat) : Nat := s.log.countP (Event.refusal n)

/-- `run()` has thrown for the task. -/
def threw (s : Impl) (id : TaskId) : Prop := .failed id .exception ∈ s.log

/-- `fail` has been called for the task without an exception. -/
def rejected (s : Impl) (id : TaskId) : Prop := ∃ reason ≠ .exception, .failed id reason ∈ s.log

/-- The identifiers that `stop` still has to reject. -/
def stopping (s : Impl) : List TaskId :=
  match s.shutdown with
  | .rejecting rest => rest
  | _ => []

/-- A worker has picked the task past its deadline. -/
def isLate (s : Impl) (id : TaskId) : Prop := ∃ w, s.workers w = .picked id true

/-- A worker is in `run()` of the task. -/
def isRunning (s : Impl) (id : TaskId) : Prop := ∃ w, s.workers w = .running id

open Classical in
/-- The call that a late worker still has to make. -/
noncomputable def lateCalls (s : Impl) (id : TaskId) : Nat := if s.isLate id then 1 else 0

/-- The calls without an exception that somebody has promised and not made yet. -/
noncomputable def owed (s : Impl) (id : TaskId) : Nat :=
  s.cancelling.count id + (if s.timer = .rejecting id then 1 else 0) + s.stopping.count id +
    s.lateCalls id

/-- Those that have been made. -/
def reported (s : Impl) (id : TaskId) : Nat := s.log.countP (Event.report id)

end Impl

/-! ## One side reports -/

/-- What the four sides have promised or done is what the flag says. -/
structure ReportedOnce (s : Impl) : Prop where
  balance : ∀ id, s.reported id + s.owed id = if (s.heap id).failed then 1 else 0
  unborn : ∀ id, s.nextId < id → (s.heap id).failed = false

variable {id : TaskId}

section Flag

variable {s s' : Impl}

/-- A task that gets the flag did not have it. -/
theorem cancel_unmarked (h : s.cancel id = some s') (hlife : s'.cancelling = id :: s.cancelling) :
    (s.heap id).failed = false := by
  cases cancel_cases h
  case ignored => exact absurd hlife (List.cons_ne_self _ _).symm
  all_goals assumption

theorem expire_unmarked {now : Time} (h : s.expire now = some s') (hwaiting : s.timer = .waiting)
    (hlife : s'.timer = .rejecting id) :
    (s.heap id).failed = false := by
  cases expire_cases h
  case untimed => cases hwaiting.symm.trans hlife
  case timerExit => cases hlife
  all_goals
    cases hlife
    assumption

/-- `stop` rejects every task of the index that has not failed, once. -/
theorem stop_count (hindex : Indexed s) {cancelled : List TaskId} (hrunning : s.stopped = false)
    (h : s.stop = some s') (hshutdown : s'.shutdown = .rejecting cancelled) (id : TaskId) :
    cancelled.count id = if id ∈ s.tasks ∧ (s.heap id).failed = false then 1 else 0 := by
  cases stop_cases h with
  | stop =>
    cases hshutdown
    rw [(hindex.nodup.filter _).count]
    simp
  | stopAgain hstopped =>
    rw [hrunning] at hstopped
    cases hstopped

end Flag

variable {s : Impl} {w : Nat}

/-- No two workers hold the same task. -/
theorem Scheduled.holder_unique (hs : Scheduled s) {w' : Nat} (h : s.holds w id)
    (h' : s.holds w' id) : w = w' :=
  hs.single w w' id id h h' rfl

section Late

variable {s s' : Impl} {w : Nat} {id : TaskId} {next : Worker}

theorem lateCalls_congr (h : s'.isLate id ↔ s.isLate id) : s'.lateCalls id = s.lateCalls id := by
  classical exact if_congr h rfl rfl

theorem lateCalls_zero (h : ¬ s.isLate id) : s.lateCalls id = 0 := if_neg h

theorem isLate_update (hworkers : s'.workers = Function.update s.workers w next)
    (hw : ∀ id, s.workers w ≠ .picked id true) (id : TaskId) :
    s'.isLate id ↔ s.isLate id ∨ next = .picked id true := by
  unfold Impl.isLate
  rw [hworkers]
  constructor
  · rintro ⟨w', hw'⟩
    by_cases heq : w' = w
    · subst heq
      exact .inr (by simpa using hw')
    · exact .inl ⟨w', by simpa [heq] using hw'⟩
  · rintro (⟨w', hw'⟩ | rfl)
    · refine ⟨w', ?_⟩
      rw [Function.update_of_ne]
      · exact hw'
      · rintro rfl
        exact hw id hw'
    · exact ⟨w, by simp⟩

/-- The worker that has picked a task late is the only one. -/
theorem isLate_dispatch (hsched : Scheduled s) (hw : s.workers w = .picked id true)
    (hworkers : s'.workers = Function.update s.workers w (.returned id)) (id' : TaskId) :
    s'.isLate id' ↔ s.isLate id' ∧ id' ≠ id := by
  unfold Impl.isLate
  rw [hworkers]
  constructor
  · rintro ⟨w', hw'⟩
    by_cases heq : w' = w
    · subst heq
      simp at hw'
    · rw [Function.update_of_ne heq] at hw'
      refine ⟨⟨w', hw'⟩, ?_⟩
      rintro rfl
      have hheld' : s.holds w' id' := by simp [Impl.holds, hw', Worker.task?]
      exact heq (hsched.holder_unique hheld' (by simp [Impl.holds, hw, Worker.task?]))
  · rintro ⟨⟨w', hw'⟩, hne⟩
    refine ⟨w', ?_⟩
    rw [Function.update_of_ne]
    · exact hw'
    · rintro rfl
      rw [hw] at hw'
      cases hw'
      exact hne rfl

end Late

variable {a : Label}

variable {s' : Impl}

/-- A task that has not been submitted yet has no flag. -/
theorem unborn_step (hindex : Indexed s) (hs : ReportedOnce s) (h : LifeStep s s' a)
    (hid : s'.nextId < id) : (s'.heap id).failed = false := by
  have hold := hs.unborn id
  have hknown := hindex.known id
  have hqueued : s.waits id → id ∈ s.tasks := fun ⟨key, hkey⟩ => (hindex.queued key id hkey).1
  cases h
  all_goals
    rename_i hlife hwaits
    simp only [Impl.life, Impl.Life.mk.injEq] at hlife
    obtain ⟨-, hnext, hfailed, -⟩ := hlife
    have hflag : (s'.heap id).failed = _ := congrFun hfailed id
    grind [Function.update_apply]

/-- **One side reports.**  Every step keeps the balance between the flag and the calls. -/
theorem reportedOnce_step (hsched : Scheduled s) (hindex : Indexed s) (hacc : Accounted s)
    (hs : ReportedOnce s) (h : step s a = some s') : ReportedOnce s' := by
  have hstep := step_lifeStep hsched hindex h
  refine ⟨?_, fun id => unborn_step hindex hs hstep⟩
  intro id
  have hid := hs.balance id
  have hquiet : s'.workers = s.workers → s'.lateCalls id = s.lateCalls id := by
    intro heq
    refine lateCalls_congr ?_
    unfold Impl.isLate
    rw [heq]
  -- a worker that moves on without a late pick
  have hmoves : ∀ w next, s'.workers = Function.update s.workers w next →
      (∀ id, s.workers w ≠ .picked id true) → next ≠ .picked id true →
      s'.lateCalls id = s.lateCalls id := by
    intro w next hworkers hw hnext
    refine lateCalls_congr ?_
    rw [isLate_update hworkers hw]
    exact or_iff_left hnext
  cases hstep
  all_goals
    rename_i hlife hwaits
    simp only [Impl.life, Impl.Life.mk.injEq] at hlife
    obtain ⟨hstopped, -, hfailed, hworkers, htimer, hcancelling, -, -, hshutdown, hlog⟩ := hlife
    have hflag : (s'.heap id).failed = _ := congrFun hfailed id
    unfold Impl.reported Impl.owed Impl.stopping at *
    rw [hlog, htimer, hcancelling, hshutdown, hflag]
  case take w now key id' hrunning hworker hwaiting =>
    -- a task that waits has no flag, so nobody has promised anything
    have hunmarked := hacc.fresh id' hwaiting hrunning
    have hlate := isLate_update hworkers (by simp [hworker]) id
    grind [Event.report, Function.update_apply, Impl.lateCalls]
  case late w id' hworker =>
    have hlate := isLate_dispatch hsched hworker hworkers id
    have hnow : s.isLate id' := ⟨w, hworker⟩
    grind [Event.report, Impl.lateCalls]
  case exit w now _ hworker | start w _ hworker | runReturns w _ _ hworker | finish w _ hworker =>
    rw [hmoves w _ hworkers (by simp [hworker]) (by simp)]
    grind [Event.report]
  all_goals rw [hquiet hworkers]
  case accepted work now hrunning =>
    have hunmarked := hs.unborn (s.nextId + 1)
    grind
  case cancel id' hmem =>
    have hunmarked := cancel_unmarked h hcancelling
    grind [Function.update_apply]
  case cancelled id' hmem =>
    have hpromised := List.count_pos_iff.mpr hmem
    grind [Event.report]
  case expire now id' hrunning hwaiting hmem =>
    have hunmarked := expire_unmarked h hwaiting htimer
    grind [Function.update_apply]
  case stop cancelled hrunning hcancelled =>
    have hcount := stop_count hindex hrunning h hshutdown id
    have hidle : s.shutdown = .idle := by
      by_contra hne
      rw [hacc.stopping hne] at hrunning
      cases hrunning
    grind
  all_goals grind [Event.report]

theorem reportedOnce_start (h : machine.start s) : ReportedOnce s := by
  obtain ⟨limits, -, rfl⟩ := h
  refine ⟨fun id => ?_, fun _ _ => rfl⟩
  have hlate : ¬ ({ limits := limits } : Impl).isLate id := by simp [Impl.isLate]
  simp [Impl.reported, Impl.owed, Impl.stopping, lateCalls_zero hlate]
  rfl

theorem reportedOnce_reachable (hs : machine.Reachable s) : ReportedOnce s :=
  hs.invariant_with (I := fun s => (Scheduled s ∧ Indexed s) ∧ LifeOk s)
    (fun _ h => ⟨⟨scheduled_reachable h, indexed_reachable h⟩, lifeOk_reachable h⟩)
    (fun _ => reportedOnce_start)
    (fun _ _ _ hinv _ => reportedOnce_step hinv.1.1 hinv.1.2 hinv.2.accounted)

/-! ## Exceptions -/

/-- The exceptions of a task that have been reported. -/
def Impl.thrown (s : Impl) (id : TaskId) : Nat := s.log.count (.failed id .exception)

/-- Every exception, reported or still possible, belongs to a start of its own. -/
structure ThrownOnce (s : Impl) : Prop where
  returned : ∀ id, s.thrown id ≤ s.log.count (.started id)
  running : ∀ id, s.isRunning id → s.thrown id < s.log.count (.started id)

/-- A worker that leaves `run()` was the only one in it. -/
theorem not_isRunning_returned (hsched : Scheduled s) (hw : s.workers w = .running id)
    (hworkers : s'.workers = Function.update s.workers w (.returned id)) : ¬ s'.isRunning id := by
  rintro ⟨w', hw'⟩
  rw [hworkers] at hw'
  by_cases heq : w' = w
  · simp [heq] at hw'
  · rw [Function.update_of_ne heq] at hw'
    have hheld' : s.holds w' id := by simp [Impl.holds, hw', Worker.task?]
    exact heq (hsched.holder_unique hheld' (by simp [Impl.holds, hw, Worker.task?]))

/-- A worker that is in `run()` after a step was there before, or has just entered. -/
theorem isRunning_of_update {next : Worker}
    (hworkers : s'.workers = Function.update s.workers w next) (h : s'.isRunning id) :
    s.isRunning id ∨ next = .running id := by
  obtain ⟨w', hw'⟩ := h
  rw [hworkers] at hw'
  by_cases heq : w' = w
  · exact .inr (by simpa [heq] using hw')
  · exact .inl ⟨w', by simpa [heq] using hw'⟩

theorem thrownOnce_step (hsched : Scheduled s) (hs : ThrownOnce s) (h : LifeStep s s' a) :
    ThrownOnce s' := by
  suffices hgen : ∀ id, s'.thrown id ≤ s'.log.count (.started id) ∧
      (s'.isRunning id → s'.thrown id < s'.log.count (.started id)) from
    ⟨fun id => (hgen id).1, fun id => (hgen id).2⟩
  intro id
  have hreturned := hs.returned id
  have hrunning := hs.running id
  have hquiet : s'.workers = s.workers → s'.isRunning id → s.isRunning id := by
    intro heq
    unfold Impl.isRunning
    rw [heq]
    exact fun h => h
  cases h
  all_goals
    rename_i hlife hwaits
    simp only [Impl.life, Impl.Life.mk.injEq] at hlife
    obtain ⟨-, -, -, hworkers, -, -, -, -, -, hlog⟩ := hlife
    unfold Impl.thrown at *
    rw [hlog]
  case runReturns w id' threw hworker =>
    have hleft := not_isRunning_returned hsched hworker hworkers
    have hlt := hs.running id' ⟨w, hworker⟩
    have hold : s'.isRunning id → _ := isRunning_of_update hworkers
    unfold Impl.thrown at hlt
    grind
  case exit | take | start | late | finish =>
    have hold : s'.isRunning id → _ := isRunning_of_update hworkers
    grind
  all_goals
    have hold := hquiet hworkers
    grind

theorem thrownOnce_reachable (hs : machine.Reachable s) : ThrownOnce s := by
  refine hs.invariant_with (I := fun s => Scheduled s ∧ Indexed s)
    (fun _ h => ⟨scheduled_reachable h, indexed_reachable h⟩) ?_
    (fun _ _ _ hinv _ hs h => thrownOnce_step hinv.1 hs (step_lifeStep hinv.1 hinv.2 h))
  rintro _ ⟨limits, -, rfl⟩
  exact ⟨by simp [Impl.thrown], by simp [Impl.isRunning]⟩

/-! ## How often a failure is reported -/

/-- The calls of `fail` are those of the exceptions and those of the others. -/
theorem failures_eq (s : Impl) (id : TaskId) : s.failures id = s.thrown id + s.reported id := by
  unfold Impl.failures Impl.thrown Impl.reported
  induction s.log with
  | nil => rfl
  | cons event log ih =>
    rw [List.countP_cons, List.countP_cons, List.count_cons, ih]
    cases event with
    | failed id' reason =>
      by_cases heq : id' = id
      · cases reason <;> simp [Event.failure, Event.report, heq] <;> omega
      · simp [Event.failure, Event.report, heq]
    | picked | started | refused => simp [Event.failure, Event.report]

theorem reported_pos_iff (s : Impl) (id : TaskId) : 0 < s.reported id ↔ s.rejected id := by
  unfold Impl.reported Impl.rejected
  rw [List.countP_pos_iff]
  constructor
  · rintro ⟨event, hmem, hreport⟩
    cases event with
    | failed id' reason =>
      simp only [Event.report, Bool.and_eq_true, beq_iff_eq, bne_iff_ne] at hreport
      obtain ⟨rfl, hreason⟩ := hreport
      exact ⟨reason, hreason, hmem⟩
    | picked | started | refused => cases hreport
  · rintro ⟨reason, hreason, hmem⟩
    exact ⟨_, hmem, by simp [Event.report, hreason]⟩

/-- **How often `fail` is called.**  For every submission, accepted or refused, at most once,
    exactly as long as no task whose `run()` threw was also failed by the timer, a `cancel`, `stop`
    or a late pick. -/
theorem fail_called_once_iff {s : Impl} (hs : machine.Reachable s) :
    ((∀ id, s.failures id ≤ 1) ∧ ∀ n, s.refusalCalls n ≤ 1) ↔
      ∀ id, s.threw id → ¬ s.rejected id := by
  have hlife := lifeOk_reachable hs
  have hthrown : ∀ id, s.thrown id ≤ 1 := fun id =>
    ((thrownOnce_reachable hs).returned id).trans (hlife.starts.once id)
  have hreported : ∀ id, s.reported id ≤ 1 := by
    intro id
    have hbalance := (reportedOnce_reachable hs).balance id
    split at hbalance <;> omega
  have hrefused : ∀ n, s.refusalCalls n ≤ 1 := by
    intro n
    have hn := hlife.refused n
    unfold Impl.refusals at hn
    unfold Impl.refusalCalls
    split at hn <;> omega
  have hthrew : ∀ id, s.threw id ↔ 0 < s.thrown id := fun id => List.count_pos_iff.symm
  constructor
  · rintro ⟨hfailures, -⟩ id hthrow hreject
    have h₁ := (hthrew id).mp hthrow
    have h₂ := (reported_pos_iff s id).mpr hreject
    have h₃ := hfailures id
    rw [failures_eq] at h₃
    omega
  · intro hnot
    refine ⟨fun id => ?_, hrefused⟩
    rw [failures_eq]
    have h₁ := hthrown id
    have h₂ := hreported id
    have h₃ := hnot id
    rw [hthrew, ← reported_pos_iff] at h₃
    omega

/-- A task that the timer fails while it runs, and one whose `run()` throws: one call each. -/
theorem fail_called_once_expired : ∃ s, machine.Reachable s ∧
    s.log = [.picked "pv" 1, .started 1, .failed 1 .deadline, .picked "pv" 2, .started 2,
      .failed 2 .exception] ∧ (∀ id, s.failures id ≤ 1) ∧ ∀ n, s.refusalCalls n ≤ 1 := by
  let run : List Label := [.submit ⟨"pv", 8, 10⟩ 0, .submit ⟨"pv", 8, 20⟩ 0, .pick 0 1,
    .dispatch 0, .expire 10, .expired, .runReturns 0 false, .finish 0, .pick 0 11, .dispatch 0,
    .runReturns 0 true]
  have hrun : (machine.exec { limits := { workers := 1 } } run).map Impl.log =
      some [.picked "pv" 1, .started 1, .failed 1 .deadline, .picked "pv" 2, .started 2,
        .failed 2 .exception] := by decide
  obtain ⟨s, hexec, hlog⟩ := Option.map_eq_some_iff.mp hrun
  have hreach : machine.Reachable s := ⟨_, run, ⟨_, by decide, rfl⟩, hexec⟩
  refine ⟨s, hreach, hlog, (fail_called_once_iff hreach).mpr ?_⟩
  rintro id hthrow ⟨reason, hreason, hmem⟩
  unfold Impl.threw at hthrow
  rw [hlog] at hthrow hmem
  simp at hthrow hmem
  grind

/-- **Two calls for one task**: the timer fails a task that runs, and then its `run()` throws. -/
theorem fail_called_twice : ∃ s, machine.Reachable s ∧ s.failures 1 = 2 := by
  let run : List Label := [.submit ⟨"pv", 8, 10⟩ 0, .pick 0 1, .dispatch 0, .expire 10, .expired,
    .runReturns 0 true]
  have hrun : (machine.exec { limits := { workers := 1 } } run).map (fun s => s.failures 1) =
      some 2 := by decide
  obtain ⟨s, hexec, hfailures⟩ := Option.map_eq_some_iff.mp hrun
  exact ⟨s, ⟨_, run, ⟨_, by decide, rfl⟩, hexec⟩, hfailures⟩

end RedisPvxsIoc.OperationQueue
