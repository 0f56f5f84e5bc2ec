import RedisPvxsIoc.OperationQueue.Index

/-!
# The Life of a Task

A submitted task is refused, or it waits in a lane until a worker takes it, a client cancels
it, the timer expires it or the queue stops.  Each of these leaves the lock before it calls
`run` or `fail`, so a state also contains the calls that are still to be made: those of
`submit`, `cancel`, the timer, the workers and `stop`.

`LifeStep` says once, for each label, what a step does to this part of the state.  A task can
start in the future only while `CanStart` holds, and `CanStart` never comes back.

## Main results

- `started_of_not_canStart`: a task that cannot start never starts
- `accounted_reachable`: an accepted task has been started or failed, or somebody still has to
- `task_life_cycle`: the life cycle of every submission
- `workers_progress`: the workers never get stuck
-/

namespace RedisPvxsIoc.OperationQueue

open Foundations

/-! ## Observations -/

namespace Impl

/-- The task waits in a lane. -/
def waits (s : Impl) (id : TaskId) : Prop := ∃ key, id ∈ s.queueAt key

/-- The part of the state in which the life of tasks is recorded. -/
structure Life where
  stopped : Bool
  nextId : Nat
  failed : TaskId → Bool
  workers : Nat → Worker
  timer : Timer
  cancelling : List TaskId
  refusing : List (Nat × OperationFailure)
  nextRefused : Nat
  shutdown : Shutdown
  log : List Event

def life (s : Impl) : Life :=
  { stopped := s.stopped, nextId := s.nextId, failed := fun id => (s.heap id).failed
    workers := s.workers, timer := s.timer, cancelling := s.cancelling, refusing := s.refusing
    nextRefused := s.nextRefused, shutdown := s.shutdown, log := s.log }

end Impl

/-! ## What a step does -/

/-- What each label does to the life of tasks. -/
inductive LifeStep (s s' : Impl) : Label → Prop where
  | quiet (a : Label) : s'.life = s.life → (∀ id, s'.waits id ↔ s.waits id) → LifeStep s s' a
  | accepted (work : Work) (now : Time) : s.stopped = false →
      s'.life = { s.life with
        nextId := s.nextId + 1
        failed := Function.update s.life.failed (s.nextId + 1) false } →
      (∀ id, s'.waits id ↔ s.waits id ∨ id = s.nextId + 1) → LifeStep s s' (.submit work now)
  | turnedAway (work : Work) (now : Time) (reason : OperationFailure) :
      s'.life = { s.life with
        refusing := (s.nextRefused, reason) :: s.refusing, nextRefused := s.nextRefused + 1 } →
      (∀ id, s'.waits id ↔ s.waits id) → LifeStep s s' (.submit work now)
  | refused (n : Nat) (reason : OperationFailure) : (n, reason) ∈ s.refusing →
      s'.life = { s.life with
        refusing := s.refusing.erase (n, reason), log := s.log ++ [.refused n reason] } →
      (∀ id, s'.waits id ↔ s.waits id) → LifeStep s s' (.refused n reason)
  | cancel (id : TaskId) : id ∈ s.tasks →
      s'.life = { s.life with
        cancelling := id :: s.cancelling, failed := Function.update s.life.failed id true } →
      (∀ id', s'.waits id' ↔ s.waits id' ∧ id' ≠ id) → LifeStep s s' (.cancel id)
  | cancelled (id : TaskId) : id ∈ s.cancelling →
      s'.life = { s.life with
        cancelling := s.cancelling.erase id, log := s.log ++ [.failed id .cancelled] } →
      (∀ id', s'.waits id' ↔ s.waits id') → LifeStep s s' (.cancelled id)
  | exit (w : Nat) (now : Time) : s.stopped = true → s.workers w = .waiting →
      s'.life = { s.life with workers := Function.update s.workers w .exited } →
      (∀ id, s'.waits id ↔ s.waits id) → LifeStep s s' (.pick w now)
  | take (w : Nat) (now : Time) (key : Key) (id : TaskId) : s.stopped = false →
      s.workers w = .waiting → s.waits id →
      s'.life = { s.life with
        workers := Function.update s.workers w
          (.picked id (decide ((s.heap id).work.deadline ≤ now)))
        failed := Function.update s.life.failed id
          ((s.heap id).failed || decide ((s.heap id).work.deadline ≤ now))
        log := s.log ++ [.picked key id] } →
      (∀ id', s'.waits id' ↔ s.waits id' ∧ id' ≠ id) → LifeStep s s' (.pick w now)
  | start (w : Nat) (id : TaskId) : s.workers w = .picked id false →
      s'.life = { s.life with
        workers := Function.update s.workers w (.running id), log := s.log ++ [.started id] } →
      (∀ id', s'.waits id' ↔ s.waits id') → LifeStep s s' (.dispatch w)
  | late (w : Nat) (id : TaskId) : s.workers w = .picked id true →
      s'.life = { s.life with
        workers := Function.update s.workers w (.returned id)
        log := s.log ++ [.failed id .deadline] } →
      (∀ id', s'.waits id' ↔ s.waits id') → LifeStep s s' (.dispatch w)
  | runReturns (w : Nat) (id : TaskId) (threw : Bool) : s.workers w = .running id →
      s'.life = { s.life with
        workers := Function.update s.workers w (.returned id)
        log := if threw then s.log ++ [.failed id .exception] else s.log } →
      (∀ id', s'.waits id' ↔ s.waits id') → LifeStep s s' (.runReturns w threw)
  | finish (w : Nat) (id : TaskId) : s.workers w = .returned id →
      s'.life = { s.life with workers := Function.update s.workers w .waiting } →
      (∀ id', s'.waits id' ↔ s.waits id') → LifeStep s s' (.finish w)
  | timerExit (now : Time) : s.stopped = true → s.timer = .waiting →
      s'.life = { s.life with timer := .exited } → (∀ id, s'.waits id ↔ s.waits id) →
      LifeStep s s' (.expire now)
  | expire (now : Time) (id : TaskId) : s.stopped = false → s.timer = .waiting → id ∈ s.tasks →
      s'.life = { s.life with
        timer := .rejecting id, failed := Function.update s.life.failed id true } →
      (∀ id', s'.waits id' ↔ s.waits id' ∧ id' ≠ id) → LifeStep s s' (.expire now)
  | expired (id : TaskId) : s.timer = .rejecting id →
      s'.life = { s.life with timer := .waiting, log := s.log ++ [.failed id .deadline] } →
      (∀ id', s'.waits id' ↔ s.waits id') → LifeStep s s' .expired
  | stop (cancelled : List TaskId) : s.stopped = false →
      (∀ id ∈ s.tasks, (s.heap id).failed = false → id ∈ cancelled) →
      s'.life = { s.life with
        stopped := true, shutdown := .rejecting cancelled
        failed := fun id => if id ∈ s.tasks then true else (s.heap id).failed } →
      (∀ id, s'.waits id ↔ s.waits id) → LifeStep s s' .stop
  | stopAgain : s.stopped = true → (∀ rest, s.shutdown ≠ .rejecting rest) →
      s'.life = { s.life with shutdown := .rejecting [] } → (∀ id, s'.waits id ↔ s.waits id) →
      LifeStep s s' .stop
  | stopReject (id : TaskId) (rest : List TaskId) : s.shutdown = .rejecting (id :: rest) →
      s'.life = { s.life with
        shutdown := .rejecting rest, log := s.log ++ [.failed id .stopped] } →
      (∀ id', s'.waits id' ↔ s.waits id') → LifeStep s s' .stopReject
  | stopJoin : s.shutdown = .rejecting [] → s.timer = .exited →
      (∀ w < s.limits.workers, s.workers w = .exited) →
      s'.life = { s.life with shutdown := .returned } → (∀ id, ¬ s'.waits id) →
      LifeStep s s' .stopJoin

variable {a : Label}

variable {id : TaskId}

section Inversion

variable {s s' : Impl}

theorem waits_of_queueAt (h : ∀ key, s'.queueAt key = s.queueAt key) (id : TaskId) :
    s'.waits id ↔ s.waits id := by
  simp only [Impl.waits, h]

/-- A released task is the only one that no longer waits. -/
theorem waits_released (hsched : Scheduled s) {lane : Lane}
    (hfind : s.lanes.find? (s.keyOf id) = some lane) (id' : TaskId) :
    (s.released id lane).waits id' ↔ s.waits id' ∧ id' ≠ id := by
  simp only [Impl.waits, mem_queueAt_released hsched hfind, exists_and_right]

theorem waits_take (hsched : Scheduled s) {key : Key} {lane : Lane}
    (hfind : s.lanes.find? key = some lane) {rest : List TaskId} (hlane : lane.queue = id :: rest)
    (runnable : List Key) (w : Nat) (now : Time) (id' : TaskId) :
    ({ s with runnable := runnable }.take w key id rest now).waits id' ↔
      s.waits id' ∧ id' ≠ id := by
  simp only [Impl.waits, mem_queueAt_take hsched hfind hlane, exists_and_right]

theorem waits_accept (s : Impl) (work : Work) (id : TaskId) :
    (s.accept work ((s.lanes.find? work.key).getD {})).waits id ↔
      s.waits id ∨ id = s.nextId + 1 := by
  unfold Impl.waits
  constructor
  · rintro ⟨key, hkey⟩
    rw [queueAt_accept] at hkey
    split at hkey
    · rcases List.mem_append.mp hkey with hold | hnew
      · exact .inl ⟨key, hold⟩
      · exact .inr (List.mem_singleton.mp hnew)
    · exact .inl ⟨key, hkey⟩
  · rintro (⟨key, hkey⟩ | rfl)
    · refine ⟨key, ?_⟩
      rw [queueAt_accept]
      split
      · exact List.mem_append_left _ hkey
      · exact hkey
    · refine ⟨work.key, ?_⟩
      rw [queueAt_accept, if_pos rfl]
      exact List.mem_append_right _ (List.mem_singleton_self _)

/-- A task that a worker holds does not wait. -/
theorem Indexed.not_waits (hindex : Indexed s) (h : (s.heap id).active = true) :
    ¬ s.waits id := by
  rintro ⟨key, hkey⟩
  rw [(hindex.queued key id hkey).2] at h
  cases h

/-- A task that fails while a worker holds it did not wait anyway. -/
theorem waits_held (hindex : Indexed s) (hactive : (s.heap id).active = true) (id' : TaskId) :
    s.waits id' ↔ s.waits id' ∧ id' ≠ id := by
  refine ⟨fun h => ⟨h, ?_⟩, And.left⟩
  rintro rfl
  exact hindex.not_waits hactive h

/-- The `failed` flags when one task object is overwritten. -/
theorem failed_update (heap : TaskId → Task) (id : TaskId) (task : Task) :
    (fun id' => (Function.update heap id task id').failed) =
      Function.update (fun id' => (heap id').failed) id task.failed := by
  funext id'
  by_cases h : id' = id
  · subst h
    simp
  · simp [Function.update_of_ne h]

theorem markCancelled_life (s : Impl) (id : TaskId) : (s.markCancelled id).life = { s.life with
    cancelling := id :: s.cancelling, failed := Function.update s.life.failed id true } :=
  congrArg (fun failed => { s.life with cancelling := id :: s.cancelling, failed := failed })
    (failed_update s.heap id _)

theorem markExpired_life (s : Impl) (id : TaskId) : (s.markExpired id).life = { s.life with
    timer := .rejecting id, failed := Function.update s.life.failed id true } :=
  congrArg (fun failed => { s.life with timer := .rejecting id, failed := failed })
    (failed_update s.heap id _)

/-- **Every step is one of these.** -/
theorem step_lifeStep (hsched : Scheduled s) (hindex : Indexed s) (h : step s a = some s') :
    LifeStep s s' a := by
  cases step_cases h
  case turnedAway work now reason _ _ _ _ _ =>
    exact .turnedAway work now reason rfl fun _ => Iff.rfl
  case accepted work now hrunning _ _ =>
    refine .accepted work now hrunning ?_ (waits_accept s work)
    have hfailed := failed_update s.heap (s.nextId + 1) { work := work, charge := max work.bytes 256 }
    simp only [Impl.accept, Impl.ready]
    split <;> simp only [Impl.life, hfailed]
  case refused n reason hmem => exact .refused n reason hmem rfl fun _ => Iff.rfl
  case ignored => exact .quiet _ rfl fun _ => Iff.rfl
  case marked id hid _ hactive =>
    have hwaits := waits_held hindex hactive
    exact .cancel id hid (markCancelled_life s id) hwaits
  case withdrawn id lane hid _ _ hfind =>
    exact .cancel id hid (markCancelled_life s id)
      (waits_released ((sameSchedule_markCancelled s id).keeps hsched) hfind)
  case cancelled id hmem => exact .cancelled id hmem rfl fun _ => Iff.rfl
  case exit w now hwaiting hstopped => exact .exit w now hstopped hwaiting rfl fun _ => Iff.rfl
  case orphaned hfront hnone =>
    obtain ⟨lane, hfind, -⟩ := hsched.front hfront
    cases hnone.symm.trans hfind
  case emptied hfront hfind hempty =>
    have hwaits := waits_of_queueAt (queueAt_dropToken hsched hfront hfind hempty)
    rw [hsched.dropToken_eq hfront hfind] at hwaits ⊢
    exact .quiet _ rfl hwaits
  case taken key runnable lane id rest w now _ hwaiting hrunning _ hfind hqueue =>
    refine .take w now key id hrunning hwaiting ⟨key, ?_⟩ ?_
      (waits_take hsched hfind hqueue runnable w now)
    · rw [queueAt_of_find? hfind, hqueue]
      exact List.mem_cons_self
    · have hfailed := failed_update s.heap id { s.heap id with
        active := true, failed := (s.heap id).failed || decide ((s.heap id).work.deadline ≤ now) }
      simp only [Impl.life, Impl.take, hfailed]
  case late w id hworker => exact .late w id hworker rfl fun _ => Iff.rfl
  case started w id hworker => exact .start w id hworker rfl fun _ => Iff.rfl
  case returned w id threw hworker => exact .runReturns w id threw hworker rfl fun _ => Iff.rfl
  case finished w id lane hworker hfind =>
    obtain ⟨lanes, runnable, heq⟩ := s.finished_eq w id lane
    have hlife : (s.finished w id lane).life = (s.leave w id).life := by rw [heq]; rfl
    exact .finish w id hworker hlife (waits_of_queueAt (queueAt_finished w hfind))
  case timerExit now htimer hstopped => exact .timerExit now hstopped htimer rfl fun _ => Iff.rfl
  case untimed id rest hfailed _ _ =>
    -- the flag was set already
    have hsame := failed_update s.heap id { s.heap id with timed := false }
    rw [show Function.update (fun id' => (s.heap id').failed) id (s.heap id).failed = _ from
      Function.update_eq_self _ _] at hsame
    exact .quiet _ (congrArg (fun failed => { s.life with failed := failed }) hsame)
      fun _ => Iff.rfl
  case expiring now id htimer hrunning hid _ hactive =>
    have hwaits := waits_held hindex hactive
    exact .expire now id hrunning htimer hid (markExpired_life s id) hwaits
  case dropped now id lane htimer hrunning hid _ _ hfind =>
    exact .expire now id hrunning htimer hid (markExpired_life s id)
      (waits_released ((sameSchedule_markExpired s id).keeps hsched) hfind)
  case expired id htimer => exact .expired id htimer rfl fun _ => Iff.rfl
  case stop hrunning =>
    refine .stop (s.tasks.filter fun id => !(s.heap id).failed) hrunning ?_ ?_ fun _ => Iff.rfl
    · intro id hid hfailed
      exact List.mem_filter.mpr ⟨hid, by simp [hfailed]⟩
    · simp only [Impl.life]
      congr 1
      funext id
      split <;> rfl
  case stopAgain hstopped hidle => exact .stopAgain hstopped hidle rfl fun _ => Iff.rfl
  case stopReject id rest hshutdown => exact .stopReject id rest hshutdown rfl fun _ => Iff.rfl
  case stopJoin hshutdown htimer hworkers =>
    refine .stopJoin hshutdown htimer hworkers rfl ?_
    rintro id ⟨key, hkey⟩
    simp [Impl.queueAt] at hkey

end Inversion

/-! ## Starting -/

/-- What a step can do to the starts of tasks. -/
structure StartStep (s s' : Impl) : Prop where
  nextId : s.nextId ≤ s'.nextId
  stopped : s.stopped = true → s'.stopped = true
  waits : ∀ id, s'.waits id → s.waits id ∨ (id = s.nextId + 1 ∧ s.nextId < s'.nextId)
  picked : ∀ w id past, s'.workers w = .picked id past →
    s.workers w = .picked id past ∨ (s.stopped = false ∧ s.waits id ∧ ¬ s'.waits id)
  log : ∃ new, s'.log = s.log ++ new ∧ ∀ id, .started id ∈ new →
    new = [.started id] ∧ ∃ w, s.workers w = .picked id false ∧
      s'.workers = Function.update s.workers w (.running id)

variable {s s' : Impl}

/-- Only the dispatch of a picked task appends a start. -/
theorem LifeStep.log_cases (h : LifeStep s s' a) :
    ∃ new, s'.log = s.log ++ new ∧ ∀ id, .started id ∈ new →
      new = [.started id] ∧ ∃ w, s.workers w = .picked id false ∧
        s'.workers = Function.update s.workers w (.running id) := by
  cases h
  case start w id hworker hlife hwaits =>
    refine ⟨[.started id], congrArg Impl.Life.log hlife, ?_⟩
    intro id' hid'
    obtain rfl : id' = id := by simpa using hid'
    exact ⟨rfl, w, hworker, congrArg Impl.Life.workers hlife⟩
  case runReturns w id threw hworker hlife hwaits =>
    have hlog := congrArg Impl.Life.log hlife
    cases threw with
    | true => exact ⟨[.failed id .exception], hlog, by simp⟩
    | false => exact ⟨[], hlog.trans (List.append_nil _).symm, by simp⟩
  all_goals
    rename_i hlife hwaits
    have hlog := congrArg Impl.Life.log hlife
    first
      | exact ⟨[], hlog.trans (List.append_nil _).symm, by simp⟩
      | exact ⟨_, hlog, by simp⟩

theorem LifeStep.startStep (h : LifeStep s s' a) : StartStep s s' := by
  have hlog := h.log_cases
  cases h
  all_goals
    rename_i hlife hwaits
    simp only [Impl.life, Impl.Life.mk.injEq] at hlife
    obtain ⟨hstopped, hnext, -, hworkers, -⟩ := hlife
    refine ⟨by omega, by simp_all, ?_, ?_, hlog⟩
    · intro id hid
      have := hwaits id
      grind
    · intro w' id past hpicked
      rw [hworkers] at hpicked
      grind [Function.update_apply]

/-- The task may be started by this state or a later one. -/
def Impl.canStart (s : Impl) (id : TaskId) : Prop :=
  (s.stopped = false ∧ s.waits id) ∨ ∃ w, s.workers w = .picked id false

theorem StartStep.not_canStart (h : StartStep s s') (hid : id ≤ s.nextId) (hnot : ¬ s.canStart id) :
    ¬ s'.canStart id ∧ (.started id ∈ s'.log → .started id ∈ s.log) := by
  have hwaits : s'.waits id → s.waits id := by
    intro hw
    rcases h.waits id hw with hw | ⟨rfl, -⟩
    · exact hw
    · exact absurd hid (Nat.not_succ_le_self _)
  refine ⟨?_, ?_⟩
  · rintro (⟨hrunning, hw⟩ | ⟨w, hw⟩)
    · refine hnot (.inl ⟨?_, hwaits hw⟩)
      by_contra hstopped
      rw [h.stopped (by simpa using hstopped)] at hrunning
      cases hrunning
    · rcases h.picked w id false hw with hw | ⟨hrunning, hw, -⟩
      · exact hnot (.inr ⟨w, hw⟩)
      · exact hnot (.inl ⟨hrunning, hw⟩)
  · intro hmem
    obtain ⟨new, hlog, hnew⟩ := h.log
    rw [hlog] at hmem
    rcases List.mem_append.mp hmem with hold | hmem
    · exact hold
    · obtain ⟨-, w, hw, -⟩ := hnew id hmem
      exact absurd (.inr ⟨w, hw⟩) hnot

/-- Where a started task cannot be found any more. -/
structure Starts (s : Impl) : Prop where
  once : ∀ id, s.log.count (.started id) ≤ 1
  known : ∀ id, .started id ∈ s.log → id ≤ s.nextId
  gone : ∀ id, .started id ∈ s.log → ¬ s.waits id ∧ ∀ w past, s.workers w ≠ .picked id past

theorem starts_step (hsched : Scheduled s) (hindex : Indexed s) (hs : Starts s)
    (h : StartStep s s') : Starts s' := by
  obtain ⟨new, hlog, hnew⟩ := h.log
  have hwaits := h.waits
  have hpicked := h.picked
  have hnext := h.nextId
  -- a task that was started before stays gone
  have hold : ∀ id, .started id ∈ s.log → ¬ s'.waits id ∧ ∀ w past, s'.workers w ≠ .picked id past := by
    intro id hid
    have hgone := hs.gone id hid
    have hle := hs.known id hid
    grind
  -- a task that starts now was held by its worker, and by no other
  have hstart : ∀ id, .started id ∈ new → id ≤ s.nextId ∧ .started id ∉ s.log ∧ ¬ s'.waits id ∧
      ∀ w past, s'.workers w ≠ .picked id past := by
    intro id hid
    obtain ⟨-, w, hw, hworkers⟩ := hnew id hid
    have hheld : ∀ w past, s.workers w = .picked id past → s.holds w id := by
      intro w past hw
      simp [Impl.holds, hw, Worker.task?]
    have hle := (hsched.hired w id (hheld w false hw)).2
    have hleft := hindex.not_waits (hindex.held w id (hheld w false hw)).2
    refine ⟨hle, fun hmem => (hs.gone id hmem).2 w false hw, by grind, ?_⟩
    intro w' past hw'
    rw [hworkers] at hw'
    by_cases heq : w' = w
    · simp [heq] at hw'
    · rw [Function.update_of_ne heq] at hw'
      exact heq (hsched.single w' w id id (hheld w' past hw') (hheld w false hw) rfl)
  refine ⟨?_, ?_, ?_⟩
  · intro id
    have honce := hs.once id
    rw [hlog, List.count_append]
    by_cases hid : .started id ∈ new
    · rw [(hnew id hid).1, List.count_eq_zero_of_not_mem (hstart id hid).2.1]
      simp
    · rwa [List.count_eq_zero_of_not_mem hid]
  · intro id hid
    have hknown := hs.known id
    grind
  · intro id hid
    grind

/-! ## Nobody is forgotten -/

/-- `run` or `fail` has been called for the task. -/
def Impl.settled (s : Impl) (id : TaskId) : Prop :=
  .started id ∈ s.log ∨ ∃ reason, .failed id reason ∈ s.log

/-- A worker has picked the task and is about to call `run` or `fail`. -/
def Impl.isPicked (s : Impl) (id : TaskId) : Prop := ∃ w past, s.workers w = .picked id past

/-- `stop` is about to call `fail` for the task. -/
def Impl.isRejected (s : Impl) (id : TaskId) : Prop :=
  ∃ rest, s.shutdown = .rejecting rest ∧ id ∈ rest

/-- Somebody still has to call `run` or `fail` for the task: a `cancel`, the timer, a worker,
    `stop`, or whoever takes it out of its lane. -/
def Impl.pending (s : Impl) (id : TaskId) : Prop :=
  id ∈ s.cancelling ∨ s.timer = .rejecting id ∨ s.isPicked id ∨ s.isRejected id ∨
    (s.stopped = false ∧ s.waits id)

theorem LifeStep.settled (h : LifeStep s s' a) (hid : s.settled id) :
    s'.settled id := by
  obtain ⟨new, hlog, -⟩ := h.log_cases
  unfold Impl.settled
  rw [hlog]
  rcases hid with hstarted | ⟨reason, hfailed⟩
  · exact .inl (List.mem_append_left _ hstarted)
  · exact .inr ⟨reason, List.mem_append_left _ hfailed⟩

structure Accounted (s : Impl) : Prop where
  task : ∀ id, 1 ≤ id → id ≤ s.nextId → s.settled id ∨ s.pending id
  fresh : ∀ id, s.waits id → s.stopped = false → (s.heap id).failed = false
  stopping : s.shutdown ≠ .idle → s.stopped = true
  exited : s.timer = .exited → s.stopped = true

/-- Moving a worker on that has not picked this task. -/
theorem isPicked_update {w : Nat} {next : Worker} (id : TaskId)
    (hworkers : s'.workers = Function.update s.workers w next)
    (hw : ∀ past, s.workers w ≠ .picked id past) (h : s.isPicked id) : s'.isPicked id := by
  obtain ⟨w', past, hw'⟩ := h
  refine ⟨w', past, ?_⟩
  rw [hworkers, Function.update_of_ne]
  · exact hw'
  · rintro rfl
    exact hw past hw'

/-- A task that somebody has to look after is handed on or settled. -/
theorem LifeStep.pending (h : LifeStep s s' a) (hindex : Indexed s) (hs : Accounted s)
    (hid : s.pending id) : s'.settled id ∨ s'.pending id := by
  have hwaiting : s.waits id → id ∈ s.tasks := fun ⟨key, hkey⟩ => (hindex.queued key id hkey).1
  cases h
  all_goals
    rename_i hlife hwaits
    simp only [Impl.life, Impl.Life.mk.injEq] at hlife
    obtain ⟨hstopped, -, -, hworkers, htimer, hcancelling, -, -, hshutdown, hlog⟩ := hlife
    have hpicked : s'.workers = s.workers → s.isPicked id → s'.isPicked id := by
      intro heq
      unfold Impl.isPicked
      rw [heq]
      exact fun h => h
    have hrejected : s'.shutdown = s.shutdown → s.isRejected id → s'.isRejected id := by
      intro heq
      unfold Impl.isRejected
      rw [heq]
      exact fun h => h
    have hself := hwaits id
    unfold Impl.settled Impl.pending at *
  case exit w _ _ hworker | runReturns w _ _ hworker | finish w _ hworker =>
    have hpick := isPicked_update id hworkers (by simp [hworker])
    grind
  case take w now key id' _ hworker _ =>
    have hpick := isPicked_update id hworkers (by simp [hworker])
    have hnew : s'.isPicked id' := ⟨w, _, by rw [hworkers, Function.update_self]⟩
    grind
  case start w id' hworker | late w id' hworker =>
    have hpick : id ≠ id' → s.isPicked id → s'.isPicked id := fun hne =>
      isPicked_update id hworkers (by simp [hworker, Ne.symm hne])
    grind
  case stop cancelled hrunning hcancelled =>
    -- a waiting task has not failed yet, so `stop` rejects it
    have hidle : ¬ s.isRejected id := by
      rintro ⟨rest, hrest, -⟩
      rw [hs.stopping (by simp [hrest])] at hrunning
      cases hrunning
    have hnew : id ∈ cancelled → s'.isRejected id := fun hmem => ⟨cancelled, hshutdown, hmem⟩
    have hfresh := hs.fresh id
    grind
  case stopAgain _ hnone =>
    have hidle : ¬ s.isRejected id := fun ⟨rest, hrest, _⟩ => hnone rest hrest
    grind
  case stopReject id' rest hrejecting =>
    have hrest : s.isRejected id → id = id' ∨ s'.isRejected id := by
      rintro ⟨rest', hrest', hmem⟩
      cases hrejecting.symm.trans hrest'
      exact (List.mem_cons.mp hmem).imp_right fun hmem => ⟨rest, hshutdown, hmem⟩
    grind
  case stopJoin hrejecting _ _ =>
    have hstop := hs.stopping (by simp [hrejecting])
    have hidle : ¬ s.isRejected id := by
      rintro ⟨rest, hrest, hmem⟩
      cases hrejecting.symm.trans hrest
      cases hmem
    grind
  all_goals grind

/-- A task that waits in a queue that is not stopped has not failed. -/
theorem LifeStep.fresh (h : LifeStep s s' a) (hindex : Indexed s) (hs : Accounted s)
    (hid : s'.waits id) (hrunning : s'.stopped = false) :
    (s'.heap id).failed = false := by
  have hold := hs.fresh id
  have hknown : s.waits id → id ≠ s.nextId + 1 := by
    rintro ⟨key, hkey⟩ rfl
    exact Nat.not_succ_le_self _ (hindex.known _ (hindex.queued key _ hkey).1)
  cases h
  all_goals
    rename_i hlife hwaits
    simp only [Impl.life, Impl.Life.mk.injEq] at hlife
    obtain ⟨hstopped, -, hfailed, -⟩ := hlife
    have hflag : (s'.heap id).failed = _ := congrFun hfailed id
    have hself := hwaits id
    grind [Function.update_apply]

/-- `stop` and the exit of the timer come after `stopped`. -/
theorem LifeStep.stopping (h : LifeStep s s' a) (hs : Accounted s) :
    (s'.shutdown ≠ .idle → s'.stopped = true) ∧ (s'.timer = .exited → s'.stopped = true) := by
  have hshutdown := hs.stopping
  have htimer := hs.exited
  cases h
  all_goals
    rename_i hlife hwaits
    simp only [Impl.life, Impl.Life.mk.injEq] at hlife
    grind

theorem accounted_step (hindex : Indexed s) (hs : Accounted s) (h : LifeStep s s' a) :
    Accounted s' := by
  refine ⟨?_, fun id => h.fresh hindex hs, (h.stopping hs).1, (h.stopping hs).2⟩
  intro id hpos hle
  have hkept : id ≤ s.nextId → s'.settled id ∨ s'.pending id := by
    intro hold
    rcases hs.task id hpos hold with hsettled | hpending
    · exact .inl (h.settled hsettled)
    · exact h.pending hindex hs hpending
  cases h
  case accepted hrunning hlife hwaits =>
    have hnext : s'.nextId = s.nextId + 1 := congrArg Impl.Life.nextId hlife
    have hstopped : s'.stopped = s.stopped := congrArg Impl.Life.stopped hlife
    rw [hnext] at hle
    rcases Nat.le_or_eq_of_le_succ hle with hold | hnew
    · exact hkept hold
    · exact .inr (.inr (.inr (.inr (.inr ⟨hstopped.trans hrunning, (hwaits id).mpr (.inr hnew)⟩))))
  all_goals
    rename_i hlife hwaits
    have hnext : s'.nextId = s.nextId := congrArg Impl.Life.nextId hlife
    exact hkept (hnext ▸ hle)

theorem accounted_start (h : machine.start s) : Accounted s := by
  obtain ⟨limits, -, rfl⟩ := h
  refine ⟨?_, ?_, ?_, ?_⟩
  · intro id hpos hle
    exact absurd (hpos.trans hle) (Nat.not_succ_le_zero 0)
  all_goals simp [Impl.waits, Impl.queueAt]

theorem starts_start (h : machine.start s) : Starts s := by
  obtain ⟨limits, -, rfl⟩ := h
  refine ⟨?_, ?_, ?_⟩ <;> simp

/-! ## Refusals -/

/-- The `fail` call of the `n`-th submission that returned zero. -/
def Event.refusal (n : Nat) : Event → Bool
  | .refused m _ => m == n
  | _ => false

/-- The calls of `fail` for the `n`-th refused submission, made or still to be made. -/
def Impl.refusals (s : Impl) (n : Nat) : Nat :=
  (s.refusing.map Prod.fst).count n + s.log.countP (Event.refusal n)

/-- Each refused submission is answered once. -/
def RefusedOnce (s : Impl) : Prop := ∀ n, s.refusals n = if n < s.nextRefused then 1 else 0

theorem refusedOnce_step (hs : RefusedOnce s) (h : LifeStep s s' a) :
    RefusedOnce s' := by
  intro n
  have hn := hs n
  unfold Impl.refusals at *
  cases h
  all_goals
    rename_i hlife hwaits
    simp only [Impl.life, Impl.Life.mk.injEq] at hlife
    obtain ⟨-, -, -, -, -, -, hrefusing, hnext, -, hlog⟩ := hlife
    rw [hrefusing, hnext, hlog]
  case refused n' reason hmem =>
    have hperm := ((List.perm_cons_erase hmem).map Prod.fst).count_eq n
    grind [Event.refusal]
  all_goals grind [Event.refusal]

/-! ## After the shutdown -/

/-- The queue is stopped and its threads are gone. -/
structure Joined (s : Impl) : Prop where
  stopped : s.stopped = true
  timer : s.timer = .exited
  free : ∀ w id, ¬ s.holds w id
  empty : ∀ id, ¬ s.waits id
  rejected : ∀ rest, s.shutdown = .rejecting rest → rest = []

theorem joined_step (hs : Joined s) (h : LifeStep s s' a) :
    Joined s' := by
  obtain ⟨hstop, hexited, hfree, hempty, hrejected⟩ := hs
  unfold Impl.holds at hfree
  cases h
  all_goals
    rename_i hlife hwaits
    simp only [Impl.life, Impl.Life.mk.injEq] at hlife
    obtain ⟨hstopped, -, -, hworkers, htimer, -, -, -, hshutdown, -⟩ := hlife
  -- nobody holds a task, so the only worker step left is that an idle worker exits
  case start w _ hworker | late w _ hworker | runReturns w _ _ hworker | finish w _ hworker =>
    exact absurd (by rw [hworker]; rfl) (hfree w _)
  all_goals
    refine ⟨by grind, by grind, ?_, by grind, by grind⟩
    intro w id
    have hbefore := hfree w id
    rw [Impl.holds, hworkers]
    grind [Worker.task?, Function.update_apply]

/-- When `shutdown()` has returned. -/
theorem joined_of_returned (hsched : Scheduled s) (hs : Accounted s)
    (hbefore : s.shutdown = .returned → Joined s) (h : LifeStep s s' a)
    (hreturned : s'.shutdown = .returned) : Joined s' := by
  by_cases hold : s.shutdown = .returned
  · exact joined_step (hbefore hold) h
  · cases h
    all_goals
      rename_i hlife hwaits
      simp only [Impl.life, Impl.Life.mk.injEq] at hlife
      obtain ⟨hstopped, -, -, hworkers, htimer, -, -, -, hshutdown, -⟩ := hlife
    case stopJoin hrejecting hexited hgone =>
      refine ⟨hstopped.trans (hs.stopping (by simp [hrejecting])), htimer.trans hexited, ?_, hwaits, ?_⟩
      · intro w id hw
        have hheld : s.holds w id := by
          unfold Impl.holds at *
          rwa [hworkers] at hw
        have hexit := hgone w (hsched.hired w id hheld).1
        simp [Impl.holds, hexit, Worker.task?] at hheld
      · intro rest hrest
        rw [hreturned] at hrest
        cases hrest
    all_goals grind

/-! ## Every run -/

/-- The invariants of the life cycle together. -/
structure LifeOk (s : Impl) : Prop where
  starts : Starts s
  accounted : Accounted s
  refused : RefusedOnce s
  joined : s.shutdown = .returned → Joined s

theorem lifeOk_start (h : machine.start s) : LifeOk s := by
  refine ⟨starts_start h, accounted_start h, ?_, ?_⟩
  all_goals obtain ⟨limits, -, rfl⟩ := h
  · intro n
    simp [Impl.refusals]
  · simp

theorem lifeOk_step (hinv : Scheduled s ∧ Indexed s) (hs : LifeOk s) (h : step s a = some s') :
    LifeOk s' := by
  have hlife := step_lifeStep hinv.1 hinv.2 h
  exact ⟨starts_step hinv.1 hinv.2 hs.starts hlife.startStep,
    accounted_step hinv.2 hs.accounted hlife, refusedOnce_step hs.refused hlife,
    joined_of_returned hinv.1 hs.accounted hs.joined hlife⟩

theorem lifeOk_reachable (hs : machine.Reachable s) : LifeOk s :=
  hs.invariant_with (I := fun s => Scheduled s ∧ Indexed s)
    (fun _ h => ⟨scheduled_reachable h, indexed_reachable h⟩) (fun _ => lifeOk_start)
    (fun _ _ _ hinv _ => lifeOk_step hinv)

variable {t : Impl} {as : List Label}

/-- **A task that cannot start never starts**: by induction on the run. -/
theorem started_of_not_canStart (hs : machine.Reachable s) (hrun : machine.exec s as = some t)
    (hid : id ≤ s.nextId) (hnot : ¬ s.canStart id) (hstarted : .started id ∈ t.log) :
    .started id ∈ s.log := by
  induction as generalizing s with
  | nil =>
    cases hrun
    exact hstarted
  | cons a as ih =>
    obtain ⟨s', hfirst, hrest⟩ := machine.exec_cons_iff.mp hrun
    have hstep := (step_lifeStep (scheduled_reachable hs) (indexed_reachable hs) hfirst).startStep
    obtain ⟨hnot', hlog⟩ := hstep.not_canStart hid hnot
    exact hlog (ih (hs.step hfirst) hrest (hid.trans hstep.nextId) hnot')

/-- A waiting task that a step has put out of reach. -/
theorem never_started (hs : machine.Reachable s) (hfirst : step s a = some s') (hid : s.waits id)
    (hnot : ¬ s'.canStart id) (hrun : machine.exec s' as = some t) : .started id ∉ t.log := by
  have hindex := indexed_reachable hs
  have hstep := (step_lifeStep (scheduled_reachable hs) hindex hfirst).startStep
  have hknown : id ≤ s.nextId := by
    obtain ⟨key, hkey⟩ := hid
    exact hindex.known id (hindex.queued key id hkey).1
  intro hstarted
  have hmem := started_of_not_canStart (hs.step hfirst) hrun (hknown.trans hstep.nextId) hnot hstarted
  obtain ⟨new, hlog, hnew⟩ := hstep.log
  rw [hlog] at hmem
  rcases List.mem_append.mp hmem with hold | hmem
  · exact ((lifeOk_reachable hs).starts.gone id hold).1 hid
  · obtain ⟨-, w, hw, -⟩ := hnew id hmem
    have hheld : s.holds w id := by simp [Impl.holds, hw, Worker.task?]
    exact hindex.not_waits (hindex.held w id hheld).2 hid

/-- Once `shutdown()` has returned, the queue stays empty. -/
theorem joined_exec (hs : machine.Reachable s) (hjoined : Joined s)
    (hrun : machine.exec s as = some t) : Joined t := by
  induction as generalizing s with
  | nil =>
    cases hrun
    exact hjoined
  | cons a as ih =>
    obtain ⟨s', hfirst, hrest⟩ := machine.exec_cons_iff.mp hrun
    have hstep := step_lifeStep (scheduled_reachable hs) (indexed_reachable hs) hfirst
    exact ih (hs.step hfirst) (joined_step hjoined hstep) hrest

/-- What a caller of the queue may rely on, in a state and in every later one. -/
structure TaskLifeCycle (s : Impl) : Prop where
  /-- A refused submission leaves nothing behind that could run. -/
  refusedNeverRuns : ∀ work now, (s.submit work now).nextId = s.nextId →
    (s.submit work now).tasks = s.tasks ∧ (s.submit work now).lanes = s.lanes ∧
      (s.submit work now).heap = s.heap ∧ (s.submit work now).workers = s.workers ∧
      (s.submit work now).nextRefused = s.nextRefused + 1
  /-- Its `fail` is called at most once, and exactly once when `submit` has returned. -/
  refusedFailsOnce : ∀ n, s.log.countP (Event.refusal n) ≤ 1 ∧ (n < s.nextRefused →
    (∀ reason, (n, reason) ∉ s.refusing) → s.log.countP (Event.refusal n) = 1)
  startedOnce : ∀ id, s.log.count (.started id) ≤ 1
  cancelledQueued : ∀ id s', s.waits id → (s.heap id).failed = false →
    step s (.cancel id) = some s' → ∀ as t, machine.exec s' as = some t → .started id ∉ t.log
  expiredQueued : ∀ id now s', s.waits id → step s (.expire now) = some s' →
    s'.timer = .rejecting id → ∀ as t, machine.exec s' as = some t → .started id ∉ t.log
  pickedLate : ∀ w now id s', s.waits id → step s (.pick w now) = some s' → s'.holds w id →
    (s.heap id).work.deadline ≤ now → ∀ as t, machine.exec s' as = some t → .started id ∉ t.log
  stoppedQueued : ∀ id s', s.waits id → s.stopped = false → step s .stop = some s' →
    ∀ as t, machine.exec s' as = some t → .started id ∉ t.log
  /-- After `shutdown()` and once no `cancel` is under way, every accepted task was started or
      failed. -/
  shutdownSettles : s.shutdown = .returned → ∀ as t, machine.exec s as = some t →
    t.cancelling = [] → ∀ id, 1 ≤ id → id ≤ t.nextId →
    .started id ∈ t.log ∨ ∃ reason, .failed id reason ∈ t.log

/-- No worker has picked a task that waits. -/
theorem Indexed.not_picked (hindex : Indexed s) (hid : s.waits id) (w : Nat) (past : Bool) :
    s.workers w ≠ .picked id past := by
  intro hw
  have hheld : s.holds w id := by simp [Impl.holds, hw, Worker.task?]
  exact hindex.not_waits (hindex.held w id hheld).2 hid

variable {now : Time}

theorem submit_refused {work : Work} (h : (s.submit work now).nextId = s.nextId) :
    (s.submit work now).tasks = s.tasks ∧ (s.submit work now).lanes = s.lanes ∧
      (s.submit work now).heap = s.heap ∧ (s.submit work now).workers = s.workers ∧
      (s.submit work now).nextRefused = s.nextRefused + 1 := by
  unfold Impl.submit at *
  dsimp only at *
  split_ifs at *
  · exact ⟨rfl, rfl, rfl, rfl, rfl⟩
  · exact ⟨rfl, rfl, rfl, rfl, rfl⟩
  · simp [Impl.accept] at h
  · exact ⟨rfl, rfl, rfl, rfl, rfl⟩

section OutOfReach

variable {s s' : Impl} {id : TaskId}

/-- A waiting task that leaves its lane while the workers stay as they are. -/
theorem not_canStart_of_left (hindex : Indexed s) (hid : s.waits id)
    (hworkers : s'.workers = s.workers) (hleft : s'.stopped = true ∨ ¬ s'.waits id) :
    ¬ s'.canStart id := by
  rintro (⟨hrunning, hw⟩ | ⟨w, hw⟩)
  · rcases hleft with hstopped | hnot
    · rw [hstopped] at hrunning
      cases hrunning
    · exact hnot hw
  · rw [hworkers] at hw
    exact hindex.not_picked hid w false hw

theorem not_canStart_cancel (hs : machine.Reachable s) (hid : s.waits id)
    (hfailed : (s.heap id).failed = false) (h : s.cancel id = some s') : ¬ s'.canStart id := by
  have hindex := indexed_reachable hs
  obtain ⟨key, hkey⟩ := hid
  obtain ⟨hmem, hinactive⟩ := hindex.queued key id hkey
  unfold Impl.cancel at h
  rw [if_pos ⟨hmem, hfailed⟩] at h
  dsimp only at h
  rw [if_neg (by simp [hinactive])] at h
  obtain ⟨lane, hfind, rfl⟩ := Impl.releaseQueued_cases (s := s.markCancelled id) h
  refine not_canStart_of_left hindex ⟨key, hkey⟩ rfl (.inr fun hw => ?_)
  exact ((waits_released ((sameSchedule_markCancelled s id).keeps (scheduled_reachable hs)) hfind
    id).mp hw).2 rfl

theorem not_canStart_expire (hs : machine.Reachable s) (hid : s.waits id)
    (h : s.expire now = some s') (htimer : s'.timer = .rejecting id) : ¬ s'.canStart id := by
  have hindex := indexed_reachable hs
  cases expire_cases h
  case timerExit => cases htimer
  case untimed _ _ hwaiting => cases hwaiting.symm.trans htimer
  case expiring hactive =>
    cases htimer
    exact absurd hid (hindex.not_waits hactive)
  case dropped hfind =>
    cases htimer
    refine not_canStart_of_left hindex hid rfl (.inr fun hw => ?_)
    exact ((waits_released ((sameSchedule_markExpired s id).keeps (scheduled_reachable hs)) hfind
      id).mp hw).2 rfl

theorem not_canStart_pick (hs : machine.Reachable s) (hid : s.waits id) {w : Nat}
    (h : s.pick w now = some s') (hheld : s'.holds w id) (hlate : (s.heap id).work.deadline ≤ now) :
    ¬ s'.canStart id := by
  have hindex := indexed_reachable hs
  cases step_lifeStep (scheduled_reachable hs) hindex (a := .pick w now) h with
  | quiet _ hlife _ =>
    have hworkers : s'.workers = s.workers := congrArg Impl.Life.workers hlife
    unfold Impl.holds at hheld
    rw [hworkers] at hheld
    exact absurd hid (hindex.not_waits (hindex.held w id hheld).2)
  | exit _ _ _ _ hlife _ =>
    have hworkers : s'.workers = _ := congrArg Impl.Life.workers hlife
    simp [Impl.holds, hworkers, Worker.task?] at hheld
  | take _ _ key id' _ _ _ hlife hwaits =>
    have hworkers : s'.workers = Function.update s.workers w
        (.picked id' (decide ((s.heap id').work.deadline ≤ now))) :=
      congrArg Impl.Life.workers hlife
    have hsame : id' = id := by
      unfold Impl.holds at hheld
      rw [hworkers, Function.update_self] at hheld
      simpa [Worker.task?] using hheld
    subst hsame
    rintro (⟨-, hw⟩ | ⟨w', hw'⟩)
    · exact ((hwaits id').mp hw).2 rfl
    · rw [hworkers] at hw'
      by_cases heq : w' = w
      · subst heq
        simp [hlate] at hw'
      · rw [Function.update_of_ne heq] at hw'
        exact hindex.not_picked hid w' false hw'

theorem not_canStart_stop (hs : machine.Reachable s) (hid : s.waits id)
    (hrunning : s.stopped = false) (h : s.stop = some s') : ¬ s'.canStart id := by
  cases stop_cases h with
  | stop => exact not_canStart_of_left (indexed_reachable hs) hid rfl (.inl rfl)
  | stopAgain hstopped =>
    rw [hrunning] at hstopped
    cases hstopped

end OutOfReach

/-- When the threads are gone and no `cancel` is under way, nobody is left to be called. -/
theorem settled_of_joined (hs : Accounted s) (hjoined : Joined s) (hcancelling : s.cancelling = [])
    (hpos : 1 ≤ id) (hle : id ≤ s.nextId) :
    s.settled id := by
  rcases hs.task id hpos hle with hsettled | hcancel | htimer | ⟨w, past, hw⟩ | ⟨rest, hrest, hmem⟩ |
    ⟨hrunning, -⟩
  · exact hsettled
  · rw [hcancelling] at hcancel
    cases hcancel
  · rw [hjoined.timer] at htimer
    cases htimer
  · exact absurd (show s.holds w id by simp [Impl.holds, hw, Worker.task?]) (hjoined.free w id)
  · rw [hjoined.rejected rest hrest] at hmem
    cases hmem
  · rw [hjoined.stopped] at hrunning
    cases hrunning

/-- **The life cycle of every submission**, for every interleaving of callers, workers, the timer
    and the shutdown. -/
theorem task_life_cycle {s : Impl} (hs : machine.Reachable s) : TaskLifeCycle s := by
  have hlife := lifeOk_reachable hs
  refine ⟨fun work now => submit_refused, ?_, hlife.starts.once, ?_, ?_, ?_, ?_, ?_⟩
  · intro n
    have hn := hlife.refused n
    unfold Impl.refusals at hn
    refine ⟨by split at hn <;> omega, ?_⟩
    intro hlt hnone
    have hzero : (s.refusing.map Prod.fst).count n = 0 := by
      refine List.count_eq_zero_of_not_mem ?_
      intro hmem
      obtain ⟨entry, hentry, rfl⟩ := List.mem_map.mp hmem
      exact hnone entry.2 hentry
    rw [if_pos hlt, hzero, Nat.zero_add] at hn
    exact hn
  · intro id s' hid hfailed hstep as t
    exact never_started hs hstep hid (not_canStart_cancel hs hid hfailed hstep)
  · intro id now s' hid hstep htimer as t
    exact never_started hs hstep hid (not_canStart_expire hs hid hstep htimer)
  · intro w now id s' hid hstep hheld hlate as t
    exact never_started hs hstep hid (not_canStart_pick hs hid hstep hheld hlate)
  · intro id s' hid hrunning hstep as t
    exact never_started hs hstep hid (not_canStart_stop hs hid hrunning hstep)
  · intro hreturned as t hrun hcancelling id hpos hle
    have hreach := hs.exec hrun
    exact settled_of_joined (lifeOk_reachable hreach).accounted
      (joined_exec hs (hlife.joined hreturned) hrun) hcancelling hpos hle

/-- One task runs while the next is cancelled in its lane, a third is refused after the stop. -/
theorem task_life_cycle_shutdown : ∃ s, machine.Reachable s ∧ TaskLifeCycle s ∧
    s.shutdown = .returned ∧ s.nextId = 2 ∧ s.log = [.picked "pv" 1, .started 1,
      .failed 2 .cancelled, .failed 1 .stopped, .refused 0 .stopped] := by
  let run : List Label := [.submit ⟨"pv", 8, 10⟩ 0, .submit ⟨"pv", 8, 20⟩ 1, .pick 0 2,
    .dispatch 0, .cancel 2, .cancelled 2, .stop, .stopReject, .submit ⟨"pv", 8, 30⟩ 3,
    .refused 0 .stopped, .runReturns 0 false, .finish 0, .pick 0 4, .expire 5, .stopJoin]
  have hreach : ∀ s, machine.exec { limits := { workers := 1 } } run = some s →
      machine.Reachable s :=
    fun s h => ⟨_, run, ⟨_, by decide, rfl⟩, h⟩
  have hrun : (machine.exec { limits := { workers := 1 } } run).isSome = true := by decide
  obtain ⟨s, hs⟩ := Option.isSome_iff_exists.mp hrun
  refine ⟨s, hreach s hs, task_life_cycle (hreach s hs), ?_⟩
  cases hs
  decide

/-! ## Progress -/

def Label.ofWorker : Label → Bool
  | .pick _ _ | .dispatch _ | .runReturns _ _ | .finish _ => true
  | _ => false

/-- A task that no worker holds waits behind a token. -/
theorem token_of_idle (hs : machine.Reachable s) (hid : id ∈ s.tasks)
    (hidle : ∀ w id, ¬s.holds w id) : s.runnable ≠ [] := by
  have hindex := indexed_reachable hs
  have hwait := hindex.waiting id hid (by grind [Indexed.holder])
  unfold Impl.queueAt at hwait
  cases hfind : s.lanes.find? (s.keyOf id) with
  | none => simp [hfind] at hwait
  | some lane =>
    have hlane := (scheduled_reachable hs).lane _ lane hfind
    have htoken := hlane.token
    rcases hlane.served (List.ne_nil_of_mem (by simpa [hfind] using hwait)) with hactive | hready
    · obtain ⟨w, id, hw, -⟩ := hlane.held.mp hactive
      exact absurd hw (hidle w id)
    · intro hnone
      simp [hready, hnone] at htoken

/-- **The workers never get stuck**: as long as there is a task and a worker that has not exited,
    one of the workers can take its next step. -/
theorem workers_progress (hs : machine.Reachable s) (hid : id ∈ s.tasks)
    (hw : w < s.limits.workers) (hstays : s.workers w ≠ .exited) :
    ∃ a t, a.ofWorker = true ∧ step s a = some t := by
  by_cases hheld : ∃ w id, s.holds w id
  · obtain ⟨w, id, hholds⟩ := hheld
    unfold Impl.holds at hholds
    cases hworker : s.workers w with
    | picked id past =>
      cases past <;> exact ⟨.dispatch w, _, rfl, by rw [step, Impl.dispatch, hworker]⟩
    | running id => exact ⟨.runReturns w false, _, rfl, by rw [step, Impl.runReturns, hworker]⟩
    | returned id =>
      obtain ⟨t, ht⟩ := finish_total hs hworker
      exact ⟨.finish w, t, rfl, ht⟩
    | _ => simp [hworker, Worker.task?] at hholds
  · push Not at hheld
    have hwaiting : s.workers w = .waiting := by
      have hnone := hheld w
      cases hworker : s.workers w <;> simp_all [Impl.holds, Worker.task?]
    obtain ⟨key, rest, hfront⟩ := List.exists_cons_of_ne_nil (token_of_idle hs hid hheld)
    have hpick : ∃ t, s.pick w 0 = some t := by
      simp only [Impl.pick, hw.not_ge, hwaiting, hfront, ne_eq, not_true, or_self, if_false]
      -- stopped, no lane, an empty lane, a task
      repeat' split
      all_goals exact ⟨_, rfl⟩
    obtain ⟨t, ht⟩ := hpick
    exact ⟨.pick w 0, t, rfl, ht⟩

theorem workers_progress_submitted : ∃ s a t, s.tasks = [1] ∧ a.ofWorker = true ∧
    step s a = some t := by
  have hstart : machine.Reachable { limits := { workers := 1 } } := .of_start ⟨_, by decide, rfl⟩
  have hreach := hstart.step (a := .submit ⟨"pv", 8, 10⟩ 0) rfl
  obtain ⟨a, t, h⟩ := workers_progress (w := 0) hreach (.head []) (by decide) (by decide)
  exact ⟨_, a, t, by decide, h⟩

end RedisPvxsIoc.OperationQueue
