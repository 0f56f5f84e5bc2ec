import RedisPvxsIoc.OperationQueue.Model

/-!
# Scheduling: Serial FIFO Lanes that Never Strand Work

A runnable token may outlive the task it was issued for, and lanes are created and
erased from five places.  What links tokens, lane flags, queues and workers is the
invariant `Scheduled`: the token count of a key is decided by the `ready` flag of its
lane, the `active` flag says that exactly one worker holds a task of that key, and the
queue holds, in increasing order, tasks younger than every task picked for that key.

Each critical section is shown to keep it by a lemma of its own; `scheduled_step`
assembles them.
-/

namespace RedisPvxsIoc.OperationQueue

open Foundations

/-! ## Observations -/

namespace Impl

/-- The key a task was submitted under. -/
def keyOf (s : Impl) (id : TaskId) : Key := (s.heap id).work.key

/-- Worker `w` holds task `id`: it has picked it and has not finished with it. -/
def holds (s : Impl) (w : Nat) (id : TaskId) : Prop := (s.workers w).task? = some id

end Impl

/-- The tasks of a key in the order in which workers picked them. -/
def picksOf (key : Key) (log : List Event) : List TaskId :=
  log.filterMap fun
    | .picked k id => if k = key then some id else none
    | _ => none

@[simp] theorem picksOf_append (key : Key) (log log' : List Event) :
    picksOf key (log ++ log') = picksOf key log ++ picksOf key log' := by
  simp [picksOf]

@[simp] theorem picksOf_started (key : Key) (id : TaskId) : picksOf key [.started id] = [] := rfl

@[simp] theorem picksOf_failed (key : Key) (id : TaskId) (reason : OperationFailure) :
    picksOf key [.failed id reason] = [] := rfl

@[simp] theorem picksOf_refused (key : Key) (n : Nat) (reason : OperationFailure) :
    picksOf key [.refused n reason] = [] := rfl

theorem picksOf_picked (key k : Key) (id : TaskId) :
    picksOf key [.picked k id] = if k = key then [id] else [] := by
  by_cases h : k = key <;> simp [picksOf, h]

/-! ## What the sections do -/

namespace Impl

variable {s s' : Impl} {id : TaskId}

/-- The state in which `cancel` has marked a task, before it releases its queue slot. -/
def markCancelled (s : Impl) (id : TaskId) : Impl :=
  { s.expireTask id with
    counts := { s.counts with cancelled := s.counts.cancelled + 1 }
    cancelling := id :: s.cancelling }

/-- The state in which the timer has marked a task, before it releases its queue slot. -/
def markExpired (s : Impl) (id : TaskId) : Impl :=
  { s.expireTask id with
    counts := { s.counts with expired := s.counts.expired + 1 }
    timer := .rejecting id }

/-- The state `releaseQueued` leaves when it finds `lane`. -/
def released (s : Impl) (id : TaskId) (lane : Lane) : Impl :=
  { s with
    counts := { s.counts with
      queued := s.counts.queued - 1
      residentBytes := s.counts.residentBytes - (s.heap id).charge }
    tasks := s.tasks.erase id
    lanes := if { lane with queue := lane.queue.erase id : Lane }.idle
      then s.lanes.erase (s.keyOf id)
      else s.lanes.insert (s.keyOf id) { lane with queue := lane.queue.erase id } }

/-- The state in which a worker has let go of its task, before the lane is updated. -/
def leave (s : Impl) (w : Nat) (id : TaskId) : Impl :=
  { s with
    deadlines := if (s.heap id).timed then
      s.deadlines.erase ((s.heap id).work.deadline, id) else s.deadlines
    tasks := s.tasks.erase id
    counts := { s.counts with
      running := s.counts.running - 1
      residentBytes := s.counts.residentBytes - (s.heap id).charge
      completed := s.counts.completed + 1 }
    workers := Function.update s.workers w .waiting }

/-- The state `finish` leaves when it finds `lane`. -/
def finished (s : Impl) (w : Nat) (id : TaskId) (lane : Lane) : Impl :=
  if lane.queue.isEmpty then { s.leave w id with lanes := s.lanes.erase (s.keyOf id) }
  else (s.leave w id).ready (s.keyOf id) { lane with active := false }

theorem finished_eq (s : Impl) (w : Nat) (id : TaskId) (lane : Lane) : ∃ lanes runnable,
    s.finished w id lane = { s.leave w id with lanes := lanes, runnable := runnable } := by
  unfold finished ready
  split_ifs <;> exact ⟨_, _, rfl⟩

theorem releaseQueued_cases (h : s.releaseQueued id = some s') :
    ∃ lane, s.lanes.find? (s.keyOf id) = some lane ∧ s' = s.released id lane := by
  simp only [releaseQueued, Option.bind_eq_bind, Option.bind_eq_some_iff,
    Option.pure_def, Option.some.injEq] at h
  obtain ⟨lane, hfind, rfl⟩ := h
  exact ⟨lane, hfind, rfl⟩

end Impl

/-- What the labels do, one constructor for each way through a section. -/
inductive Stepped (s : Impl) : Label → Impl → Prop where
  | turnedAway (work : Work) (now : Time) (reason : OperationFailure) {counts : OperationQueueStats}
      (hqueued : counts.queued = s.counts.queued) (hrunning : counts.running = s.counts.running)
      (hresident : counts.residentBytes = s.counts.residentBytes)
      (hpeak : counts.peakBytes = s.counts.peakBytes) :
      Stepped s (.submit work now) (s.refuse reason counts)
  | accepted (work : Work) (now : Time) (hrunning : s.stopped = false)
      (hroom : ((s.lanes.find? work.key).getD {}).queue.length < s.limits.queuedPerKey)
      (hbytes : max work.bytes 256 ≤ s.limits.residentBytes - s.counts.residentBytes) :
      Stepped s (.submit work now) (s.accept work ((s.lanes.find? work.key).getD {}))
  | refused {n : Nat} {reason : OperationFailure} (hmem : (n, reason) ∈ s.refusing) :
      Stepped s (.refused n reason) { s with
        refusing := s.refusing.erase (n, reason), log := s.log ++ [.refused n reason] }
  | ignored (id : TaskId) : Stepped s (.cancel id) s
  | marked {id : TaskId} (hid : id ∈ s.tasks) (hlive : (s.heap id).failed = false)
      (hactive : (s.heap id).active = true) : Stepped s (.cancel id) (s.markCancelled id)
  | withdrawn {id : TaskId} {lane : Lane} (hid : id ∈ s.tasks)
      (hlive : (s.heap id).failed = false) (hinactive : (s.heap id).active = false)
      (hfind : (s.markCancelled id).lanes.find? ((s.markCancelled id).keyOf id) = some lane) :
      Stepped s (.cancel id) ((s.markCancelled id).released id lane)
  | cancelled {id : TaskId} (hmem : id ∈ s.cancelling) : Stepped s (.cancelled id) { s with
      cancelling := s.cancelling.erase id, log := s.log ++ [.failed id .cancelled] }
  | exit {w : Nat} (now : Time) (hwaiting : s.workers w = .waiting) (hstopped : s.stopped = true) :
      Stepped s (.pick w now) { s with workers := Function.update s.workers w .exited }
  | orphaned {key : Key} {runnable : List Key} (w : Nat) (now : Time)
      (hfront : s.runnable = key :: runnable) (hnone : s.lanes.find? key = none) :
      Stepped s (.pick w now) { s with runnable := runnable }
  | emptied {key : Key} {runnable : List Key} {lane : Lane} (w : Nat) (now : Time)
      (hfront : s.runnable = key :: runnable) (hfind : s.lanes.find? key = some lane)
      (hempty : lane.queue = []) :
      Stepped s (.pick w now) ({ s with runnable := runnable }.dropToken key lane)
  | taken {key : Key} {runnable : List Key} {lane : Lane} {id : TaskId} {rest : List TaskId}
      {w : Nat} (now : Time) (hw : w < s.limits.workers) (hwaiting : s.workers w = .waiting)
      (hrunning : s.stopped = false) (hfront : s.runnable = key :: runnable)
      (hfind : s.lanes.find? key = some lane) (hqueue : lane.queue = id :: rest) :
      Stepped s (.pick w now) ({ s with runnable := runnable }.take w key id rest now)
  | late {w : Nat} {id : TaskId} (hworker : s.workers w = .picked id true) :
      Stepped s (.dispatch w) { s with
        workers := Function.update s.workers w (.returned id)
        log := s.log ++ [.failed id .deadline] }
  | started {w : Nat} {id : TaskId} (hworker : s.workers w = .picked id false) :
      Stepped s (.dispatch w) { s with
        workers := Function.update s.workers w (.running id), log := s.log ++ [.started id] }
  | returned {w : Nat} {id : TaskId} (threw : Bool) (hworker : s.workers w = .running id) :
      Stepped s (.runReturns w threw) { s with
        workers := Function.update s.workers w (.returned id)
        log := if threw then s.log ++ [.failed id .exception] else s.log }
  | finished {w : Nat} {id : TaskId} {lane : Lane} (hworker : s.workers w = .returned id)
      (hfind : s.lanes.find? (s.keyOf id) = some lane) :
      Stepped s (.finish w) (s.finished w id lane)
  | timerExit (now : Time) (htimer : s.timer = .waiting) (hstopped : s.stopped = true) :
      Stepped s (.expire now) { s with timer := .exited }
  | untimed {deadline now : Time} {id : TaskId} {rest : List (Time × TaskId)}
      (hdeadlines : s.deadlines = (deadline, id) :: rest) (hfailed : (s.heap id).failed = true)
      (htimer : s.timer = .waiting) : Stepped s (.expire now)
        { s.setTask id { s.heap id with timed := false } with deadlines := rest }
  | expiring {now : Time} {id : TaskId} (htimer : s.timer = .waiting)
      (hrunning : s.stopped = false) (hid : id ∈ s.tasks) (hlive : (s.heap id).failed = false)
      (hactive : (s.heap id).active = true) : Stepped s (.expire now) (s.markExpired id)
  | dropped {now : Time} {id : TaskId} {lane : Lane} (htimer : s.timer = .waiting)
      (hrunning : s.stopped = false) (hid : id ∈ s.tasks) (hlive : (s.heap id).failed = false)
      (hinactive : (s.heap id).active = false)
      (hfind : (s.markExpired id).lanes.find? ((s.markExpired id).keyOf id) = some lane) :
      Stepped s (.expire now) ((s.markExpired id).released id lane)
  | expired {id : TaskId} (htimer : s.timer = .rejecting id) : Stepped s .expired
      { s with timer := .waiting, log := s.log ++ [.failed id .deadline] }
  | stop (hrunning : s.stopped = false) : Stepped s .stop { s with
      stopped := true
      heap := fun id => if id ∈ s.tasks then { s.heap id with failed := true } else s.heap id
      shutdown := .rejecting (s.tasks.filter fun id => !(s.heap id).failed) }
  | stopAgain (hstopped : s.stopped = true) (hidle : ∀ rest, s.shutdown ≠ .rejecting rest) :
      Stepped s .stop { s with shutdown := .rejecting [] }
  | stopReject {id : TaskId} {rest : List TaskId}
      (hshutdown : s.shutdown = .rejecting (id :: rest)) : Stepped s .stopReject
        { s with shutdown := .rejecting rest, log := s.log ++ [.failed id .stopped] }
  | stopJoin (hshutdown : s.shutdown = .rejecting []) (htimer : s.timer = .exited)
      (hworkers : ∀ w < s.limits.workers, s.workers w = .exited) : Stepped s .stopJoin { s with
        tasks := [], lanes := ∅, deadlines := [], runnable := []
        counts := { s.counts with queued := 0, running := 0, residentBytes := 0 }
        shutdown := .returned }

variable {a : Label}

section Sections

variable {s s' : Impl}

theorem submit_cases (work : Work) (now : Time) :
    Stepped s (.submit work now) (s.submit work now) := by
  unfold Impl.submit
  dsimp only
  split_ifs with hstopped _ hroom
  · exact .turnedAway work now _ rfl rfl rfl rfl
  · exact .turnedAway work now _ rfl rfl rfl rfl
  · exact .accepted work now (by simpa using hstopped) hroom.1 hroom.2
  · exact .turnedAway work now _ rfl rfl rfl rfl

theorem cancel_cases {id : TaskId} (h : s.cancel id = some s') : Stepped s (.cancel id) s' := by
  unfold Impl.cancel at h
  dsimp only at h
  split_ifs at h with hguard hactive
  · cases h
    exact .marked hguard.1 hguard.2 hactive
  · obtain ⟨lane, hfind, rfl⟩ := Impl.releaseQueued_cases h
    exact .withdrawn hguard.1 hguard.2 (by simpa using hactive) hfind
  · cases h
    exact .ignored id

theorem pick_cases {w : Nat} {now : Time} (h : s.pick w now = some s') :
    Stepped s (.pick w now) s' := by
  unfold Impl.pick at h
  split_ifs at h with hbusy hstopped
  all_goals push Not at hbusy
  · cases h
    exact .exit now hbusy.2 hstopped
  · split at h
    · cases h
    · rename_i key runnable hfront
      dsimp only at h
      split at h
      · rename_i hnone
        cases h
        exact .orphaned w now hfront hnone
      · rename_i lane hfind
        split at h <;> cases h
        · rename_i hempty
          exact .emptied w now hfront hfind hempty
        · rename_i id rest hqueue
          exact .taken now hbusy.1 hbusy.2 (by simpa using hstopped) hfront hfind hqueue

theorem finish_cases {w : Nat} (h : s.finish w = some s') : Stepped s (.finish w) s' := by
  unfold Impl.finish at h
  split at h
  · rename_i id hworker
    simp only [Option.bind_eq_bind, Option.bind_eq_some_iff] at h
    obtain ⟨lane, hfind, h⟩ := h
    have hs' : s' = s.finished w id lane := by
      unfold Impl.finished
      split at h <;> cases h
      · exact (if_pos ‹_›).symm
      · exact (if_neg ‹_›).symm
    rw [hs']
    exact .finished hworker hfind
  · cases h

theorem expire_cases {now : Time} (h : s.expire now = some s') : Stepped s (.expire now) s' := by
  unfold Impl.expire at h
  split_ifs at h with htimer hstopped
  all_goals rw [ne_eq, not_not] at htimer
  · cases h
    exact .timerExit now htimer hstopped
  · split at h
    · cases h
    · rename_i deadline id rest hdeadlines
      dsimp only at h
      split_ifs at h with hguard hfailed hactive
      all_goals push Not at hguard
      · cases h
        exact .untimed hdeadlines hfailed htimer
      · cases h
        exact .expiring htimer (by simpa using hstopped) hguard.2 (by simpa using hfailed) hactive
      · obtain ⟨lane, hfind, rfl⟩ := Impl.releaseQueued_cases h
        exact .dropped htimer (by simpa using hstopped) hguard.2 (by simpa using hfailed)
          (by simpa using hactive) hfind

theorem stop_cases (h : s.stop = some s') : Stepped s .stop s' := by
  unfold Impl.stop at h
  split at h
  · cases h
  · rename_i hidle
    split_ifs at h with hstopped <;> cases h
    · exact .stopAgain hstopped hidle
    · exact .stop (by simpa using hstopped)

/-- **What a step can do.** -/
theorem step_cases (h : step s a = some s') : Stepped s a s' := by
  cases a with
  | submit work now =>
    cases h
    exact submit_cases work now
  | cancel id => exact cancel_cases h
  | pick w now => exact pick_cases h
  | finish w => exact finish_cases h
  | expire now => exact expire_cases h
  | stop => exact stop_cases h
  | dispatch w =>
    simp only [step, Impl.dispatch] at h
    split at h <;> cases h
    · exact .late ‹_›
    · exact .started ‹_›
  | runReturns w threw =>
    simp only [step, Impl.runReturns] at h
    split at h <;> cases h
    exact .returned threw ‹_›
  | refused | cancelled =>
    simp only [step] at h
    split_ifs at h with hmem
    cases h
    constructor
    exact hmem
  | expired | stopReject =>
    simp only [step] at h
    split at h <;> cases h
    constructor
    assumption
  | stopJoin =>
    simp only [step, Impl.stopJoin] at h
    split_ifs at h with hjoined
    cases h
    exact .stopJoin hjoined.1 hjoined.2.1 hjoined.2.2

end Sections

/-! ## The invariant -/

variable {s s' : Impl} {key : Key} {lane : Lane} {w : Nat} {id : TaskId}

/-- What holds of the lane stored under a key. -/
structure LaneOk (s : Impl) (key : Key) (lane : Lane) : Prop where
  exclusive : lane.active = true → lane.ready = false
  token : s.runnable.count key = if lane.ready then 1 else 0
  served : lane.queue ≠ [] → lane.active = true ∨ lane.ready = true
  kept : lane.idle = false
  held : lane.active = true ↔ ∃ w id, s.holds w id ∧ s.keyOf id = key
  fifo : lane.queue.Pairwise (· < ·)
  keys : ∀ id ∈ lane.queue, s.keyOf id = key ∧ id ≤ s.nextId
  later : ∀ id ∈ lane.queue, ∀ id' ∈ picksOf key s.log, id' < id

/-- **The scheduling invariant.** -/
structure Scheduled (s : Impl) : Prop where
  lane : ∀ key lane, s.lanes.find? key = some lane → LaneOk s key lane
  absent : ∀ key, s.lanes.find? key = none →
    s.runnable.count key = 0 ∧ ∀ w id, s.holds w id → s.keyOf id ≠ key
  single : ∀ w w' id id', s.holds w id → s.holds w' id' → s.keyOf id = s.keyOf id' → w = w'
  hired : ∀ w id, s.holds w id → w < s.limits.workers ∧ id ≤ s.nextId
  ordered : ∀ key, (picksOf key s.log).Pairwise (· < ·)
  picked : ∀ key, ∀ id ∈ picksOf key s.log, id ≤ s.nextId

/-- `LaneOk` reads the state only through the token count, the holders, the keys of the
    queued tasks, the identifier counter and the picks of this key. -/
theorem LaneOk.transfer (h : LaneOk s key lane)
    (hcount : s'.runnable.count key = s.runnable.count key)
    (hheld : (∃ w id, s'.holds w id ∧ s'.keyOf id = key) ↔
      ∃ w id, s.holds w id ∧ s.keyOf id = key)
    (hkey : ∀ id, id ≤ s.nextId → s'.keyOf id = s.keyOf id)
    (hnext : s.nextId ≤ s'.nextId)
    (hpicks : picksOf key s'.log = picksOf key s.log) : LaneOk s' key lane where
  exclusive := h.exclusive
  token := hcount.trans h.token
  served := h.served
  kept := h.kept
  held := h.held.trans hheld.symm
  fifo := h.fifo
  keys id hid := by
    obtain ⟨hk, hle⟩ := h.keys id hid
    exact ⟨(hkey id hle).trans hk, hle.trans hnext⟩
  later id hid id' hid' := h.later id hid id' (hpicks ▸ hid')

/-- A step that touches the lane of one key only: what has to be shown about that key,
    everything else carries over. -/
theorem Scheduled.of_lane_step (hs : Scheduled s) (k : Key)
    (hlanes : ∀ key, key ≠ k → s'.lanes.find? key = s.lanes.find? key)
    (hcount : ∀ key, key ≠ k → s'.runnable.count key = s.runnable.count key)
    (hpicks : ∀ key, key ≠ k → picksOf key s'.log = picksOf key s.log)
    (hheld : ∀ key, key ≠ k → ((∃ w id, s'.holds w id ∧ s'.keyOf id = key) ↔
      ∃ w id, s.holds w id ∧ s.keyOf id = key))
    (hkey : ∀ id, id ≤ s.nextId → s'.keyOf id = s.keyOf id)
    (hnext : s.nextId ≤ s'.nextId)
    (hlane : ∀ lane, s'.lanes.find? k = some lane → LaneOk s' k lane)
    (habsent : s'.lanes.find? k = none →
      s'.runnable.count k = 0 ∧ ∀ w id, s'.holds w id → s'.keyOf id ≠ k)
    (hsingle : ∀ w w' id id', s'.holds w id → s'.holds w' id' →
      s'.keyOf id = s'.keyOf id' → w = w')
    (hhired : ∀ w id, s'.holds w id → w < s'.limits.workers ∧ id ≤ s'.nextId)
    (hordered : (picksOf k s'.log).Pairwise (· < ·))
    (hpicked : ∀ id ∈ picksOf k s'.log, id ≤ s'.nextId) : Scheduled s' where
  lane key lane hfind := by
    by_cases hk : key = k
    · subst hk
      exact hlane lane hfind
    · rw [hlanes key hk] at hfind
      exact (hs.lane key lane hfind).transfer (hcount key hk) (hheld key hk) hkey hnext
        (hpicks key hk)
  absent key hfind := by
    by_cases hk : key = k
    · subst hk
      exact habsent hfind
    · rw [hlanes key hk] at hfind
      obtain ⟨hzero, hnone⟩ := hs.absent key hfind
      refine ⟨(hcount key hk).trans hzero, ?_⟩
      intro w id hw hid
      obtain ⟨w', id', hw', hid'⟩ := (hheld key hk).mp ⟨w, id, hw, hid⟩
      exact hnone w' id' hw' hid'
  single := hsingle
  hired := hhired
  ordered key := by
    have hold := hs.ordered key
    by_cases hk : key = k <;> simp_all
  picked key id hid := by
    by_cases hk : key = k
    · exact hpicked id (hk ▸ hid)
    · exact (hs.picked key id (hpicks key hk ▸ hid)).trans hnext

/-! ## Sections that leave the holders alone -/

/-- Workers, picks and the keys of known tasks stay: the step neither hands out nor takes back
    a task. -/
structure SameHolders (s s' : Impl) : Prop where
  task : ∀ w, (s'.workers w).task? = (s.workers w).task?
  key : ∀ id, id ≤ s.nextId → s'.keyOf id = s.keyOf id
  nextId : s.nextId ≤ s'.nextId
  limits : s'.limits = s.limits
  picks : ∀ key, picksOf key s'.log = picksOf key s.log

theorem SameHolders.holds (h : SameHolders s s') (w : Nat) (id : TaskId) :
    s'.holds w id ↔ s.holds w id := by
  unfold Impl.holds
  rw [h.task]

theorem SameHolders.held (h : SameHolders s s') (hs : Scheduled s) (key : Key) :
    (∃ w id, s'.holds w id ∧ s'.keyOf id = key) ↔ ∃ w id, s.holds w id ∧ s.keyOf id = key := by
  constructor
  · rintro ⟨w, id, hw, hid⟩
    rw [h.holds] at hw
    exact ⟨w, id, hw, (h.key id (hs.hired w id hw).2).symm.trans hid⟩
  · rintro ⟨w, id, hw, hid⟩
    exact ⟨w, id, (h.holds w id).mpr hw, (h.key id (hs.hired w id hw).2).trans hid⟩

/-- Special case of `Scheduled.of_lane_step`. -/
theorem SameHolders.of_lane (h : SameHolders s s') (hs : Scheduled s) (k : Key)
    (hlanes : ∀ key, key ≠ k → s'.lanes.find? key = s.lanes.find? key)
    (hcount : ∀ key, key ≠ k → s'.runnable.count key = s.runnable.count key)
    (hlane : ∀ lane, s'.lanes.find? k = some lane → LaneOk s' k lane)
    (habsent : s'.lanes.find? k = none →
      s'.runnable.count k = 0 ∧ ∀ w id, s.holds w id → s.keyOf id ≠ k) : Scheduled s' := by
  have hheldKey : ∀ w id, s.holds w id → s'.keyOf id = s.keyOf id :=
    fun w id hw => h.key id (hs.hired w id hw).2
  refine hs.of_lane_step k hlanes hcount (fun key _ => h.picks key) (fun key _ => h.held hs key)
    h.key h.nextId hlane ?_ ?_ ?_ ?_ ?_
  · intro hnone
    obtain ⟨hzero, hfree⟩ := habsent hnone
    refine ⟨hzero, fun w id hw => ?_⟩
    rw [h.holds] at hw
    rw [hheldKey w id hw]
    exact hfree w id hw
  · intro w w' id id' hw hw' hid
    rw [h.holds] at hw hw'
    rw [hheldKey w id hw, hheldKey w' id' hw'] at hid
    exact hs.single w w' id id' hw hw' hid
  · intro w id hw
    rw [h.holds] at hw
    obtain ⟨hlt, hle⟩ := hs.hired w id hw
    exact ⟨h.limits ▸ hlt, hle.trans h.nextId⟩
  · rw [h.picks]
    exact hs.ordered k
  · intro id hid
    rw [h.picks] at hid
    exact (hs.picked k id hid).trans h.nextId

/-- Steps that the scheduler does not notice: they may allocate tasks, but hand none out. -/
structure SameSchedule (s s' : Impl) : Prop extends SameHolders s s' where
  lanes : s'.lanes = s.lanes
  runnable : s'.runnable = s.runnable

/-- An unnoticed step is a queue step at any key. -/
theorem SameSchedule.keeps (h : SameSchedule s s') (hs : Scheduled s) : Scheduled s' := by
  refine h.of_lane hs "" (fun key _ => by rw [h.lanes]) (fun key _ => by rw [h.runnable]) ?_ ?_
  · intro lane hfind
    rw [h.lanes] at hfind
    exact (hs.lane "" lane hfind).transfer (by rw [h.runnable]) (h.held hs "") h.key h.nextId
      (h.picks "")
  · intro hfind
    rw [h.lanes] at hfind
    rw [h.runnable]
    exact hs.absent "" hfind

/-! ## `ready` -/

/-- The lane that `ready` leaves behind. -/
def Lane.announced (lane : Lane) : Lane :=
  if !lane.active && !lane.ready && !lane.queue.isEmpty then { lane with ready := true } else lane

@[simp] theorem Lane.announced_queue (lane : Lane) : lane.announced.queue = lane.queue := by
  unfold Lane.announced
  split <;> rfl

@[simp] theorem Lane.announced_active (lane : Lane) : lane.announced.active = lane.active := by
  unfold Lane.announced
  split <;> rfl

theorem Lane.announced_served (h : lane.queue ≠ []) :
    lane.announced.active = true ∨ lane.announced.ready = true := by
  unfold Lane.announced
  cases hactive : lane.active <;> cases hready : lane.ready <;> simp [h, hactive, hready]

namespace Impl

variable (s : Impl) (key : Key) (lane : Lane)

theorem ready_find? (key' : Key) : (s.ready key lane).lanes.find? key' =
    if key' = key then some lane.announced else s.lanes.find? key' := by
  unfold ready Lane.announced
  split <;> simp [FinMap.find?_insert]

theorem ready_count_ne {key' : Key} (h : key' ≠ key) :
    (s.ready key lane).runnable.count key' = s.runnable.count key' := by
  unfold ready
  split
  · simp [List.count_append, Ne.symm h]
  · rfl

@[simp] theorem ready_workers : (s.ready key lane).workers = s.workers := by
  unfold ready; split <;> rfl

@[simp] theorem ready_heap : (s.ready key lane).heap = s.heap := by
  unfold ready; split <;> rfl

@[simp] theorem ready_tasks : (s.ready key lane).tasks = s.tasks := by
  unfold ready; split <;> rfl

@[simp] theorem ready_deadlines : (s.ready key lane).deadlines = s.deadlines := by
  unfold ready; split <;> rfl

@[simp] theorem ready_counts : (s.ready key lane).counts = s.counts := by
  unfold ready; split <;> rfl

@[simp] theorem ready_nextId : (s.ready key lane).nextId = s.nextId := by
  unfold ready; split <;> rfl

@[simp] theorem ready_limits : (s.ready key lane).limits = s.limits := by
  unfold ready; split <;> rfl

@[simp] theorem ready_log : (s.ready key lane).log = s.log := by
  unfold ready; split <;> rfl

@[simp] theorem ready_keyOf (id : TaskId) : (s.ready key lane).keyOf id = s.keyOf id := by
  simp [keyOf]

@[simp] theorem ready_holds (w : Nat) (id : TaskId) :
    (s.ready key lane).holds w id ↔ s.holds w id := by
  simp [holds]

end Impl

/-- A lane that has all a good lane has, except that its token may still be missing. -/
structure LaneDraft (s : Impl) (key : Key) (lane : Lane) : Prop where
  exclusive : lane.active = true → lane.ready = false
  token : s.runnable.count key = if lane.ready then 1 else 0
  held : lane.active = true ↔ ∃ w id, s.holds w id ∧ s.keyOf id = key
  fifo : lane.queue.Pairwise (· < ·)
  keys : ∀ id ∈ lane.queue, s.keyOf id = key ∧ id ≤ s.nextId
  later : ∀ id ∈ lane.queue, ∀ id' ∈ picksOf key s.log, id' < id

theorem LaneOk.draft (h : LaneOk s key lane) :
    LaneDraft s key lane :=
  ⟨h.exclusive, h.token, h.held, h.fifo, h.keys, h.later⟩

/-- `ready` supplies the token. -/
theorem LaneDraft.ready (h : LaneDraft s key lane)
    (hqueue : lane.queue ≠ []) : LaneOk (s.ready key lane) key lane.announced where
  exclusive hactive := by
    rw [Lane.announced_active] at hactive
    simp [Lane.announced, hactive, h.exclusive hactive]
  token := by
    unfold Impl.ready Lane.announced
    split
    · rename_i hcond
      simp only [Bool.and_eq_true, Bool.not_eq_true'] at hcond
      simp [List.count_append, h.token, hcond.1.2]
    · exact h.token
  served _ := Lane.announced_served hqueue
  kept := by simp [Lane.idle, hqueue]
  held := by simpa using h.held
  fifo := by simpa using h.fifo
  keys := by simpa using h.keys
  later := by simpa using h.later

theorem scheduled_ready (hs : Scheduled s)
    (hlane : LaneDraft s key lane) (hqueue : lane.queue ≠ []) : Scheduled (s.ready key lane) := by
  have hfind := s.ready_find? key lane key
  rw [if_pos rfl] at hfind
  have hsame : SameHolders s (s.ready key lane) := by constructor <;> simp
  refine hsame.of_lane hs key ?_ (fun _ hne => s.ready_count_ne key lane hne) ?_ ?_
  · intro key' hne
    rw [s.ready_find?, if_neg hne]
  · intro lane' hlane'
    rw [hfind] at hlane'
    cases hlane'
    exact hlane.ready hqueue
  · intro hnone
    rw [hfind] at hnone
    cases hnone

/-! ## `submit` -/

/-- The lane `lanes[key]` finds or creates. -/
theorem Scheduled.draft (hs : Scheduled s) (key : Key) :
    LaneDraft s key ((s.lanes.find? key).getD {}) := by
  cases hfind : s.lanes.find? key with
  | none =>
    obtain ⟨hzero, hfree⟩ := hs.absent key hfind
    refine ⟨by simp, by simpa using hzero, ?_, by simp, by simp, by simp⟩
    simp only [Option.getD_none, Bool.false_eq_true, false_iff]
    rintro ⟨w, id, hw, hid⟩
    exact hfree w id hw hid
  | some lane => exact (hs.lane key lane hfind).draft

/-- Queue a task that is younger than everything the lane has seen. -/
theorem LaneDraft.push (h : LaneDraft s key lane)
    (id : TaskId) (hkey : s.keyOf id = key) (hid : id ≤ s.nextId)
    (hqueue : ∀ id' ∈ lane.queue, id' < id) (hpicks : ∀ id' ∈ picksOf key s.log, id' < id) :
    LaneDraft s key { lane with queue := lane.queue ++ [id] } where
  exclusive := h.exclusive
  token := h.token
  held := h.held
  fifo := List.pairwise_append.mpr ⟨h.fifo, List.pairwise_singleton _ _, by simpa using hqueue⟩
  keys := List.forall_mem_append.mpr ⟨h.keys, List.forall_mem_singleton.mpr ⟨hkey, hid⟩⟩
  later := List.forall_mem_append.mpr ⟨h.later, List.forall_mem_singleton.mpr hpicks⟩

theorem scheduled_accept (hs : Scheduled s) (work : Work) :
    Scheduled (s.accept work ((s.lanes.find? work.key).getD {})) := by
  -- the state just before `ready`, with the task allocated under the next identifier
  let t : Impl := { s with
    nextId := s.nextId + 1
    heap := Function.update s.heap (s.nextId + 1) { work := work, charge := max work.bytes 256 }
    deadlines := insertDeadline work.deadline (s.nextId + 1) s.deadlines
    tasks := (s.nextId + 1) :: s.tasks }
  have hsame : SameSchedule s t := by
    refine ⟨⟨fun _ => rfl, ?_, Nat.le_succ _, rfl, fun _ => rfl⟩, rfl, rfl⟩
    intro id hid
    have hne : id ≠ s.nextId + 1 := by omega
    simp [t, Impl.keyOf, Function.update_of_ne hne]
  have ht : Scheduled t := hsame.keeps hs
  have hdraft := ht.draft work.key
  have hold := hs.draft work.key
  have hpush : LaneDraft t work.key { (s.lanes.find? work.key).getD {} with
      queue := ((s.lanes.find? work.key).getD {}).queue ++ [s.nextId + 1] } := by
    apply hdraft.push (s.nextId + 1)
    · simp [t, Impl.keyOf]
    · exact le_refl _
    · intro id hid
      exact Nat.lt_succ_of_le (hold.keys id hid).2
    · intro id hid
      exact Nat.lt_succ_of_le (hs.picked work.key id hid)
  have hready := scheduled_ready ht hpush (by simp)
  have hcounts : SameSchedule (t.ready work.key { (s.lanes.find? work.key).getD {} with
      queue := ((s.lanes.find? work.key).getD {}).queue ++ [s.nextId + 1] })
      (s.accept work ((s.lanes.find? work.key).getD {})) :=
    ⟨⟨fun _ => rfl, fun _ _ => rfl, le_refl _, rfl, fun _ => rfl⟩, rfl, rfl⟩
  exact hcounts.keeps hready

/-! ## `cancel` and `expire` -/

@[simp] theorem expireTask_keyOf (s : Impl) (id id' : TaskId) :
    (s.expireTask id).keyOf id' = s.keyOf id' := by
  by_cases h : id' = id <;> simp [Impl.keyOf, Impl.expireTask, h]

theorem sameSchedule_markCancelled (s : Impl) (id : TaskId) :
    SameSchedule s (s.markCancelled id) :=
  ⟨⟨fun _ => rfl, fun id' _ => expireTask_keyOf s id id', le_refl _, rfl, fun _ => rfl⟩, rfl, rfl⟩

theorem sameSchedule_markExpired (s : Impl) (id : TaskId) :
    SameSchedule s (s.markExpired id) :=
  ⟨⟨fun _ => rfl, fun id' _ => expireTask_keyOf s id id', le_refl _, rfl, fun _ => rfl⟩, rfl, rfl⟩

/-- Taking a task out of a queue leaves the lane good, unless it becomes idle. -/
theorem LaneOk.eraseQueued (h : LaneOk s key lane)
    (id : TaskId) (hidle : { lane with queue := lane.queue.erase id : Lane }.idle = false) :
    LaneOk s key { lane with queue := lane.queue.erase id } where
  exclusive := h.exclusive
  token := h.token
  served hne := by
    apply h.served
    intro hempty
    exact hne (by simp [hempty])
  kept := hidle
  held := h.held
  fifo := h.fifo.sublist List.erase_sublist
  keys id' hid' := h.keys id' (List.mem_of_mem_erase hid')
  later id' hid' := h.later id' (List.mem_of_mem_erase hid')

theorem scheduled_released (hs : Scheduled s)
    (hfind : s.lanes.find? (s.keyOf id) = some lane) : Scheduled (s.released id lane) := by
  have hlane := hs.lane _ lane hfind
  have hsame : SameHolders s (s.released id lane) :=
    ⟨fun _ => rfl, fun _ _ => rfl, le_refl _, rfl, fun _ => rfl⟩
  refine hsame.of_lane hs (s.keyOf id) ?_ (fun _ _ => rfl) ?_ ?_
  · intro key hne
    dsimp only [Impl.released]
    split
    · rw [FinMap.find?_erase, if_neg hne]
    · rw [FinMap.find?_insert, if_neg hne]
  · intro lane' hlane'
    dsimp only [Impl.released] at hlane'
    split at hlane'
    · rw [FinMap.find?_erase_self] at hlane'
      cases hlane'
    · rename_i hidle
      rw [FinMap.find?_insert_self] at hlane'
      cases hlane'
      exact (hlane.eraseQueued id (by simpa using hidle)).transfer rfl Iff.rfl (fun _ _ => rfl)
        (le_refl _) rfl
  · intro hnone
    dsimp only [Impl.released] at hnone
    split at hnone
    · -- an idle lane has neither a token nor a holder
      rename_i hidle
      simp only [Lane.idle, Bool.and_eq_true, Bool.not_eq_true'] at hidle
      refine ⟨by simp [Impl.released, hlane.token, hidle.1.2], ?_⟩
      intro w id' hw hid'
      have hactive := hlane.held.mpr ⟨w, id', hw, hid'⟩
      rw [hidle.1.1] at hactive
      cases hactive
    · rw [FinMap.find?_insert_self] at hnone
      cases hnone

/-! ## `pick` -/

variable {runnable : List Key}

/-- A token at the front of `runnable` belongs to a lane that is ready and held by nobody,
    and it is the only token of its key. -/
theorem Scheduled.front (hs : Scheduled s)
    (hfront : s.runnable = key :: runnable) :
    ∃ lane, s.lanes.find? key = some lane ∧ lane.active = false ∧ runnable.count key = 0 ∧
      ∀ w id, s.holds w id → s.keyOf id ≠ key := by
  have hcount : s.runnable.count key = runnable.count key + 1 := by simp [hfront]
  cases hfind : s.lanes.find? key with
  | none =>
    have hzero := (hs.absent key hfind).1
    omega
  | some lane =>
    have hlane := hs.lane key lane hfind
    have htoken := hlane.token
    have hready : lane.ready = true := by
      by_contra hnot
      rw [if_neg hnot] at htoken
      omega
    have hactive : lane.active = false := by
      have hexclusive := hlane.exclusive
      grind
    rw [if_pos hready] at htoken
    refine ⟨lane, rfl, hactive, by omega, fun w id hw hid => ?_⟩
    simpa [hactive] using hlane.held.mpr ⟨w, id, hw, hid⟩

theorem Scheduled.dropToken_eq (hs : Scheduled s)
    (hfront : s.runnable = key :: runnable) (hfind : s.lanes.find? key = some lane) :
    { s with runnable := runnable }.dropToken key lane =
      { s with runnable := runnable, lanes := s.lanes.erase key } := by
  obtain ⟨lane', hfind', hactive, -⟩ := hs.front hfront
  cases hfind.symm.trans hfind'
  simp [Impl.dropToken, hactive]

theorem scheduled_dropToken (hs : Scheduled s)
    (hfront : s.runnable = key :: runnable) (hfind : s.lanes.find? key = some lane) :
    Scheduled ({ s with runnable := runnable }.dropToken key lane) := by
  obtain ⟨-, -, -, hcount, hfree⟩ := hs.front hfront
  rw [hs.dropToken_eq hfront hfind]
  have hsame : SameHolders s { s with runnable := runnable, lanes := s.lanes.erase key } :=
    ⟨fun _ => rfl, fun _ _ => rfl, le_refl _, rfl, fun _ => rfl⟩
  refine hsame.of_lane hs key ?_ ?_ ?_ fun _ => ⟨hcount, hfree⟩
  · intro key' hne
    exact (s.lanes.find?_erase key key').trans (if_neg hne)
  · intro key' hne
    simp [hfront, Ne.symm hne]
  · intro lane' hlane'
    rw [FinMap.find?_erase_self] at hlane'
    cases hlane'

section Take

variable (s : Impl) (w : Nat) (key : Key) (id : TaskId) (rest : List TaskId) (now : Time)

theorem take_keyOf (id' : TaskId) : (s.take w key id rest now).keyOf id' = s.keyOf id' := by
  by_cases h : id' = id <;> simp [Impl.keyOf, Impl.take, h]

theorem take_holds (w' : Nat) (id' : TaskId) : (s.take w key id rest now).holds w' id' ↔
    if w' = w then id' = id else s.holds w' id' := by
  by_cases h : w' = w
  · subst h
    simp [Impl.holds, Impl.take, Worker.task?, eq_comm]
  · simp [Impl.holds, Impl.take, h]

end Take

theorem scheduled_take (hs : Scheduled s)
    (hfront : s.runnable = key :: runnable) (hfind : s.lanes.find? key = some lane)
    {rest : List TaskId} (hqueue : lane.queue = id :: rest)
    (hw : w < s.limits.workers) (hwaiting : s.workers w = .waiting) (now : Time) :
    Scheduled ({ s with runnable := runnable }.take w key id rest now) := by
  obtain ⟨lane', hfind', -, hcount, hfree⟩ := hs.front hfront
  rw [hfind] at hfind'
  cases hfind'
  have hlane := hs.lane key lane hfind
  set t : Impl := { s with runnable := runnable }
  have hkeyOf : ∀ id', (t.take w key id rest now).keyOf id' = s.keyOf id' :=
    take_keyOf t w key id rest now
  have hholds : ∀ w' id', (t.take w key id rest now).holds w' id' ↔
      if w' = w then id' = id else s.holds w' id' := take_holds t w key id rest now
  have hidle : ∀ id', ¬ s.holds w id' := by
    intro id' h
    simp [Impl.holds, hwaiting, Worker.task?] at h
  obtain ⟨hid, hle⟩ := hlane.keys id (by simp [hqueue])
  have hsorted := hlane.fifo
  rw [hqueue, List.pairwise_cons] at hsorted
  have hpicks : picksOf key (t.take w key id rest now).log = picksOf key s.log ++ [id] := by
    simp [Impl.take, picksOf_picked, t]
  have hlater := hlane.later
  have hkeys := hlane.keys
  rw [hqueue, List.forall_mem_cons] at hlater hkeys
  have hself : (t.take w key id rest now).lanes.find? key =
      some { active := true, ready := false, queue := rest } := FinMap.find?_insert_self _ _ _
  apply hs.of_lane_step key
  · intro key' hne
    exact (s.lanes.find?_insert key key' _).trans (if_neg hne)
  · intro key' hne
    simp [Impl.take, t, hfront, Ne.symm hne]
  · intro key' hne
    simp [Impl.take, picksOf_picked, t, Ne.symm hne]
  · -- the holders of the other keys: worker `w` held nothing and now holds a task of `key`
    intro key' hne
    simp only [hholds, hkeyOf]
    grind
  · intro id' _
    exact hkeyOf id'
  · exact le_refl _
  · intro lane' hlane'
    rw [hself] at hlane'
    cases hlane'
    refine ⟨fun _ => rfl, hcount, fun _ => .inl rfl, rfl, ?_, hsorted.2, ?_, ?_⟩
    · refine ⟨fun _ => ⟨w, id, ?_, (hkeyOf id).trans hid⟩, fun _ => rfl⟩
      simp [hholds]
    · simp only [hkeyOf]
      exact hkeys.2
    · simp only [hpicks, List.forall_mem_append, List.forall_mem_singleton]
      exact fun id' hid' => ⟨hlater.2 id' hid', hsorted.1 id' hid'⟩
  · intro hnone
    rw [hself] at hnone
    cases hnone
  · -- two holders of one key: nobody else held a task of `key` before
    intro w₁ w₂ id₁ id₂ h₁ h₂ hsame
    rw [hkeyOf, hkeyOf] at hsame
    rw [hholds] at h₁ h₂
    have hsingle := hs.single w₁ w₂ id₁ id₂
    grind
  · intro w' id' h
    rw [hholds] at h
    split at h
    · rename_i hww
      subst h hww
      exact ⟨hw, hle⟩
    · exact hs.hired w' id' h
  · rw [hpicks]
    exact List.pairwise_append.mpr
      ⟨hs.ordered key, List.pairwise_singleton _ _, by simpa using hlater.1⟩
  · rw [hpicks]
    exact List.forall_mem_append.mpr ⟨hs.picked key, List.forall_mem_singleton.mpr hle⟩

/-! ## The end of a turn -/

/-- Moving one worker on without changing its task. -/
theorem task_update {next : Worker}
    (h : next.task? = (s.workers w).task?) (w' : Nat) :
    (Function.update s.workers w next w').task? = (s.workers w').task? := by
  by_cases hw : w' = w <;> simp [hw, h]

theorem sameSchedule_advance (s : Impl) {next : Worker} {log : List Event}
    (htask : next.task? = (s.workers w).task?)
    (hlog : ∀ key, picksOf key log = picksOf key s.log) :
    SameSchedule s { s with workers := Function.update s.workers w next, log := log } :=
  ⟨⟨task_update htask, fun _ _ => rfl, le_refl _, rfl, hlog⟩, rfl, rfl⟩

/-- Worker `w` lets go of its task; of the lane of that task only what is said about it
    here matters, so the lane may be erased or passed through `ready`. -/
theorem Scheduled.of_release (hs : Scheduled s)
    (hw : s.holds w id) (hworkers : s'.workers = Function.update s.workers w .waiting)
    (hheap : s'.heap = s.heap) (hlog : s'.log = s.log) (hnext : s'.nextId = s.nextId)
    (hlimits : s'.limits = s.limits)
    (hlanes : ∀ key, key ≠ s.keyOf id → s'.lanes.find? key = s.lanes.find? key)
    (hcount : ∀ key, key ≠ s.keyOf id → s'.runnable.count key = s.runnable.count key)
    (hlane : ∀ lane, s'.lanes.find? (s.keyOf id) = some lane → LaneOk s' (s.keyOf id) lane)
    (habsent : s'.lanes.find? (s.keyOf id) = none → s'.runnable.count (s.keyOf id) = 0) :
    Scheduled s' := by
  have hkeyOf : ∀ id', s'.keyOf id' = s.keyOf id' := by
    intro id'
    simp [Impl.keyOf, hheap]
  have hholds : ∀ w' id', s'.holds w' id' ↔ w' ≠ w ∧ s.holds w' id' := by
    intro w' id'
    by_cases h : w' = w
    · subst h
      simp [Impl.holds, hworkers, Worker.task?]
    · simp [Impl.holds, hworkers, h]
  apply hs.of_lane_step (s.keyOf id) hlanes hcount
  · intro key _
    rw [hlog]
  · intro key hne
    simp only [hholds, hkeyOf]
    -- the released worker held a task of another key
    have hother : ∀ id', s.holds w id' → id' = id :=
      fun id' hw' => Option.some.inj (hw'.symm.trans hw)
    grind
  · intro id' _
    exact hkeyOf id'
  · exact hnext.ge
  · exact hlane
  · intro hnone
    refine ⟨habsent hnone, ?_⟩
    intro w' id' hw' hid'
    rw [hholds] at hw'
    rw [hkeyOf] at hid'
    exact hw'.1 (hs.single w' w id' id hw'.2 hw hid')
  · intro w₁ w₂ id₁ id₂ h₁ h₂ hkeys
    rw [hholds] at h₁ h₂
    rw [hkeyOf, hkeyOf] at hkeys
    exact hs.single w₁ w₂ id₁ id₂ h₁.2 h₂.2 hkeys
  · intro w' id' h
    rw [hholds] at h
    rw [hlimits, hnext]
    exact hs.hired w' id' h.2
  · rw [hlog]
    exact hs.ordered _
  · rw [hlog, hnext]
    exact hs.picked _

theorem scheduled_finished (hs : Scheduled s)
    (hworker : s.workers w = .returned id) (hfind : s.lanes.find? (s.keyOf id) = some lane) :
    Scheduled (s.finished w id lane) := by
  have hw : s.holds w id := by simp [Impl.holds, hworker, Worker.task?]
  have hlane := hs.lane _ lane hfind
  have hready : lane.ready = false := hlane.exclusive (hlane.held.mpr ⟨w, id, hw, rfl⟩)
  have hcount : s.runnable.count (s.keyOf id) = 0 := by
    have := hlane.token
    rwa [hready] at this
  unfold Impl.finished
  split_ifs with hqueue
  · refine hs.of_release hw rfl rfl rfl rfl rfl ?_ (fun _ _ => rfl) ?_ (fun _ => hcount)
    · intro key hne
      exact (s.lanes.find?_erase _ key).trans (if_neg hne)
    · intro lane' hlane'
      have hgone : (s.lanes.erase (s.keyOf id)).find? (s.keyOf id) = none :=
        FinMap.find?_erase_self _ _
      cases hgone.symm.trans hlane'
  · -- just before `ready` nobody holds a task of this key any more
    have hdraft : LaneDraft (s.leave w id) (s.keyOf id) { lane with active := false } := by
      refine ⟨by simp, ?_, ?_, hlane.fifo, hlane.keys, hlane.later⟩
      · simpa [Impl.leave, hready] using hcount
      · simp only [Bool.false_eq_true, false_iff]
        rintro ⟨w', id', hw', hid'⟩
        by_cases hww : w' = w
        · subst hww
          simp [Impl.holds, Impl.leave, Worker.task?] at hw'
        · have hold : s.holds w' id' := by
            simpa [Impl.holds, Impl.leave, Function.update_of_ne hww] using hw'
          exact hww (hs.single w' w id' id hold hw hid')
    have hself := ((s.leave w id).ready_find? (s.keyOf id) { lane with active := false }
      (s.keyOf id)).trans (if_pos rfl)
    refine hs.of_release hw (by simp [Impl.leave]) (by simp [Impl.leave]) (by simp [Impl.leave])
      (by simp [Impl.leave]) (by simp [Impl.leave]) ?_ ?_ ?_ ?_
    · intro key hkey
      exact ((s.leave w id).ready_find? _ _ key).trans (if_neg hkey)
    · intro key hkey
      exact (s.leave w id).ready_count_ne _ _ hkey
    · intro lane' hlane'
      cases hself.symm.trans hlane'
      exact hdraft.ready (by simpa using hqueue)
    · intro hnone
      cases hself.symm.trans hnone

/-! ## `stop` -/

/-- Once the threads are joined, no worker holds a task. -/
theorem Scheduled.joined (hs : Scheduled s)
    (hworkers : ∀ w < s.limits.workers, s.workers w = .exited) (w : Nat) (id : TaskId) :
    ¬ s.holds w id := by
  intro hw
  have hexited := hworkers w (hs.hired w id hw).1
  simp [Impl.holds, hexited, Worker.task?] at hw

/-- Without holders the emptied containers are consistent. -/
theorem scheduled_joined (hs : Scheduled s) (hfree : ∀ w id, ¬ s'.holds w id)
    (hlanes : s'.lanes = ∅) (hrunnable : s'.runnable = []) (hlog : s'.log = s.log)
    (hnext : s'.nextId = s.nextId) : Scheduled s' := by
  refine ⟨?_, ?_, ?_, ?_, hlog ▸ hs.ordered, ?_⟩
  · intro key lane hfind
    simp [hlanes] at hfind
  · intro key _
    exact ⟨by simp [hrunnable], fun w id hw => absurd hw (hfree w id)⟩
  · intro w _ id _ hw
    exact absurd hw (hfree w id)
  · intro w id hw
    exact absurd hw (hfree w id)
  · rw [hlog, hnext]
    exact hs.picked

/-! ## Every run -/

theorem scheduled_start (h : machine.start s) : Scheduled s := by
  obtain ⟨limits, -, rfl⟩ := h
  refine ⟨?_, ?_, ?_, ?_, ?_, ?_⟩ <;> simp [Impl.holds, Worker.task?, picksOf]

theorem scheduled_step (hs : Scheduled s) (h : step s a = some s') :
    Scheduled s' := by
  have hquiet : ∀ {t : Impl}, t.lanes = s.lanes → t.runnable = s.runnable →
      (∀ id, t.keyOf id = s.keyOf id) → t.workers = s.workers → t.nextId = s.nextId →
      t.limits = s.limits → (∀ key, picksOf key t.log = picksOf key s.log) → Scheduled t := by
    intro t hlanes hrunnable hkey hworkers hnext hlimits hlog
    exact SameSchedule.keeps (s := s) ⟨⟨fun _ => by rw [hworkers], fun id _ => hkey id, hnext.ge,
      hlimits, hlog⟩, hlanes, hrunnable⟩ hs
  cases step_cases h
  case accepted work now _ _ _ => exact scheduled_accept hs work
  case withdrawn id lane _ _ _ hfind =>
    exact scheduled_released ((sameSchedule_markCancelled s id).keeps hs) hfind
  case dropped id lane _ _ _ _ _ hfind =>
    exact scheduled_released ((sameSchedule_markExpired s id).keeps hs) hfind
  case marked id _ _ _ => exact (sameSchedule_markCancelled s id).keeps hs
  case expiring id _ _ _ _ _ => exact (sameSchedule_markExpired s id).keeps hs
  case untimed id _ _ _ _ =>
    refine hquiet rfl rfl (fun id' => ?_) rfl rfl rfl fun _ => rfl
    by_cases hid : id' = id <;> simp [Impl.keyOf, Impl.setTask, hid]
  case orphaned key runnable w now hfront hnone =>
    obtain ⟨lane, hfind, -⟩ := hs.front hfront
    cases hnone.symm.trans hfind
  case emptied hfront hfind _ => exact scheduled_dropToken hs hfront hfind
  case taken now hw hwaiting _ hfront hfind hqueue =>
    exact scheduled_take hs hfront hfind hqueue hw hwaiting now
  case exit hwaiting _ =>
    exact (sameSchedule_advance s (by simp [hwaiting, Worker.task?]) fun _ => rfl).keeps hs
  case late hworker | started hworker =>
    exact (sameSchedule_advance s (by simp [hworker, Worker.task?]) (by simp)).keeps hs
  case returned threw hworker =>
    refine (sameSchedule_advance s (by simp [hworker, Worker.task?]) fun key => ?_).keeps hs
    cases threw <;> simp
  case finished hworker hfind => exact scheduled_finished hs hworker hfind
  case stop =>
    refine hquiet rfl rfl (fun id => ?_) rfl rfl rfl fun _ => rfl
    unfold Impl.keyOf
    dsimp only
    split <;> rfl
  case stopJoin hworkers => exact scheduled_joined hs (hs.joined hworkers) rfl rfl rfl rfl
  all_goals exact hquiet rfl rfl (fun _ => rfl) rfl rfl rfl (by simp [Impl.refuse])

/-- **Every reachable state of the queue is properly scheduled.** -/
theorem scheduled_reachable (hs : machine.Reachable s) : Scheduled s :=
  hs.invariant (fun _ => scheduled_start) (fun _ _ _ => scheduled_step)

/-! ## A worker keeps its task -/

/-- Only the worker's own last section takes a task away from it: neither `cancel` nor
    `expire` nor `stop` does. -/
theorem holds_step (h : step s a = some s')
    (hw : s.holds w id) : s'.holds w id ∨ (a = .finish w ∧ s.workers w = .returned id) := by
  have hmoved : ∀ {v : Nat} {next : Worker} {t : Impl},
      t.workers = Function.update s.workers v next → next.task? = (s.workers v).task? →
      t.holds w id := by
    intro v next t hworkers htask
    unfold Impl.holds at *
    rw [hworkers, task_update htask, hw]
  cases step_cases h
  case finished v id' lane hworker _ =>
    by_cases hv : w = v
    · subst hv
      have hsame : id' = id := by simpa [Impl.holds, hworker, Worker.task?] using hw
      exact .inr ⟨rfl, hsame ▸ hworker⟩
    · obtain ⟨lanes, runnable, heq⟩ := s.finished_eq v id' lane
      rw [heq]
      exact .inl (by simpa [Impl.holds, Impl.leave, hv] using hw)
  all_goals left
  case accepted => simpa [Impl.holds, Impl.accept] using hw
  case exit hwaiting _ => exact hmoved rfl (by simp [hwaiting, Worker.task?])
  case taken v _ _ hwaiting _ _ _ _ =>
    -- a worker that holds a task is not at the start of its loop
    have hv : w ≠ v := by
      rintro rfl
      simp [Impl.holds, hwaiting, Worker.task?] at hw
    simpa [Impl.holds, Impl.take, hv] using hw
  case late hworker | started hworker | returned hworker =>
    exact hmoved rfl (by simp [hworker, Worker.task?])
  case emptied =>
    unfold Impl.dropToken
    split <;> exact hw
  all_goals exact hw

end RedisPvxsIoc.OperationQueue
