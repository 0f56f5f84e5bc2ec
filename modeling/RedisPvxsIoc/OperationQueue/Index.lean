import RedisPvxsIoc.OperationQueue.Scheduling

/-!
# The Task Index

`tasks` maps the identifiers of live tasks to their objects, and `Task::active` tells
the tasks that a worker has taken from those that still wait in a lane.  `Indexed` says
that these two views agree with the workers and the lanes, so that every lookup the
source makes with `at` succeeds and "active" has one meaning.

## Main results

- `releaseQueued_total`, `finish_total`: no lookup of `releaseQueued` or of the worker fails
- `queue_serial_fifo`: the queue is a serial FIFO executor for each key
-/

namespace RedisPvxsIoc.OperationQueue

open Foundations

/-- The tasks waiting in the lane of a key; none if there is no lane. -/
def Impl.queueAt (s : Impl) (key : Key) : List TaskId :=
  ((s.lanes.find? key).map Lane.queue).getD []

/-- The index, the `active` flags, the lanes and the workers agree. -/
structure Indexed (s : Impl) : Prop where
  nodup : s.tasks.Nodup
  known : ∀ id ∈ s.tasks, id ≤ s.nextId
  held : ∀ w id, s.holds w id → id ∈ s.tasks ∧ (s.heap id).active = true
  holder : ∀ id ∈ s.tasks, (s.heap id).active = true → ∃ w, s.holds w id
  waiting : ∀ id ∈ s.tasks, (s.heap id).active = false → id ∈ s.queueAt (s.keyOf id)
  queued : ∀ key, ∀ id ∈ s.queueAt key, id ∈ s.tasks ∧ (s.heap id).active = false

/-- Steps that the index does not notice. -/
structure SameIndex (s s' : Impl) : Prop where
  tasks : s'.tasks = s.tasks
  nextId : s'.nextId = s.nextId
  task : ∀ w, (s'.workers w).task? = (s.workers w).task?
  active : ∀ id, (s'.heap id).active = (s.heap id).active
  key : ∀ id, s'.keyOf id = s.keyOf id
  queue : ∀ key, s'.queueAt key = s.queueAt key

variable {s : Impl}

theorem SameIndex.keeps {s' : Impl} (h : SameIndex s s') (hs : Indexed s) : Indexed s' := by
  have hholds : ∀ w id, s'.holds w id ↔ s.holds w id := by
    intro w id
    unfold Impl.holds
    rw [h.task]
  constructor <;> simp only [h.tasks, h.nextId, h.active, h.key, h.queue, hholds]
  · exact hs.nodup
  · exact hs.known
  · exact hs.held
  · exact hs.holder
  · exact hs.waiting
  · exact hs.queued

/-! ## Queues under the lane updates -/

variable {id : TaskId}

section Queues

variable {s s' : Impl} {key : Key} {lane : Lane}

theorem queueAt_of_find? (h : s.lanes.find? key = some lane) : s.queueAt key = lane.queue := by
  simp [Impl.queueAt, h]

theorem queueAt_ready (s : Impl) (key : Key) (lane : Lane) (key' : Key) :
    (s.ready key lane).queueAt key' = if key' = key then lane.queue else s.queueAt key' := by
  unfold Impl.queueAt
  rw [s.ready_find?]
  split <;> simp

theorem queueAt_insert (s : Impl) (key : Key) (lane : Lane) (key' : Key) :
    { s with lanes := s.lanes.insert key lane }.queueAt key' =
      if key' = key then lane.queue else s.queueAt key' := by
  unfold Impl.queueAt
  rw [FinMap.find?_insert]
  split <;> simp

theorem queueAt_erase (s : Impl) (key : Key) (key' : Key) :
    { s with lanes := s.lanes.erase key }.queueAt key' =
      if key' = key then [] else s.queueAt key' := by
  unfold Impl.queueAt
  rw [FinMap.find?_erase]
  split <;> simp

/-- Erasing an idle lane and writing it back look the same from the queues. -/
theorem queueAt_released (hfind : s.lanes.find? (s.keyOf id) = some lane) (key : Key) :
    (s.released id lane).queueAt key =
      if key = s.keyOf id then (s.queueAt key).erase id else s.queueAt key := by
  have hlane : s.queueAt (s.keyOf id) = lane.queue := queueAt_of_find? hfind
  unfold Impl.released Impl.queueAt
  dsimp only
  by_cases hkey : key = s.keyOf id
  · subst hkey
    rw [if_pos rfl]
    split
    · rename_i hidle
      simp only [Lane.idle, Bool.and_eq_true, List.isEmpty_iff] at hidle
      simp [hfind, hidle.2]
    · simp [hfind]
  · rw [if_neg hkey]
    split
    · rw [FinMap.find?_erase, if_neg hkey]
    · rw [FinMap.find?_insert, if_neg hkey]

theorem queueAt_accept (s : Impl) (work : Work) (key : Key) :
    (s.accept work ((s.lanes.find? work.key).getD {})).queueAt key =
      if key = work.key then s.queueAt key ++ [s.nextId + 1] else s.queueAt key := by
  refine (queueAt_ready _ work.key _ key).trans ?_
  by_cases hkey : key = work.key
  · subst hkey
    unfold Impl.queueAt
    cases s.lanes.find? work.key <;> simp
  · simp only [if_neg hkey]
    rfl

/-- Consuming the token of an empty lane changes no queue. -/
theorem queueAt_dropToken (hs : Scheduled s) {runnable : List Key}
    (hfront : s.runnable = key :: runnable) (hfind : s.lanes.find? key = some lane)
    (hempty : lane.queue = []) (key' : Key) :
    ({ s with runnable := runnable }.dropToken key lane).queueAt key' = s.queueAt key' := by
  rw [hs.dropToken_eq hfront hfind]
  refine (queueAt_erase s key key').trans ?_
  split
  · rename_i hkey
    rw [hkey, queueAt_of_find? hfind, hempty]
  · rfl

/-- A worker that comes back changes flags of the lane, never its queue. -/
theorem queueAt_finished (w : Nat) (hfind : s.lanes.find? (s.keyOf id) = some lane) (key : Key) :
    (s.finished w id lane).queueAt key = s.queueAt key := by
  have hlane : s.queueAt (s.keyOf id) = lane.queue := queueAt_of_find? hfind
  have hqueue : (s.finished w id lane).queueAt key =
      if key = s.keyOf id then lane.queue else s.queueAt key := by
    unfold Impl.finished
    split_ifs with hempty hkey hkey
    · rw [List.isEmpty_iff.mp hempty]
      exact (queueAt_erase s _ key).trans (if_pos hkey)
    · exact (queueAt_erase s _ key).trans (if_neg hkey)
    · exact (queueAt_ready _ _ _ key).trans (if_pos hkey)
    · exact (queueAt_ready _ _ _ key).trans (if_neg hkey)
  rw [hqueue]
  split_ifs with hkey
  · rw [hkey, hlane]
  · rfl

theorem Scheduled.queue_sorted (hs : Scheduled s) (key : Key) :
    (s.queueAt key).Pairwise (· < ·) ∧ ∀ id ∈ s.queueAt key, s.keyOf id = key := by
  cases hfind : s.lanes.find? key with
  | none => simp [Impl.queueAt, hfind]
  | some lane =>
    have hlane := hs.lane key lane hfind
    rw [queueAt_of_find? hfind]
    exact ⟨hlane.fifo, fun id hid => (hlane.keys id hid).1⟩

/-- A released task is the only one that leaves a queue. -/
theorem mem_queueAt_released (hs : Scheduled s) (hfind : s.lanes.find? (s.keyOf id) = some lane)
    (key : Key) (id' : TaskId) :
    id' ∈ (s.released id lane).queueAt key ↔ id' ∈ s.queueAt key ∧ id' ≠ id := by
  obtain ⟨hsorted, hkeys⟩ := hs.queue_sorted key
  have hnodup : (s.queueAt key).Nodup := hsorted.imp (fun hlt => Nat.ne_of_lt hlt)
  rw [queueAt_released hfind]
  split
  · rw [hnodup.mem_erase_iff, and_comm]
  · rename_i hkey
    refine ⟨fun hmem => ⟨hmem, ?_⟩, And.left⟩
    rintro rfl
    exact hkey (hkeys id' hmem).symm

/-- So is a task that a worker takes. -/
theorem mem_queueAt_take (hs : Scheduled s) (hfind : s.lanes.find? key = some lane)
    {rest : List TaskId} (hlane : lane.queue = id :: rest) (runnable : List Key) (w : Nat)
    (now : Time) (key' : Key) (id' : TaskId) :
    id' ∈ ({ s with runnable := runnable }.take w key id rest now).queueAt key' ↔
      id' ∈ s.queueAt key' ∧ id' ≠ id := by
  have hqueueKey : s.queueAt key = id :: rest := (queueAt_of_find? hfind).trans hlane
  have hqueue : ({ s with runnable := runnable }.take w key id rest now).queueAt key' =
      if key' = key then rest else s.queueAt key' :=
    queueAt_insert s key { active := true, ready := false, queue := rest } key'
  obtain ⟨hsorted, hkeys⟩ := hs.queue_sorted key
  rw [hqueueKey, List.pairwise_cons] at hsorted
  rw [hqueue]
  split
  · rename_i hkey
    rw [hkey, hqueueKey, List.mem_cons]
    refine ⟨fun hmem => ⟨.inr hmem, Nat.ne_of_gt (hsorted.1 id' hmem)⟩, fun h => h.1.resolve_left h.2⟩
  · rename_i hkey
    refine ⟨fun hmem => ⟨hmem, ?_⟩, And.left⟩
    rintro rfl
    exact hkey (((hs.queue_sorted key').2 id' hmem).symm.trans (hkeys id' (by simp [hqueueKey])))

end Queues

/-! ## Preservation -/

theorem indexed_accept (hs : Indexed s) (work : Work) :
    Indexed (s.accept work ((s.lanes.find? work.key).getD {})) := by
  set s' := s.accept work ((s.lanes.find? work.key).getD {}) with hs'
  have htasks : s'.tasks = (s.nextId + 1) :: s.tasks := by simp [hs', Impl.accept]
  have hnext : s'.nextId = s.nextId + 1 := by simp [hs', Impl.accept]
  have hheap : s'.heap = Function.update s.heap (s.nextId + 1)
      { work := work, charge := max work.bytes 256 } := by simp [hs', Impl.accept]
  have hholds : ∀ w id, s'.holds w id ↔ s.holds w id := by simp [hs', Impl.accept, Impl.holds]
  have hqueue : ∀ key, s'.queueAt key =
      if key = work.key then s.queueAt key ++ [s.nextId + 1] else s.queueAt key :=
    queueAt_accept s work
  -- every older identifier keeps its object
  have hold : ∀ id, id ≤ s.nextId → s'.heap id = s.heap id := by
    intro id hid
    rw [hheap, Function.update_of_ne (Nat.ne_of_lt (Nat.lt_succ_of_le hid))]
  have hnew : s'.heap (s.nextId + 1) = { work := work, charge := max work.bytes 256 } := by
    rw [hheap, Function.update_self]
  have hkey : ∀ id, s'.keyOf id = if id = s.nextId + 1 then work.key else s.keyOf id := by
    intro id
    simp only [Impl.keyOf, hheap, Function.update_apply]
    split <;> rfl
  obtain ⟨hnodup, hknown, hheld, hholder, hwaiting, hqueued⟩ := hs
  constructor <;> grind

variable {lane : Lane}

/-- A task leaves the queue and the index together. -/
theorem indexed_released (hs : Indexed s) (hsched : Scheduled s)
    (hinactive : (s.heap id).active = false) (hfind : s.lanes.find? (s.keyOf id) = some lane) :
    Indexed (s.released id lane) := by
  have hqueue := mem_queueAt_released hsched hfind
  have hmem : ∀ id', id' ∈ s.tasks.erase id ↔ id' ≠ id ∧ id' ∈ s.tasks :=
    fun id' => hs.nodup.mem_erase_iff
  obtain ⟨hnodup, hknown, hheld, hholder, hwaiting, hqueued⟩ := hs
  constructor
  · exact hnodup.erase id
  · exact fun id' hid' => hknown id' ((hmem id').mp hid').2
  · intro w id' hw
    obtain ⟨hin, hactive⟩ := hheld w id' hw
    refine ⟨(hmem id').mpr ⟨?_, hin⟩, hactive⟩
    rintro rfl
    rw [hinactive] at hactive
    cases hactive
  · exact fun id' hid' => hholder id' ((hmem id').mp hid').2
  · intro id' hid' hactive
    obtain ⟨hne, hin⟩ := (hmem id').mp hid'
    exact (hqueue (s.keyOf id') id').mpr ⟨hwaiting id' hin hactive, hne⟩
  · intro key id' hid'
    obtain ⟨hold, hne⟩ := (hqueue key id').mp hid'
    obtain ⟨hin, hactive⟩ := hqueued key id' hold
    exact ⟨(hmem id').mpr ⟨hne, hin⟩, hactive⟩

@[simp] theorem expireTask_active (s : Impl) (id id' : TaskId) :
    ((s.expireTask id).heap id').active = (s.heap id').active := by
  by_cases h : id' = id <;> simp [Impl.expireTask, h]

theorem sameIndex_markCancelled (s : Impl) (id : TaskId) : SameIndex s (s.markCancelled id) :=
  ⟨rfl, rfl, fun _ => rfl, expireTask_active s id, expireTask_keyOf s id, fun _ => rfl⟩

theorem sameIndex_markExpired (s : Impl) (id : TaskId) : SameIndex s (s.markExpired id) :=
  ⟨rfl, rfl, fun _ => rfl, expireTask_active s id, expireTask_keyOf s id, fun _ => rfl⟩

variable {w : Nat}

theorem indexed_take (hs : Indexed s) (hsched : Scheduled s) {key : Key}
    (hfind : s.lanes.find? key = some lane) {rest : List TaskId} (hlane : lane.queue = id :: rest)
    (runnable : List Key) (hwaiting : s.workers w = .waiting) (now : Time) :
    Indexed ({ s with runnable := runnable }.take w key id rest now) := by
  have hqueue := mem_queueAt_take hsched hfind hlane runnable w now
  have hmem : id ∈ s.queueAt key := by simp [queueAt_of_find? hfind, hlane]
  obtain ⟨hin, -⟩ := hs.queued key id hmem
  set t : Impl := { s with runnable := runnable }
  have hkeyOf : ∀ id', (t.take w key id rest now).keyOf id' = s.keyOf id' :=
    take_keyOf t w key id rest now
  have hholds : ∀ w' id', (t.take w key id rest now).holds w' id' ↔
      if w' = w then id' = id else s.holds w' id' := take_holds t w key id rest now
  have hactive : ∀ id', ((t.take w key id rest now).heap id').active =
      if id' = id then true else (s.heap id').active := by
    intro id'
    by_cases h : id' = id <;> simp [Impl.take, h, t]
  have hidle : ∀ id', ¬ s.holds w id' := by
    intro id' h
    simp [Impl.holds, hwaiting, Worker.task?] at h
  have htasks : (t.take w key id rest now).tasks = s.tasks := rfl
  set t' := t.take w key id rest now
  obtain ⟨hnodup, hknown, hheld, hholder, hwait, hqueued⟩ := hs
  refine ⟨hnodup, hknown, ?_, ?_, ?_, ?_⟩
  · intro w' id' hw'
    grind
  · intro id' hid' hact
    rw [hactive] at hact
    by_cases heq : id' = id
    · exact ⟨w, (hholds w id').mpr (by simpa using heq)⟩
    · obtain ⟨w', hw'⟩ := hholder id' hid' (by simpa [heq] using hact)
      have hne : w' ≠ w := by
        rintro rfl
        exact hidle id' hw'
      exact ⟨w', (hholds w' id').mpr (by simpa [hne] using hw')⟩
  · intro id' hid' hact
    grind
  · intro key' id' hid'
    grind

theorem indexed_finished (hs : Indexed s) (hsched : Scheduled s)
    (hworker : s.workers w = .returned id) (hfind : s.lanes.find? (s.keyOf id) = some lane) :
    Indexed (s.finished w id lane) := by
  have hw : s.holds w id := by simp [Impl.holds, hworker, Worker.task?]
  have hqueue := queueAt_finished w hfind
  obtain ⟨lanes, runnable, heq⟩ := s.finished_eq w id lane
  set s' := s.finished w id lane
  have htasks : s'.tasks = s.tasks.erase id := by rw [heq]; rfl
  have hnext : s'.nextId = s.nextId := by rw [heq]; rfl
  have hheap : s'.heap = s.heap := by rw [heq]; rfl
  have hworkers : s'.workers = Function.update s.workers w .waiting := by rw [heq]; rfl
  have hholds : ∀ w' id', s'.holds w' id' ↔ w' ≠ w ∧ s.holds w' id' := by
    intro w' id'
    by_cases hww : w' = w
    · subst hww
      simp [Impl.holds, hworkers, Worker.task?]
    · simp [Impl.holds, hworkers, hww]
  have hmem : ∀ id', id' ∈ s'.tasks ↔ id' ≠ id ∧ id' ∈ s.tasks := by
    intro id'
    rw [htasks]
    exact hs.nodup.mem_erase_iff
  have hkey : ∀ id', s'.keyOf id' = s.keyOf id' := by simp [Impl.keyOf, hheap]
  obtain ⟨hnodup, hknown, hheld, hholder, hwaiting, hqueued⟩ := hs
  constructor
  · rw [htasks]
    exact hnodup.erase id
  · grind
  · intro w' id' hw'
    -- no other worker holds a task of this key
    have hsingle := hsched.single w' w id' id'
    grind
  · intro id' hid' hactive
    obtain ⟨w', hw'⟩ := hholder id' ((hmem id').mp hid').2 (hheap ▸ hactive)
    refine ⟨w', (hholds w' id').mpr ⟨?_, hw'⟩⟩
    rintro rfl
    exact ((hmem id').mp hid').1 (Option.some.inj (hw'.symm.trans hw))
  · grind
  · grind

theorem indexed_step {s' : Impl} {a : Label} (hsched : Scheduled s) (hs : Indexed s)
    (h : step s a = some s') : Indexed s' := by
  have hmoved : ∀ {t : Impl} {w : Nat} {next : Worker}, t.tasks = s.tasks → t.nextId = s.nextId →
      t.workers = Function.update s.workers w next → next.task? = (s.workers w).task? →
      t.heap = s.heap → t.lanes = s.lanes → Indexed t := by
    intro t w next htasks hnext hworkers htask hheap hlanes
    refine SameIndex.keeps (s := s) ⟨htasks, hnext, hworkers ▸ task_update htask,
      fun _ => by rw [hheap], fun _ => by simp [Impl.keyOf, hheap],
      fun _ => by simp [Impl.queueAt, hlanes]⟩ hs
  cases step_cases h
  case accepted work now _ _ _ => exact indexed_accept hs work
  case marked id _ _ _ => exact (sameIndex_markCancelled s id).keeps hs
  case expiring id _ _ _ _ _ => exact (sameIndex_markExpired s id).keeps hs
  case withdrawn id lane _ _ hinactive hfind =>
    exact indexed_released ((sameIndex_markCancelled s id).keeps hs)
      ((sameSchedule_markCancelled s id).keeps hsched)
      ((expireTask_active s id id).trans hinactive) hfind
  case dropped id lane _ _ _ _ hinactive hfind =>
    exact indexed_released ((sameIndex_markExpired s id).keeps hs)
      ((sameSchedule_markExpired s id).keeps hsched)
      ((expireTask_active s id id).trans hinactive) hfind
  case untimed id _ _ _ _ =>
    have htask : ∀ id', ((s.setTask id { s.heap id with timed := false }).heap id').active =
          (s.heap id').active ∧
        (s.setTask id { s.heap id with timed := false }).keyOf id' = s.keyOf id' := by
      intro id'
      by_cases hid : id' = id <;> simp [Impl.keyOf, Impl.setTask, hid]
    exact SameIndex.keeps (s := s) ⟨rfl, rfl, fun _ => rfl, fun id' => (htask id').1,
      fun id' => (htask id').2, fun _ => rfl⟩ hs
  case emptied hfront hfind hempty =>
    refine SameIndex.keeps (s := s) ?_ hs
    have hqueue := queueAt_dropToken hsched hfront hfind hempty
    rw [hsched.dropToken_eq hfront hfind] at hqueue ⊢
    exact ⟨rfl, rfl, fun _ => rfl, fun _ => rfl, fun _ => rfl, hqueue⟩
  case taken key runnable lane id rest w now _ hwaiting _ hfront hfind hqueue =>
    exact indexed_take hs hsched hfind hqueue runnable hwaiting now
  case exit hworker _ | late hworker | started hworker | returned hworker =>
    exact hmoved rfl rfl rfl (by simp [hworker, Worker.task?]) rfl rfl
  case finished hworker hfind => exact indexed_finished hs hsched hworker hfind
  case stop =>
    refine SameIndex.keeps (s := s) ⟨rfl, rfl, fun _ => rfl, ?_, ?_, fun _ => rfl⟩ hs
    · intro id
      dsimp only
      split <;> rfl
    · intro id
      unfold Impl.keyOf
      dsimp only
      split <;> rfl
  case stopJoin _ _ hworkers =>
    have hfree := hsched.joined hworkers
    refine ⟨List.nodup_nil, by simp, fun w id hw => absurd hw (hfree w id), by simp, by simp, ?_⟩
    simp [Impl.queueAt]
  all_goals
    exact SameIndex.keeps (s := s)
      ⟨rfl, rfl, fun _ => rfl, fun _ => rfl, fun _ => rfl, fun _ => rfl⟩ hs

theorem indexed_start (h : machine.start s) : Indexed s := by
  obtain ⟨limits, -, rfl⟩ := h
  constructor <;> simp [Impl.holds, Worker.task?, Impl.queueAt]

/-- **Index, flags, lanes and workers agree in every reachable state.** -/
theorem indexed_reachable (hs : machine.Reachable s) : Indexed s :=
  hs.invariant_with (fun _ => scheduled_reachable) (fun _ => indexed_start)
    (fun _ _ _ hsched _ => indexed_step hsched)

/-! ## No lookup fails -/

/-- `releaseQueued` finds the lane of every indexed task that no worker has taken. -/
theorem releaseQueued_total (hs : Indexed s) (hin : id ∈ s.tasks)
    (hinactive : (s.heap id).active = false) : ∃ s', s.releaseQueued id = some s' := by
  have hwait := hs.waiting id hin hinactive
  unfold Impl.queueAt at hwait
  cases hfind : s.lanes.find? (s.keyOf id) with
  | none => simp [hfind] at hwait
  | some lane =>
    have hlane : s.lanes.find? (s.heap id).work.key = some lane := hfind
    refine ⟨s.released id lane, ?_⟩
    simp only [Impl.releaseQueued, hlane]
    rfl

/-- The lane of a running task is there when its worker comes back. -/
theorem finish_total (hs : machine.Reachable s) (hw : s.workers w = .returned id) :
    ∃ s', s.finish w = some s' := by
  have hholds : s.holds w id := by simp [Impl.holds, hw, Worker.task?]
  cases hfind : s.lanes.find? (s.keyOf id) with
  | none => exact absurd rfl (((scheduled_reachable hs).absent _ hfind).2 w id hholds)
  | some lane =>
    have hlane : s.lanes.find? (s.heap id).work.key = some lane := hfind
    unfold Impl.finish
    simp only [hw, hlane, Option.bind_eq_bind, Option.bind_some]
    split <;> exact ⟨_, rfl⟩

/-! ## The executor -/

/-- What a serial FIFO executor promises about one state. -/
structure SerialFifo (s : Impl) : Prop where
  /-- At most one live task of a key is marked active. -/
  oneActive : ∀ id ∈ s.tasks, ∀ id' ∈ s.tasks, (s.heap id).active = true →
    (s.heap id').active = true → s.keyOf id = s.keyOf id' → id = id'
  /-- At most one worker is busy with a key, and the task it holds is the active one. -/
  oneWorker : ∀ w w' id id', s.holds w id → s.holds w' id' → s.keyOf id = s.keyOf id' →
    w = w' ∧ id = id'
  active : ∀ w id, s.holds w id → id ∈ s.tasks ∧ (s.heap id).active = true
  /-- A held task stays held until its worker comes back from `run()`, whatever anyone
      else does in the meantime. -/
  stays : ∀ w id a s', s.holds w id → step s a = some s' →
    s'.holds w id ∨ (a = .finish w ∧ s.workers w = .returned id)
  /-- Tasks of a key are picked in the order of their identifiers. -/
  fifo : ∀ key, (picksOf key s.log).Pairwise (· < ·)
  /-- Waiting work is either behind a running task or announced by exactly one token. -/
  announced : ∀ key lane, s.lanes.find? key = some lane → lane.queue ≠ [] →
    lane.active = true ∨ (lane.ready = true ∧ s.runnable.count key = 1)
  oneToken : ∀ key, s.runnable.count key ≤ 1
  noIdleLane : ∀ key lane, s.lanes.find? key = some lane → lane.idle = false

/-- **In every run the queue is a serial FIFO executor for each key that strands no
    work.** -/
theorem queue_serial_fifo {s : Impl} (hs : machine.Reachable s) : SerialFifo s := by
  have hsched := scheduled_reachable hs
  have hindex := indexed_reachable hs
  have hone : ∀ w w' id id', s.holds w id → s.holds w' id' → s.keyOf id = s.keyOf id' →
      w = w' ∧ id = id' := by
    intro w w' id id' hw hw' hkey
    have hww := hsched.single w w' id id' hw hw' hkey
    subst hww
    exact ⟨rfl, Option.some.inj (hw.symm.trans hw')⟩
  constructor
  · intro id hid id' hid' hactive hactive' hkey
    obtain ⟨w, hw⟩ := hindex.holder id hid hactive
    obtain ⟨w', hw'⟩ := hindex.holder id' hid' hactive'
    exact (hone w w' id id' hw hw' hkey).2
  · exact hone
  · exact hindex.held
  · intro w id a s' hw hstep
    exact holds_step hstep hw
  · exact hsched.ordered
  · intro key lane hfind hqueue
    have hlane := hsched.lane key lane hfind
    rcases hlane.served hqueue with hactive | hready
    · exact .inl hactive
    · exact .inr ⟨hready, by simp [hlane.token, hready]⟩
  · intro key
    cases hfind : s.lanes.find? key with
    | none => simp [(hsched.absent key hfind).1]
    | some lane =>
      rw [(hsched.lane key lane hfind).token]
      split <;> omega
  · intro key lane hfind
    exact (hsched.lane key lane hfind).kept

/-- Two tasks of one key, the first of which is cancelled while it runs. -/
theorem queue_serial_fifo_cancelled : ∃ s, machine.Reachable s ∧ SerialFifo s ∧
    s.tasks = [2, 1] ∧ s.workers 0 = .running 1 ∧ (s.heap 1).failed = true ∧
    s.queueAt "pv" = [2] := by
  let run : List Label := [.submit ⟨"pv", 8, 10⟩ 0, .submit ⟨"pv", 8, 20⟩ 1, .pick 0 2,
    .dispatch 0, .cancel 1]
  have hreach : ∀ s, machine.exec { limits := { workers := 2 } } run = some s →
      machine.Reachable s :=
    fun s h => ⟨_, run, ⟨_, by decide, rfl⟩, h⟩
  have hrun : (machine.exec { limits := { workers := 2 } } run).isSome = true := by decide
  obtain ⟨s, hs⟩ := Option.isSome_iff_exists.mp hrun
  refine ⟨s, hreach s hs, queue_serial_fifo (hreach s hs), ?_⟩
  cases hs
  decide

end RedisPvxsIoc.OperationQueue
