import RedisPvxsIoc.OperationQueue.LifeCycle
import Mathlib

/-!
# Accounting

The counters of the queue are kept by hand: a reservation is released when a queued task
expires or is cancelled, when a worker comes back, and at shutdown, and an entry of the timer's
index goes on each of these ways and when a running task fails.  `Books` says what the counters
stand for and how the timer's index relates to the tasks.  All releases are one rule,
`Books.remove`, all ways to fail a running task another, `Books.mark`.

## Main results

- `books_reachable`: the books are kept in every reachable state
- `queue_bookkeeping`: the counters are exact, no decrement wraps and no look-up fails
-/

namespace RedisPvxsIoc.OperationQueue

open Foundations

/-! ## Sums over the index -/

section Sums

variable {tasks : List TaskId} {id : TaskId}

/-- A task is taken out of a count, or out of a sum, that agrees on the others. -/
theorem countP_leave (h : id ∈ tasks) (hnodup : tasks.Nodup) {p q : TaskId → Bool}
    (hsame : ∀ id', id' ≠ id → p id' = q id') :
    tasks.countP q = (tasks.erase id).countP p + if q id then 1 else 0 := by
  rw [(List.perm_cons_erase h).countP_eq, List.countP_cons]
  congr 1
  refine List.countP_congr fun id' hid' => ?_
  rw [hsame id' (hnodup.mem_erase_iff.mp hid').1]

theorem sum_leave (h : id ∈ tasks) (hnodup : tasks.Nodup) {f g : TaskId → Nat}
    (hsame : ∀ id', id' ≠ id → f id' = g id') :
    (tasks.map g).sum = ((tasks.erase id).map f).sum + g id := by
  rw [((List.perm_cons_erase h).map g).sum_nat, List.map_cons, List.sum_cons, Nat.add_comm]
  congr 2
  refine List.map_congr_left fun id' hid' => ?_
  rw [hsame id' (hnodup.mem_erase_iff.mp hid').1]

end Sums

/-! ## The books -/

/-- What the counters and the timer's index stand for. -/
structure Books (s : Impl) : Prop where
  queued : s.counts.queued = s.tasks.countP fun id => !(s.heap id).active
  running : s.counts.running = s.tasks.countP fun id => (s.heap id).active
  resident : s.counts.residentBytes = (s.tasks.map fun id => (s.heap id).charge).sum
  charged : ∀ id ∈ s.tasks, (s.heap id).charge = max (s.heap id).work.bytes 256
  bounded : s.counts.residentBytes ≤ s.limits.residentBytes
  room : ∀ key, (s.queueAt key).length ≤ s.limits.queuedPerKey
  entries : ∀ e ∈ s.deadlines, e.2 ∈ s.tasks ∧ e.1 = (s.heap e.2).work.deadline ∧
    (s.heap e.2).timed = true
  once : (s.deadlines.map Prod.snd).Nodup
  timed : ∀ id ∈ s.tasks, (s.heap id).timed = true →
    ((s.heap id).work.deadline, id) ∈ s.deadlines
  live : ∀ id ∈ s.tasks, (s.heap id).failed = false → (s.heap id).timed = true

variable {s s' : Impl}

/-- Everything but the flags and the timer's index is as before. -/
structure SameTasks (s s' : Impl) : Prop where
  queued : s'.counts.queued = s.counts.queued := by rfl
  running : s'.counts.running = s.counts.running := by rfl
  resident : s'.counts.residentBytes = s.counts.residentBytes := by rfl
  tasks : s'.tasks = s.tasks := by rfl
  limits : s'.limits = s.limits := by rfl
  queue : ∀ key, s'.queueAt key = s.queueAt key := by exact fun _ => rfl

/-- The books when flags and entries change. -/
theorem SameTasks.books (h : SameTasks s s') (hs : Books s)
    (hheap : ∀ id, (s'.heap id).work = (s.heap id).work ∧
      (s'.heap id).charge = (s.heap id).charge ∧ (s'.heap id).active = (s.heap id).active)
    (hentries : ∀ e ∈ s'.deadlines, e.2 ∈ s.tasks ∧ e.1 = (s.heap e.2).work.deadline ∧
      (s'.heap e.2).timed = true)
    (honce : (s'.deadlines.map Prod.snd).Nodup)
    (htimed : ∀ id ∈ s.tasks, (s'.heap id).timed = true →
      ((s.heap id).work.deadline, id) ∈ s'.deadlines)
    (hlive : ∀ id ∈ s.tasks, (s'.heap id).failed = false → (s'.heap id).timed = true) :
    Books s' := by
  refine ⟨?_, ?_, ?_, ?_, ?_, ?_, ?_, honce, ?_, ?_⟩ <;> simp only [h.queued, h.running,
    h.resident, h.tasks, h.limits, h.queue, (hheap _).1, (hheap _).2.1, (hheap _).2.2]
  · exact hs.queued
  · exact hs.running
  · exact hs.resident
  · exact hs.charged
  · exact hs.bounded
  · exact hs.room
  · exact hentries
  · exact htimed
  · exact hlive

/-- Steps that the books do not notice. -/
theorem SameTasks.keeps (h : SameTasks s s') (hs : Books s) (hheap : s'.heap = s.heap)
    (hdeadlines : s'.deadlines = s.deadlines) : Books s' := by
  refine h.books hs (fun _ => by simp [hheap]) ?_ ?_ ?_ ?_ <;> simp only [hheap, hdeadlines]
  · exact hs.entries
  · exact hs.once
  · exact hs.timed
  · exact hs.live

section Rules

variable {s s' : Impl} {id : TaskId}

/-- Erasing the entry of a task removes all that the timer knows of it. -/
theorem Books.mem_erase (hs : Books s) (e : Time × TaskId) :
    e ∈ s.deadlines.erase ((s.heap id).work.deadline, id) ↔ e ∈ s.deadlines ∧ e.2 ≠ id := by
  have hnodup : s.deadlines.Nodup := List.Nodup.of_map Prod.snd hs.once
  rw [hnodup.mem_erase_iff, and_comm]
  refine and_congr_right fun he => ?_
  constructor
  · rintro hne rfl
    exact hne (Prod.ext (hs.entries e he).2.1 rfl)
  · rintro hne rfl
    exact hne rfl

/-- The entry of a task that is not timed is not there. -/
theorem Books.mem_untimed (hs : Books s) (huntimed : (s.heap id).timed = false)
    (e : Time × TaskId) : e ∈ s.deadlines ↔ e ∈ s.deadlines ∧ e.2 ≠ id := by
  refine ⟨fun he => ⟨he, ?_⟩, fun he => he.1⟩
  rintro rfl
  rw [(hs.entries e he).2.2] at huntimed
  cases huntimed

/-- **A task leaves the index**, with its entry and its reservation. -/
theorem Books.remove (hs : Books s) (hnodup : s.tasks.Nodup) (hid : id ∈ s.tasks)
    (htasks : s'.tasks = s.tasks.erase id)
    (hheap : ∀ id', id' ≠ id → s'.heap id' = s.heap id')
    (hqueued : s'.counts.queued =
      if (s.heap id).active then s.counts.queued else s.counts.queued - 1)
    (hrunning : s'.counts.running =
      if (s.heap id).active then s.counts.running - 1 else s.counts.running)
    (hresident : s'.counts.residentBytes = s.counts.residentBytes - (s.heap id).charge)
    (hlimits : s'.limits = s.limits)
    (hmem : ∀ e, e ∈ s'.deadlines ↔ e ∈ s.deadlines ∧ e.2 ≠ id)
    (hsub : s'.deadlines.Sublist s.deadlines)
    (hqueue : ∀ key, (s'.queueAt key).length ≤ (s.queueAt key).length) : Books s' := by
  have hin : ∀ id', id' ∈ s'.tasks ↔ id' ≠ id ∧ id' ∈ s.tasks := by
    intro id'
    rw [htasks]
    exact hnodup.mem_erase_iff
  constructor
  · rw [htasks, hqueued, hs.queued, countP_leave hid hnodup (p := fun id' => !(s'.heap id').active)
      fun id' hne => by rw [hheap id' hne]]
    cases (s.heap id).active <;> simp
  · rw [htasks, hrunning, hs.running, countP_leave hid hnodup (p := fun id' => (s'.heap id').active)
      fun id' hne => by rw [hheap id' hne]]
    cases (s.heap id).active <;> simp
  · rw [htasks, hresident, hs.resident, sum_leave hid hnodup (f := fun id' => (s'.heap id').charge)
      fun id' hne => by rw [hheap id' hne], Nat.add_sub_cancel]
  · intro id' hid'
    obtain ⟨hne, hold⟩ := (hin id').mp hid'
    rw [hheap id' hne]
    exact hs.charged id' hold
  · rw [hresident, hlimits]
    exact (Nat.sub_le _ _).trans hs.bounded
  · intro key
    rw [hlimits]
    exact (hqueue key).trans (hs.room key)
  · intro e he
    obtain ⟨hold, hne⟩ := (hmem e).mp he
    obtain ⟨htask, hdeadline, htimed⟩ := hs.entries e hold
    rw [hheap e.2 hne]
    exact ⟨(hin e.2).mpr ⟨hne, htask⟩, hdeadline, htimed⟩
  · exact (hsub.map Prod.snd).nodup hs.once
  · intro id' hid' htimed
    obtain ⟨hne, hold⟩ := (hin id').mp hid'
    rw [hheap id' hne] at htimed ⊢
    exact (hmem _).mpr ⟨hs.timed id' hold htimed, hne⟩
  · intro id' hid' hfailed
    obtain ⟨hne, hold⟩ := (hin id').mp hid'
    rw [hheap id' hne] at hfailed ⊢
    exact hs.live id' hold hfailed

/-- **A task that has failed is no longer timed** but stays in the index. -/
theorem Books.mark (hs : Books s) (id : TaskId) (h : SameTasks s s')
    (hheap : s'.heap = (s.expireTask id).heap)
    (hdeadlines : s'.deadlines = (s.expireTask id).deadlines) : Books s' := by
  have hid : s'.heap id = { s.heap id with failed := true, timed := false } := by
    rw [hheap]
    exact Function.update_self _ _ _
  have hother : ∀ id', id' ≠ id → s'.heap id' = s.heap id' := by
    intro id' hne
    rw [hheap]
    exact Function.update_of_ne hne _ _
  have hmem : ∀ e, e ∈ s'.deadlines ↔ e ∈ s.deadlines ∧ e.2 ≠ id := by
    intro e
    rw [hdeadlines]
    exact hs.mem_erase e
  have hentries := hs.entries
  have htimed := hs.timed
  have hlive := hs.live
  refine h.books hs ?_ (by grind) ?_ ?_ ?_
  · intro id'
    by_cases hne : id' = id
    · rw [hne, hid]
      exact ⟨rfl, rfl, rfl⟩
    · rw [hother id' hne]
      exact ⟨rfl, rfl, rfl⟩
  · rw [hdeadlines]
    exact (List.erase_sublist.map Prod.snd).nodup hs.once
  · intro id' hid' htimed'
    rw [hmem]
    grind
  · grind

end Rules

/-! ## Preservation -/

variable {id : TaskId}

theorem mem_insertDeadline {deadline : Time} {l : List (Time × TaskId)} {e : Time × TaskId} :
    e ∈ insertDeadline deadline id l ↔ e = (deadline, id) ∨ e ∈ l := by
  induction l with
  | nil => simp [insertDeadline]
  | cons entry rest ih =>
    unfold insertDeadline
    split
    · simp
    · simp only [List.mem_cons, ih]
      tauto

theorem nodup_insertDeadline {deadline : Time} {l : List (Time × TaskId)}
    (hnew : id ∉ l.map Prod.snd) (h : (l.map Prod.snd).Nodup) :
    ((insertDeadline deadline id l).map Prod.snd).Nodup := by
  induction l with
  | nil => simp [insertDeadline]
  | cons entry rest ih =>
    obtain ⟨hhead, htail⟩ := List.nodup_cons.mp h
    rw [List.map_cons, List.mem_cons, not_or] at hnew
    unfold insertDeadline
    split
    · exact List.nodup_cons.mpr ⟨by simpa using hnew, h⟩
    · refine List.nodup_cons.mpr ⟨?_, ih hnew.2 htail⟩
      intro hmem
      obtain ⟨e, he, heq⟩ := List.mem_map.mp hmem
      rcases mem_insertDeadline.mp he with rfl | hold
      · exact hnew.1 heq
      · exact hhead (heq ▸ List.mem_map_of_mem (f := Prod.snd) hold)

theorem books_accept (hs : Books s) (hindex : Indexed s) (work : Work)
    (hroom : (s.queueAt work.key).length < s.limits.queuedPerKey)
    (hbytes : max work.bytes 256 ≤ s.limits.residentBytes - s.counts.residentBytes) :
    Books (s.accept work ((s.lanes.find? work.key).getD {})) := by
  set s' := s.accept work ((s.lanes.find? work.key).getD {}) with hs'
  have htasks : s'.tasks = (s.nextId + 1) :: s.tasks := by simp [hs', Impl.accept]
  have hheap : s'.heap = Function.update s.heap (s.nextId + 1)
      { work := work, charge := max work.bytes 256 } := by simp [hs', Impl.accept]
  have hdeadlines : s'.deadlines = insertDeadline work.deadline (s.nextId + 1) s.deadlines := by
    simp [hs', Impl.accept]
  have hcounts : s'.counts.queued = s.counts.queued + 1 ∧ s'.counts.running = s.counts.running ∧
      s'.counts.residentBytes = s.counts.residentBytes + max work.bytes 256 := by
    simp [hs', Impl.accept]
  have hlimits : s'.limits = s.limits := by simp [hs', Impl.accept]
  have hqueue : ∀ key, s'.queueAt key =
      if key = work.key then s.queueAt key ++ [s.nextId + 1] else s.queueAt key :=
    queueAt_accept s work
  have hfresh : s.nextId + 1 ∉ s.tasks := fun hmem => Nat.lt_irrefl _ (hindex.known _ hmem)
  have hold : ∀ id ∈ s.tasks, s'.heap id = s.heap id := by
    intro id hid
    rw [hheap, Function.update_of_ne]
    rintro rfl
    exact hfresh hid
  have hnew : s'.heap (s.nextId + 1) = { work := work, charge := max work.bytes 256 } := by
    rw [hheap, Function.update_self]
  constructor
  · rw [hcounts.1, htasks, List.countP_cons, hnew, hs.queued]
    congr 1
    exact List.countP_congr fun id hid => by rw [hold id hid]
  · rw [hcounts.2.1, htasks, List.countP_cons, hnew, hs.running]
    exact List.countP_congr fun id hid => by rw [hold id hid]
  · rw [hcounts.2.2, htasks, List.map_cons, List.sum_cons, hnew, hs.resident, Nat.add_comm]
    congr 2
    exact List.map_congr_left fun id hid => by rw [hold id hid]
  · rw [htasks, List.forall_mem_cons, hnew]
    exact ⟨rfl, fun id hid => hold id hid ▸ hs.charged id hid⟩
  · rw [hcounts.2.2, hlimits]
    have := hs.bounded
    omega
  · intro key
    have hbefore := hs.room key
    rw [hqueue, hlimits]
    grind
  · intro e he
    rw [hdeadlines] at he
    rw [htasks]
    rcases mem_insertDeadline.mp he with rfl | he
    · rw [hnew]
      exact ⟨List.mem_cons_self, rfl, rfl⟩
    · obtain ⟨htask, hrest⟩ := hs.entries e he
      rw [hold e.2 htask]
      exact ⟨List.mem_cons_of_mem _ htask, hrest⟩
  · rw [hdeadlines]
    refine nodup_insertDeadline ?_ hs.once
    intro hmem
    obtain ⟨e, he, heq⟩ := List.mem_map.mp hmem
    exact hfresh (heq ▸ (hs.entries e he).1)
  · rw [htasks, List.forall_mem_cons, hnew, hdeadlines]
    refine ⟨fun _ => mem_insertDeadline.mpr (.inl rfl), fun id hid htimed => ?_⟩
    rw [hold id hid] at htimed ⊢
    exact mem_insertDeadline.mpr (.inr (hs.timed id hid htimed))
  · rw [htasks, List.forall_mem_cons, hnew]
    exact ⟨fun _ => rfl, fun id hid => hold id hid ▸ hs.live id hid⟩

variable {lane : Lane}

/-- A queued task is marked and released in one section. -/
theorem books_released {t : Impl} (hs : Books s) (hindex : Indexed s) (hid : id ∈ s.tasks)
    (hinactive : (s.heap id).active = false)
    (hmark : t.heap = (s.expireTask id).heap ∧ t.deadlines = (s.expireTask id).deadlines ∧
      t.tasks = s.tasks ∧ t.limits = s.limits ∧ t.lanes = s.lanes ∧
      t.counts.queued = s.counts.queued ∧ t.counts.running = s.counts.running ∧
      t.counts.residentBytes = s.counts.residentBytes)
    (hfind : t.lanes.find? (t.keyOf id) = some lane) : Books (t.released id lane) := by
  obtain ⟨hheap, hdeadlines, htasks, hlimits, hlanes, hqueued, hrunning, hresident⟩ := hmark
  have hcharge : (t.heap id).charge = (s.heap id).charge := by simp [hheap, Impl.expireTask]
  refine hs.remove hindex.nodup hid ?_ ?_ ?_ ?_ ?_ hlimits ?_ ?_ ?_
  · exact congrArg (List.erase · id) htasks
  · intro id' hne
    show t.heap id' = _
    rw [hheap]
    exact Function.update_of_ne hne _ _
  · rw [hinactive, ← hqueued]
    rfl
  · rw [hinactive, ← hrunning]
    rfl
  · rw [← hresident, ← hcharge]
    rfl
  · intro e
    show e ∈ t.deadlines ↔ _
    rw [hdeadlines]
    exact hs.mem_erase e
  · show t.deadlines.Sublist _
    rw [hdeadlines]
    exact List.erase_sublist
  · intro key
    have hsame : t.queueAt key = s.queueAt key := by simp [Impl.queueAt, hlanes]
    rw [queueAt_released hfind, ← hsame]
    split
    · exact List.length_erase_le
    · exact le_refl _

theorem books_take (hs : Books s) (hindex : Indexed s) {key : Key}
    (hfind : s.lanes.find? key = some lane) {rest : List TaskId} (hlane : lane.queue = id :: rest)
    (runnable : List Key) (w : Nat) (now : Time) :
    Books ({ s with runnable := runnable }.take w key id rest now) := by
  have hqueueKey : s.queueAt key = id :: rest := (queueAt_of_find? hfind).trans hlane
  obtain ⟨hid, hinactive⟩ := hindex.queued key id (by simp [hqueueKey])
  set s' := { s with runnable := runnable }.take w key id rest now with hs'
  have hother : ∀ id', id' ≠ id → s'.heap id' = s.heap id' := fun id' hne =>
    Function.update_of_ne hne _ _
  have hself : s'.heap id = { s.heap id with
      active := true, failed := (s.heap id).failed || decide ((s.heap id).work.deadline ≤ now) } :=
    Function.update_self _ _ _
  have hfields : ∀ id', (s'.heap id').charge = (s.heap id').charge ∧
      (s'.heap id').work = (s.heap id').work ∧ (s'.heap id').timed = (s.heap id').timed := by
    intro id'
    by_cases hne : id' = id
    · rw [hne, hself]
      exact ⟨rfl, rfl, rfl⟩
    · rw [hother id' hne]
      exact ⟨rfl, rfl, rfl⟩
  -- the task leaves one count and enters the other
  have hcount : ∀ p : Task → Bool, s.tasks.countP (fun id' => p (s'.heap id')) +
      (if p (s.heap id) then 1 else 0) = s.tasks.countP (fun id' => p (s.heap id')) +
      if p (s'.heap id) then 1 else 0 := by
    intro p
    have hbefore := countP_leave hid hindex.nodup (p := fun id' => p (s.heap id')) fun _ _ => rfl
    have hafter := countP_leave hid hindex.nodup (p := fun id' => p (s.heap id'))
      (q := fun id' => p (s'.heap id')) fun id' hne => by rw [hother id' hne]
    omega
  constructor
  · have hqueued := hcount fun task => !task.active
    simp only [hself, hinactive] at hqueued
    show s.counts.queued - 1 = s.tasks.countP _
    rw [hs.queued]
    simp at hqueued
    omega
  · have hrunning := hcount Task.active
    simp only [hself, hinactive] at hrunning
    show s.counts.running + 1 = s.tasks.countP _
    rw [hs.running]
    simp at hrunning
    omega
  · show s.counts.residentBytes = (s.tasks.map _).sum
    rw [hs.resident]
    exact congrArg List.sum (List.map_congr_left fun id' _ => (hfields id').1.symm)
  · intro id' hid'
    rw [(hfields id').1, (hfields id').2.1]
    exact hs.charged id' hid'
  · exact hs.bounded
  · intro key'
    have hqueue : s'.queueAt key' = if key' = key then rest else s.queueAt key' :=
      queueAt_insert s key { active := true, ready := false, queue := rest } key'
    rw [hqueue]
    split
    · have hroom := hs.room key
      rw [hqueueKey] at hroom
      exact (Nat.le_succ _).trans hroom
    · exact hs.room key'
  · intro e he
    rw [(hfields e.2).2.1, (hfields e.2).2.2]
    exact hs.entries e he
  · exact hs.once
  · intro id' hid' htimed
    rw [(hfields id').2.2] at htimed
    rw [(hfields id').2.1]
    exact hs.timed id' hid' htimed
  · intro id' hid' hfailed
    rw [(hfields id').2.2]
    refine hs.live id' hid' ?_
    by_cases hne : id' = id
    · subst hne
      rw [hself] at hfailed
      exact (Bool.or_eq_false_iff.mp hfailed).1
    · rw [← hother id' hne]
      exact hfailed

theorem books_finished (hs : Books s) (hindex : Indexed s) {w : Nat}
    (hworker : s.workers w = .returned id) (hfind : s.lanes.find? (s.keyOf id) = some lane) :
    Books (s.finished w id lane) := by
  have hw : s.holds w id := by simp [Impl.holds, hworker, Worker.task?]
  obtain ⟨hid, hactive⟩ := hindex.held w id hw
  have hqueue := queueAt_finished w hfind
  obtain ⟨lanes, runnable, heq⟩ := s.finished_eq w id lane
  rw [heq] at hqueue ⊢
  refine hs.remove hindex.nodup hid rfl (fun _ _ => rfl) ?_ ?_ rfl rfl ?_ ?_ fun key => ?_
  · rw [hactive]
    rfl
  · rw [hactive]
    rfl
  · intro e
    show e ∈ (if (s.heap id).timed then _ else _) ↔ _
    split
    · exact hs.mem_erase e
    · rename_i htimed
      exact hs.mem_untimed (by simpa using htimed) e
  · show (if (s.heap id).timed then _ else _ : List (Time × TaskId)).Sublist _
    split
    · exact List.erase_sublist
    · exact List.Sublist.refl _
  · rw [hqueue]

theorem books_start (h : machine.start s) : Books s := by
  obtain ⟨limits, -, rfl⟩ := h
  constructor <;> simp [Impl.queueAt]

theorem books_step {a : Label} (hsched : Scheduled s) (hindex : Indexed s) (hs : Books s)
    (h : step s a = some s') : Books s' := by
  cases step_cases h
  case turnedAway hqueued hrunning hresident _ =>
    exact SameTasks.keeps ⟨hqueued, hrunning, hresident, rfl, rfl, fun _ => rfl⟩ hs rfl rfl
  case accepted work now _ hroom hbytes =>
    refine books_accept hs hindex work ?_ hbytes
    unfold Impl.queueAt
    cases hfind : s.lanes.find? work.key <;> simpa [hfind] using hroom
  case marked | expiring => exact hs.mark _ {} rfl rfl
  case withdrawn hid _ hinactive hfind | dropped hid _ hinactive hfind =>
    exact books_released hs hindex hid hinactive ⟨rfl, rfl, rfl, rfl, rfl, rfl, rfl, rfl⟩ hfind
  case untimed deadline now id rest hdeadlines hfailed _ =>
    -- the entry at the front is the one of this task
    have hdeadline : deadline = (s.heap id).work.deadline :=
      (hs.entries (deadline, id) (by simp [hdeadlines])).2.1
    have hrest : rest = (s.expireTask id).deadlines := by
      simp [Impl.expireTask, hdeadlines, hdeadline]
    have htask : { s.heap id with timed := false } =
        { s.heap id with failed := true, timed := false } := by rw [← hfailed]
    exact hs.mark id {} (congrArg (Function.update s.heap id) htask) hrest
  case emptied hfront hfind hempty =>
    have hqueue := queueAt_dropToken hsched hfront hfind hempty
    rw [hsched.dropToken_eq hfront hfind] at hqueue ⊢
    exact SameTasks.keeps { queue := hqueue } hs rfl rfl
  case taken w now _ _ _ _ hfind hqueue => exact books_take hs hindex hfind hqueue _ w now
  case finished hworker hfind => exact books_finished hs hindex hworker hfind
  case stop =>
    -- only flags are set
    have hheap : ∀ id, (if id ∈ s.tasks then { s.heap id with failed := true } else s.heap id) =
        { s.heap id with failed := if id ∈ s.tasks then true else (s.heap id).failed } := by
      intro id
      split <;> rfl
    refine SameTasks.books (s := s) {} hs (fun _ => by simp [hheap]) ?_ hs.once ?_ ?_ <;>
      simp only [hheap]
    · exact hs.entries
    · exact hs.timed
    · simp +contextual
  case stopJoin => constructor <;> simp [Impl.queueAt]
  all_goals exact SameTasks.keeps (s := s) {} hs rfl rfl

/-- **The books are kept in every reachable state.** -/
theorem books_reachable (hs : machine.Reachable s) : Books s :=
  hs.invariant_with (I := fun s => Scheduled s ∧ Indexed s)
    (fun _ h => ⟨scheduled_reachable h, indexed_reachable h⟩) (fun _ => books_start)
    (fun _ _ _ hinv _ => books_step hinv.1 hinv.2)

/-! ## The lanes -/

/-- The tasks in all lanes are the indexed tasks that no worker has taken. -/
theorem length_lanes (hsched : Scheduled s) (hindex : Indexed s) :
    (s.lanes.entries.map fun entry => entry.2.queue.length).sum =
      s.tasks.countP fun id => !(s.heap id).active := by
  have hentry : ∀ entry ∈ s.lanes.entries, s.queueAt entry.1 = entry.2.queue := fun entry he =>
    queueAt_of_find? ((FinMap.mem_entries _).mp he)
  rw [List.countP_eq_length_filter, ← List.length_flatMap]
  refine List.Perm.length_eq ((List.perm_ext_iff_of_nodup ?_ (hindex.nodup.filter _)).mpr ?_)
  · rw [List.nodup_flatMap]
    refine ⟨?_, ?_⟩
    · intro entry he
      rw [← hentry entry he]
      exact (hsched.queue_sorted entry.1).1.imp fun hlt => Nat.ne_of_lt hlt
    · -- a task waits in the lane of its key only
      have hkeys : s.lanes.entries.Pairwise fun e e' => e.1 ≠ e'.1 :=
        List.pairwise_map.mp s.lanes.keys_nodup
      refine hkeys.imp_of_mem ?_
      intro e e' he he' hne id hid hid'
      replace hid : id ∈ s.queueAt e.1 := hentry e he ▸ hid
      replace hid' : id ∈ s.queueAt e'.1 := hentry e' he' ▸ hid'
      exact hne (((hsched.queue_sorted e.1).2 id hid).symm.trans
        ((hsched.queue_sorted e'.1).2 id hid'))
  · intro id
    rw [List.mem_flatMap, List.mem_filter]
    constructor
    · rintro ⟨entry, he, hid⟩
      rw [← hentry entry he] at hid
      obtain ⟨hmem, hinactive⟩ := hindex.queued entry.1 id hid
      exact ⟨hmem, by simp [hinactive]⟩
    · rintro ⟨hmem, hinactive⟩
      have hwait := hindex.waiting id hmem (by simpa using hinactive)
      unfold Impl.queueAt at hwait
      cases hfind : s.lanes.find? (s.keyOf id) with
      | none => simp [hfind] at hwait
      | some lane =>
        rw [hfind] at hwait
        exact ⟨(s.keyOf id, lane), (FinMap.mem_entries _).mpr hfind, hwait⟩

/-! ## The high-water mark -/

/-- Only an accepted submission adds to the resident bytes, and it raises the mark. -/
theorem peak_step {a : Label} (hle : s.counts.residentBytes ≤ s.counts.peakBytes)
    (h : step s a = some s') :
    s'.counts.peakBytes = max s.counts.peakBytes s'.counts.residentBytes := by
  have hless : ∀ {t : Impl}, t.counts.peakBytes = s.counts.peakBytes →
      t.counts.residentBytes ≤ s.counts.residentBytes →
      t.counts.peakBytes = max s.counts.peakBytes t.counts.residentBytes := by
    intro t hpeak hresident
    rw [hpeak, max_eq_left (hresident.trans hle)]
  cases step_cases h
  case accepted => simp [Impl.accept]
  case turnedAway hresident hpeak => exact hless hpeak hresident.le
  case emptied =>
    unfold Impl.dropToken
    split <;> exact hless rfl (le_refl _)
  case finished w id lane _ _ =>
    obtain ⟨lanes, runnable, heq⟩ := s.finished_eq w id lane
    rw [heq]
    exact hless rfl (Nat.sub_le _ _)
  case withdrawn => exact hless rfl (Nat.sub_le _ _)
  case dropped => exact hless rfl (Nat.sub_le _ _)
  case stopJoin => exact hless rfl (Nat.zero_le _)
  all_goals exact hless rfl (le_refl _)

/-! ## Exact bookkeeping -/

/-- The bookkeeping of the queue at the end of the run `as` from `s₀`. -/
structure Bookkeeping (s₀ : Impl) (as : List Label) (s : Impl) : Prop where
  queued : s.counts.queued = (s.lanes.entries.map fun entry => entry.2.queue.length).sum
  running : s.counts.running = s.tasks.countP fun id => (s.heap id).active
  residentBytes : s.counts.residentBytes = (s.tasks.map fun id => (s.heap id).charge).sum
  charge : ∀ id ∈ s.tasks, (s.heap id).charge = max (s.heap id).work.bytes 256
  bounded : s.counts.residentBytes ≤ s.limits.residentBytes
  peakBytes : IsGreatest {b | ∃ u ∈ machine.states s₀ as, u.counts.residentBytes = b}
    s.counts.peakBytes
  queuedPerKey : ∀ key lane, s.lanes.find? key = some lane →
    lane.queue.length ≤ s.limits.queuedPerKey
  /-- The look-up `tasks.at` of the timer succeeds. -/
  deadlines : ∀ entry ∈ s.deadlines, entry.2 ∈ s.tasks
  timedOnce : ∀ id ∈ s.tasks, (s.heap id).failed = false → (s.deadlines.map Prod.snd).count id = 1
  /-- Neither the decrements nor the look-up of `releaseQueued` fail. -/
  release : ∀ id ∈ s.tasks, (s.heap id).active = false → 1 ≤ s.counts.queued ∧
    (s.heap id).charge ≤ s.counts.residentBytes ∧ ∃ lane, s.lanes.find? (s.keyOf id) = some lane
  /-- A worker that takes a task decrements `queued`. -/
  take : ∀ key lane, s.lanes.find? key = some lane → lane.queue ≠ [] → 1 ≤ s.counts.queued
  /-- Neither the decrements nor the look-up of a worker that comes back fail. -/
  finish : ∀ w id, s.workers w = .returned id → 1 ≤ s.counts.running ∧
    (s.heap id).charge ≤ s.counts.residentBytes ∧ ∃ lane, s.lanes.find? (s.keyOf id) = some lane
  /-- Once a call of `shutdown()` has returned. -/
  shutdown : ∀ u ∈ machine.states s₀ as, u.shutdown = .returned →
    s.counts.queued = 0 ∧ s.counts.running = 0 ∧ s.counts.residentBytes = 0

/-- **The bookkeeping is exact in every run.** -/
theorem queue_bookkeeping {s₀ s : Impl} {as : List Label} (hstart : machine.start s₀)
    (hrun : machine.exec s₀ as = some s) : Bookkeeping s₀ as s := by
  have hreach : machine.Reachable s := ⟨s₀, as, hstart, hrun⟩
  have hsched := scheduled_reachable hreach
  have hindex := indexed_reachable hreach
  have hbooks := books_reachable hreach
  have hcharge : ∀ id ∈ s.tasks, (s.heap id).charge ≤ s.counts.residentBytes := by
    intro id hid
    rw [hbooks.resident, sum_leave hid hindex.nodup fun _ _ => rfl]
    exact Nat.le_add_left _ _
  have hwaiting : ∀ id ∈ s.tasks, (s.heap id).active = false → 1 ≤ s.counts.queued := by
    intro id hid hinactive
    rw [hbooks.queued]
    exact List.countP_pos_iff.mpr ⟨id, hid, by simp [hinactive]⟩
  refine ⟨?_, hbooks.running, hbooks.resident, hbooks.charged, hbooks.bounded, ?_, ?_,
    fun entry he => (hbooks.entries entry he).1, ?_, ?_, ?_, ?_, ?_⟩
  · rw [hbooks.queued, length_lanes hsched hindex]
  · refine machine.peak_isGreatest (fun s => s.counts.residentBytes)
      (fun s => s.counts.peakBytes) (fun _ _ _ => peak_step) ?_ hrun
    obtain ⟨limits, -, rfl⟩ := hstart
    rfl
  · intro key lane hfind
    rw [← queueAt_of_find? hfind]
    exact hbooks.room key
  · intro id hid hfailed
    have hentry := hbooks.timed id hid (hbooks.live id hid hfailed)
    exact List.count_eq_one_of_mem hbooks.once (List.mem_map_of_mem (f := Prod.snd) hentry)
  · intro id hid hinactive
    obtain ⟨t, ht⟩ := releaseQueued_total hindex hid hinactive
    obtain ⟨lane, hfind, -⟩ := Impl.releaseQueued_cases ht
    exact ⟨hwaiting id hid hinactive, hcharge id hid, lane, hfind⟩
  · intro key lane hfind hqueue
    obtain ⟨id, rest, hcons⟩ := List.exists_cons_of_ne_nil hqueue
    have hmem : id ∈ s.queueAt key := by simp [queueAt_of_find? hfind, hcons]
    obtain ⟨hid, hinactive⟩ := hindex.queued key id hmem
    exact hwaiting id hid hinactive
  · intro w id hworker
    have hheld : s.holds w id := by simp [Impl.holds, hworker, Worker.task?]
    obtain ⟨hid, hactive⟩ := hindex.held w id hheld
    obtain ⟨t, ht⟩ := finish_total hreach hworker
    cases finish_cases ht with
    | @finished _ id' lane hworker' hfind =>
      cases hworker.symm.trans hworker'
      refine ⟨?_, hcharge id hid, lane, hfind⟩
      rw [hbooks.running]
      exact List.countP_pos_iff.mpr ⟨id, hid, hactive⟩
  · intro u hu hreturned
    obtain ⟨bs, cs, -, hbs, hcs⟩ := machine.exec_of_mem_states hrun hu
    have hreachU : machine.Reachable u := ⟨s₀, bs, hstart, hbs⟩
    have hjoined := joined_exec hreachU ((lifeOk_reachable hreachU).joined hreturned) hcs
    -- no task is held and none waits, so the index is empty
    have hempty : s.tasks = [] := by
      refine List.eq_nil_iff_forall_not_mem.mpr fun id hid => ?_
      cases hactive : (s.heap id).active with
      | true =>
        obtain ⟨w, hw⟩ := hindex.holder id hid hactive
        exact hjoined.free w id hw
      | false => exact hjoined.empty id ⟨_, hindex.waiting id hid hactive⟩
    rw [hbooks.queued, hbooks.running, hbooks.resident, hempty]
    exact ⟨rfl, rfl, rfl⟩

/-- Three submissions, one too large; the mark stays when a task is cancelled. -/
theorem queue_bookkeeping_cancelled : ∃ s, machine.exec { limits := { residentBytes := 600 } }
      [.submit ⟨"a", 8, 10⟩ 0, .submit ⟨"b", 300, 20⟩ 1, .submit ⟨"a", 8, 30⟩ 1, .cancel 2] = some s ∧
    Bookkeeping { limits := { residentBytes := 600 } }
      [.submit ⟨"a", 8, 10⟩ 0, .submit ⟨"b", 300, 20⟩ 1, .submit ⟨"a", 8, 30⟩ 1, .cancel 2] s ∧
    s.counts.residentBytes = 256 ∧ s.counts.peakBytes = 556 ∧ s.counts.overloaded = 1 := by
  have hrun : (machine.exec { limits := { residentBytes := 600 } } [.submit ⟨"a", 8, 10⟩ 0,
    .submit ⟨"b", 300, 20⟩ 1, .submit ⟨"a", 8, 30⟩ 1, .cancel 2]).isSome = true := by decide
  obtain ⟨s, hs⟩ := Option.isSome_iff_exists.mp hrun
  refine ⟨s, hs, queue_bookkeeping ⟨_, by decide, rfl⟩ hs, ?_⟩
  cases hs
  decide

end RedisPvxsIoc.OperationQueue
