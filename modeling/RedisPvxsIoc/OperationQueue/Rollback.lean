import RedisPvxsIoc.OperationQueue.Accounting

/-!
# Submissions That Run Out of Memory

`OperationQueue::submit` inserts the new task into four structures and may push a token, and
each of these allocations can throw.  The handler undoes what was done so far.  `submitThrows`
follows the function up to the allocation that fails and then through the handler.

## Main results

- `submitThrows_restores`
-/

namespace RedisPvxsIoc.OperationQueue

open Foundations

/-- The allocations of `submit`, in their order. -/
inductive Allocation where
  | lane
  | queue
  | deadline
  | task
  | token
  deriving DecidableEq, Repr

/-- `submit` inside its `try`, with the flags that the handler looks at. -/
structure Attempt where
  impl : Impl
  queuedTask : Bool := false
  timedTask : Bool := false

namespace Impl

/-- The insertions into the lane, the deadlines and the tasks before `failing`.  The token comes
    last, and `ready` marks the lane only when it has been pushed. -/
def insertions (s : Impl) (work : Work) (id : TaskId) (lane : Lane) (failing : Allocation) :
    Attempt :=
  if failing = .queue then { impl := { s with lanes := s.lanes.insert work.key lane } }
  else
    let s := { s with lanes := s.lanes.insert work.key { lane with queue := lane.queue ++ [id] } }
    if failing = .deadline then { impl := s, queuedTask := true }
    else
      let s := { s with deadlines := insertDeadline work.deadline id s.deadlines }
      if failing = .task then { impl := s, queuedTask := true, timedTask := true }
      else { impl := { s with tasks := id :: s.tasks }, queuedTask := true, timedTask := true }

end Impl

/-- The handler. -/
def Attempt.rollback (a : Attempt) (work : Work) (id : TaskId) : Option Impl := do
  let s := a.impl
  let lane ← s.lanes.find? work.key
  let lane := if a.queuedTask then { lane with queue := lane.queue.erase id } else lane
  return { s with
    tasks := s.tasks.erase id
    deadlines := if a.timedTask then s.deadlines.erase (work.deadline, id) else s.deadlines
    lanes := if lane.idle then s.lanes.erase work.key else s.lanes.insert work.key lane }

/-- Whether `submit` makes this allocation: the lane only if there is none, the token only if
    the lane is neither active nor announced. -/
def Allocation.made (lane? : Option Lane) : Allocation → Bool
  | .lane => lane?.isNone
  | .token => lane?.all fun lane => !lane.active && !lane.ready
  | _ => true

/-- `submit` accepts the work and makes this allocation. -/
def Impl.allocates (s : Impl) (work : Work) (now : Time) (failing : Allocation) : Bool :=
  let found := s.lanes.find? work.key
  !s.stopped && now < work.deadline && (found.getD {}).queue.length < s.limits.queuedPerKey &&
    max work.bytes 256 ≤ s.limits.residentBytes - s.counts.residentBytes && failing.made found

/-- `submit` when `failing` throws; `none` if it does not come to that. -/
def Impl.submitThrows (s : Impl) (work : Work) (now : Time) (failing : Allocation) :
    Option Impl :=
  if s.allocates work now failing then
    let id := s.nextId + 1
    let lane := (s.lanes.find? work.key).getD {}
    let s := { s with nextId := id }
    -- the lane is created outside the `try`
    if failing = .lane then some s
    else (s.insertions work id lane failing).rollback work id
  else none

variable {s : Impl} {work : Work} {now : Time} {failing : Allocation}

theorem erase_insertDeadline {deadline : Time} {id : TaskId} {l : List (Time × TaskId)}
    (h : (deadline, id) ∉ l) : (insertDeadline deadline id l).erase (deadline, id) = l := by
  induction l with
  | nil => simp [insertDeadline]
  | cons e l ih => grind [insertDeadline]

/-- Writing the lane back, or erasing it if it was not there, restores the lanes. -/
theorem lanes_restored (hs : Scheduled s) {key : Key} (lanes : FinMap Key Lane)
    (hother : ∀ k ≠ key, lanes.find? k = s.lanes.find? k) :
    (if ((s.lanes.find? key).getD {}).idle then lanes.erase key
      else lanes.insert key ((s.lanes.find? key).getD {})) = s.lanes := by
  apply FinMap.ext_find?
  intro k
  cases hfind : s.lanes.find? key with
  | none =>
    rw [Option.getD_none, if_pos (by rfl), FinMap.find?_erase]
    split
    · rw [‹k = key›, hfind]
    · exact hother k ‹_›
  | some lane =>
    rw [Option.getD_some, if_neg (by simp [(hs.lane key lane hfind).kept]), FinMap.find?_insert]
    split
    · rw [‹k = key›, hfind]
    · exact hother k ‹_›

theorem rollback_insertions (hi : Indexed s) (hs : Scheduled s) (hb : Books s) :
    (({ s with nextId := s.nextId + 1 } : Impl).insertions work (s.nextId + 1)
      ((s.lanes.find? work.key).getD {}) failing).rollback work (s.nextId + 1) =
      some { s with nextId := s.nextId + 1 } := by
  have hnew : s.nextId + 1 ∉ s.tasks := fun h => Nat.not_succ_le_self _ (hi.known _ h)
  have hdeadline : (work.deadline, s.nextId + 1) ∉ s.deadlines := fun h => hnew (hb.entries _ h).1
  have hqueue : s.nextId + 1 ∉ ((s.lanes.find? work.key).getD {}).queue := by
    cases hfind : s.lanes.find? work.key with
    | none => simp
    | some lane => exact fun h => Nat.not_succ_le_self _ ((hs.lane _ _ hfind).keys _ h).2
  have hlanes := fun lane => lanes_restored hs (s.lanes.insert work.key lane) fun k hk =>
    FinMap.find?_insert_ne _ lane hk
  generalize (s.lanes.find? work.key).getD {} = lane at hqueue hlanes
  obtain ⟨active, ready, queue⟩ := lane
  cases failing <;>
    simp [Impl.insertions, Attempt.rollback, hlanes, List.erase_of_not_mem hnew,
      List.erase_append_right _ hqueue, erase_insertDeadline hdeadline]

/-- The invariants do not notice that an identifier was skipped. -/
theorem skip_identifier (hi : Indexed s) (hs : Scheduled s) (hb : Books s) :
    Indexed { s with nextId := s.nextId + 1 } ∧ Scheduled { s with nextId := s.nextId + 1 } ∧
      Books { s with nextId := s.nextId + 1 } := by
  refine ⟨{ hi with known := fun id h => (hi.known id h).trans (Nat.le_succ _) }, ?_, ?_⟩
  · exact { hs with
      lane := fun key lane hfind => (hs.lane key lane hfind).transfer rfl .rfl (fun _ _ => rfl)
        (Nat.le_succ _) rfl
      hired := fun w id h => (hs.hired w id h).imp_right (Nat.le_succ_of_le ·)
      picked := fun key id h => (hs.picked key id h).trans (Nat.le_succ _) }
  · exact ⟨hb.queued, hb.running, hb.resident, hb.charged, hb.bounded, hb.room, hb.entries, hb.once,
      hb.timed, hb.live⟩

/-- **A submission that fails part-way leaves no trace**, but for the identifier it has used
    up.  The invariants hold as before; in particular a lane with tasks is being served or has
    its token. -/
theorem submitThrows_restores (hi : Indexed s) (hs : Scheduled s) (hb : Books s)
    (h : s.allocates work now failing = true) :
    ∃ s', s.submitThrows work now failing = some s' ∧ s' = { s with nextId := s.nextId + 1 } ∧
      Indexed s' ∧ Scheduled s' ∧ Books s' ∧
      ∀ lane, s'.lanes.find? work.key = some lane → lane.queue ≠ [] →
        lane.active = true ∨ lane.ready = true ∧ work.key ∈ s'.runnable := by
  obtain ⟨hi', hs', hb'⟩ := skip_identifier hi hs hb
  refine ⟨_, ?_, rfl, hi', hs', hb', fun lane hfind hqueue => ?_⟩
  · rw [Impl.submitThrows, if_pos h]
    dsimp only
    split
    · rfl
    · exact rollback_insertions hi hs hb
  · have hlane := hs'.lane _ lane hfind
    refine (hlane.served hqueue).imp_right fun hready => ⟨hready, ?_⟩
    have htoken := hlane.token
    rw [if_pos hready] at htoken
    exact List.count_pos_iff.mp (by omega)

/-- A second submission on the key of a task that waits with its token. -/
theorem submitThrows_restores_second :
    ∃ s : Impl, s.runnable = ["k"] ∧
      s.submitThrows ⟨"k", 0, 20⟩ 0 .task = some { s with nextId := 2 } := by
  have hr : machine.Reachable (({ limits := {} } : Impl).submit ⟨"k", 0, 10⟩ 0) :=
    ⟨{ limits := {} }, [.submit ⟨"k", 0, 10⟩ 0], ⟨{}, rfl, rfl⟩, rfl⟩
  obtain ⟨s', hthrows, rfl, -⟩ := submitThrows_restores (indexed_reachable hr)
    (scheduled_reachable hr) (books_reachable hr)
    (show Impl.allocates _ ⟨"k", 0, 20⟩ 0 .task = true by decide)
  exact ⟨_, by decide, hthrows⟩

end RedisPvxsIoc.OperationQueue
