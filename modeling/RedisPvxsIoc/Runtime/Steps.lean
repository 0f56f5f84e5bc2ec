import RedisPvxsIoc.Runtime.Typed

/-!
# What a Step of the Typed Runtime Can Do

Inversion lemmas for the machine of `Runtime.Typed`, stated once for all invariants.  A step
of a put's own thread moves that put, adds at most one event of it to the log, and touches
of the rest only the lock, the pending puts and the presented value (`PutFrame`).  A turn
of `handleRead` has one of three outcomes (`Delivered`).

## Main results

- `dispatch_frame` and its companions for the other labels of a put
- `handleEntry_delivered`, `deliver_cases`
- `sourceHealth_frame`, `sourceHealth_statuses`
-/

namespace RedisPvxsIoc.Runtime.Typed

open Config Foundations

set_option linter.unusedSectionVars false

variable {V Id : Type} [ValueType V] [LinearOrder Id]

/-! ## Steps of a put -/

/-- The effect of a step of put `p` on everything but the put itself. -/
structure PutFrame (s : State V Id) (p : PutId) (s' : State V Id) : Prop where
  config : s'.config = s.config
  readConfirms : s'.readConfirms = s.readConfirms
  commandEpoch : s'.commandEpoch = s.commandEpoch
  alive : s'.alive = s.alive
  committed : s'.committed = s.committed
  retiring : s'.retiring = s.retiring
  updates : s'.updates = s.updates
  reader : s'.reader = s.reader
  sample : s'.sample = s.sample
  deliveries : s'.deliveries = s.deliveries
  puts : ∃ f, s'.puts = s.puts.modify p f
  log : s'.log = s.log ∨ ∃ event, s'.log = s.log ++ [.put p event]

variable {s s' : State V Id} {p : PutId} {put : Put V Id}

/-- A step that moves only the put, whatever it does to the lock, to the pending puts and to
    the presented value. -/
theorem PutFrame.quiet (f : Put V Id → Put V Id) (mutex : Option PutId)
    (pendingPuts : FinMap Nat (PendingPut V Id)) (nextPendingId : Nat) (view : View V) :
    PutFrame s p { s with
      puts := s.puts.modify p f, mutex := mutex, pendingPuts := pendingPuts
      nextPendingId := nextPendingId, view := view } :=
  ⟨rfl, rfl, rfl, rfl, rfl, rfl, rfl, rfl, rfl, rfl, ⟨f, rfl⟩, .inl rfl⟩

/-- The same with one event in the log. -/
theorem PutFrame.noted (f : Put V Id → Put V Id) (mutex : Option PutId)
    (pendingPuts : FinMap Nat (PendingPut V Id)) (nextPendingId : Nat) (view : View V)
    (event : PutEvent V Id) :
    PutFrame s p { s with
      puts := s.puts.modify p f, mutex := mutex, pendingPuts := pendingPuts
      nextPendingId := nextPendingId, view := view, log := s.log ++ [.put p event] } :=
  ⟨rfl, rfl, rfl, rfl, rfl, rfl, rfl, rfl, rfl, rfl, ⟨f, rfl⟩, .inr ⟨event, rfl⟩⟩

/-- No other put moves. -/
theorem PutFrame.other (hf : PutFrame s p s') {q : PutId} (hq : q ≠ p) :
    s'.puts[q]? = s.puts[q]? := by
  obtain ⟨f, hputs⟩ := hf.puts
  rw [hputs]
  exact List.getElem?_modify_ne f s.puts (Ne.symm hq)

theorem frame_toPhase (phase : Phase V Id) : PutFrame s p (s.toPhase p phase) :=
  .quiet _ _ _ _ _

theorem frame_leave : PutFrame s p (s.leave p) := .quiet _ _ _ _ _

theorem frame_fail (message : String) : PutFrame s p (s.fail p message) := .quiet _ _ _ _ _

theorem frame_writeToRedis (epoch : Nat) (l : Locals V Id) (id : Option Nat)
    (result : WriteResult) : PutFrame s p (s.writeToRedis p epoch l id result) := by
  cases id <;> cases result <;> exact .noted _ _ _ _ _ _

/-- The echo of a write only changes what is presented. -/
theorem echo_view (s : State V Id) (raw : V) (time : Nat) :
    ∃ view, (s.handleRawUpdate raw time true none).1 = { s with view := view } := by
  unfold State.handleRawUpdate
  split
  · exact ⟨s.view, rfl⟩
  · exact ⟨_, rfl⟩

/-- The stages in which `dispatchPut` holds the lock. -/
def Stage.locked : Stage V Id → Bool
  | .fenced _ | .checked _ | .authorized _ | .cleared _ | .registered _ _ => true
  | _ => false

/-- The stages outside the lock at which a put can return without a reply. -/
def Stage.returns : Stage V Id → Bool
  | .entered | .unstopped | .copied _ | .asking _ _ _ | .prepared _ | .written _ _ _
  | .concluding | .woken _ _ _ => true
  | _ => false

theorem Stage.unlocked_of_returns {stage : Stage V Id} (h : stage.returns = true) :
    stage.locked = false := by
  cases stage <;> first
    | rfl
    | cases h

/-- How a put goes on when the step does nothing else. -/
inductive StageMove (s : State V Id) (put : Put V Id) : Stage V Id → Stage V Id → Prop where
  | entered : StageMove s put .entered .unstopped
  | copied : StageMove s put .unstopped (.copied s.config)
  | unconfirmed {current : PVConfig} {present : V} (hvalue : put.value = some present)
      (hconfirm : current.confirm = none) :
    StageMove s put (.copied current) (.prepared
      { current := current, raw := ValueType.inverse current.transform present, pending := none })
  | confirmed {current : PVConfig} {present : V} (hvalue : put.value = some present)
      (hconfirm : current.confirm.isSome = true) :
    StageMove s put (.copied current)
      (.sampling current (ValueType.inverse current.transform present))
  | checked (l : Locals V Id) : StageMove s put (.fenced l) (.checked l)
  | authorized (l : Locals V Id) : StageMove s put (.checked l) (.authorized l)
  | unregistered {l : Locals V Id} (hpending : l.pending = none) :
    StageMove s put (.cleared l) (.registered l none)
  | echoing (l : Locals V Id) (time : Nat) :
    StageMove s put (.written l none (some time)) (.echoing l time)
  | concluding (l : Locals V Id) (time : Nat) :
    StageMove s put (.written l none (some time)) .concluding
  | waiting (l : Locals V Id) (id time : Nat) :
    StageMove s put (.written l (some id) (some time)) (.waiting id)

theorem StageMove.locked {stage next : Stage V Id} (h : StageMove s put stage next) :
    next.locked = stage.locked := by
  cases h <;> rfl

/-- One step of `dispatchPut`, by what it does. -/
inductive PutStep (s : State V Id) (p : PutId) (put : Put V Id) (epoch : Nat) (a : Answer Id) :
    Stage V Id → State V Id → Prop where
  | moved {stage next : Stage V Id} (hmove : StageMove s put stage next) :
    PutStep s p put epoch a stage (s.toPhase p (.running epoch next))
  | left {stage : Stage V Id} (hreturns : stage.returns = true) :
    PutStep s p put epoch a stage (s.leave p)
  | failed {stage : Stage V Id} {message : String} (hreturns : stage.returns = true)
      (htext : message ≠ "" ∨ ∃ confirmed by', stage = .woken (some message) confirmed by') :
    PutStep s p put epoch a stage (s.fail p message)
  /-- The put leaves from inside the locked section. -/
  | dropped {stage : Stage V Id} (hlocked : stage.locked = true) :
    PutStep s p put epoch a stage (s.leave p).unlock
  | refused {stage : Stage V Id} {message : String} (hlocked : stage.locked = true)
      (htext : message ≠ "") : PutStep s p put epoch a stage (s.fail p message).unlock
  | sampled (current : PVConfig) (raw : V) :
    PutStep s p put epoch a (.sampling current raw)
      ((s.toPhase p (.running epoch (.asking current raw
        (s.sourceEpoch (State.confirmationRoute current))))).record
          (.put p (.sourceEpoch (s.sourceEpoch (State.confirmationRoute current)))))
  | snapshotted {current : PVConfig} {raw : V} {sourceEpoch : Nat} {id : Id}
      (hok : s.snapshotOk current id = true) :
    PutStep s p put epoch a (.asking current raw sourceEpoch)
      ((s.toPhase p (.running epoch (.prepared
        { current := current, raw := raw, pending := some
            { expectedRaw := raw, afterId := id, sourceEpoch := sourceEpoch } }))).record
          (.put p (.snapshot id)))
  | acquired {l : Locals V Id} (hfree : s.mutex = none) (halive : s.alive = true)
      (hepoch : s.commandEpoch = epoch) :
    PutStep s p put epoch a (.prepared l)
      { s.toPhase p (.running epoch (.fenced l)) with mutex := some p }
  | stopped (l : Locals V Id) :
    PutStep s p put epoch a (.authorized l)
      ((s.record (.put p (.lastCheck true))).leave p).unlock
  | cleared (l : Locals V Id) :
    PutStep s p put epoch a (.authorized l)
      ((s.record (.put p (.lastCheck false))).toPhase p (.running epoch (.cleared l)))
  | registered {l : Locals V Id} {pending : PendingPut V Id} (hpending : l.pending = some pending)
      (hepoch : pending.sourceEpoch = s.sourceEpoch (State.confirmationRoute l.current)) :
    PutStep s p put epoch a (.cleared l)
      (({ s with nextPendingId := s.nextPendingId + 1
                 pendingPuts := s.pendingPuts.insert (s.nextPendingId + 1) pending }.toPhase p
        (.running epoch (.registered l (some (s.nextPendingId + 1))))).record
          (.put p (.registered (s.nextPendingId + 1))))
  | wrote (l : Locals V Id) (id : Option Nat) :
    PutStep s p put epoch a (.registered l id) (s.writeToRedis p epoch l id a.write)
  | echoed (l : Locals V Id) (time : Nat) (view : View V)
      (hview : (s.handleRawUpdate l.raw time true none).1 = { s with view := view }) :
    PutStep s p put epoch a (.echoing l time)
      ({ s with view := view }.toPhase p (.running epoch .concluding))
  /-- What the waiter reads is the record as it stands when it wakes. -/
  | woken {id : Nat} {pending : PendingPut V Id} {completed : Bool}
      (hfind : s.pendingPuts.find? id = some pending)
      (hdone : pending.done = true → completed = true) :
    PutStep s p put epoch a (.waiting id)
      ({ s with pendingPuts := s.pendingPuts.erase id }.toPhase p
        (.running epoch (.woken pending.error (completed && pending.done) pending.confirmedBy)))
  | replied {stage : Stage V Id} {confirmedBy : Option (Processed V Id)}
      (hreply : stage = .concluding ∧ confirmedBy = none ∨ stage = .woken none true confirmedBy) :
    PutStep s p put epoch a stage ((s.fail p "").record (.put p (.replied confirmedBy)))

section PutStep

variable {epoch : Nat} {a : Answer Id} {stage : Stage V Id}

theorem PutStep.reply {confirmedBy : Option (Processed V Id)}
    (hreply : stage = .concluding ∧ confirmedBy = none ∨ stage = .woken none true confirmedBy) :
    PutStep s p put epoch a stage (s.replyPut p put confirmedBy) := by
  unfold State.replyPut
  split
  · refine .left ?_
    rcases hreply with ⟨rfl, -⟩ | rfl <;> rfl
  · exact .replied hreply

theorem PutStep.enterPending (l : Locals V Id) :
    PutStep s p put epoch a (.cleared l) (s.enterPending p epoch l) := by
  unfold State.enterPending
  split
  · exact .moved (.unregistered ‹_›)
  · split
    · exact .refused rfl (by decide)
    · exact .registered ‹_› (not_not.mp ‹_›)

theorem PutStep.wake {id : Nat} {timedOut : Bool}
    (h : s.wake p epoch put id timedOut = some s') :
    PutStep s p put epoch a (.waiting id) s' := by
  unfold State.wake at h
  split at h
  · cases h
  · rename_i pending hfind
    dsimp only at h
    split at h <;> cases h
    exact .woken hfind fun hdone => by simp [hdone]

theorem PutStep.conclude (error : Option String) (confirmed : Bool)
    (confirmedBy : Option (Processed V Id)) (deadlinePassed : Bool) :
    PutStep s p put epoch a (.woken error confirmed confirmedBy)
      (s.concludeConfirmed p put error confirmed confirmedBy deadlinePassed) := by
  unfold State.concludeConfirmed
  split
  · exact .left rfl
  · split
    · exact .failed rfl (.inr ⟨_, _, rfl⟩)
    · split
      · exact .failed rfl (.inl (by decide))
      · split
        · exact .failed rfl (.inl (by decide))
        · rename_i hconfirmed
          exact .reply (.inr (by rw [show confirmed = true by simpa using hconfirmed]))

theorem invalid_value_ne (text : String) : "invalid put value: " ++ text ≠ "" := by
  intro h
  have hlength := congrArg String.length h
  rw [String.length_append] at hlength
  simp at hlength

/-- Every step of `dispatchPut` is one of these; the guards that no proof needs are left out. -/
theorem dispatchPut_cases (h : s.dispatchPut p put epoch a stage = some s') :
    PutStep s p put epoch a stage s' := by
  cases stage with
  | entered =>
    simp only [State.dispatchPut] at h
    split at h <;> cases h
    · exact .left rfl
    · exact .moved .entered
  | unstopped =>
    simp only [State.dispatchPut] at h
    split at h
    · cases h
    · split at h <;> cases h
      · exact .failed rfl (.inl (by decide))
      · exact .moved .copied
  | copied current =>
    simp only [State.dispatchPut] at h
    split at h
    · cases h
      exact .failed rfl (.inl (invalid_value_ne _))
    · rename_i present hvalue
      split at h
      · rename_i hnone
        cases h
        exact .moved (.unconfirmed hvalue (Option.isNone_iff_eq_none.mp hnone))
      · rename_i hsome
        split at h <;> cases h
        · exact .left rfl
        · exact .moved (.confirmed hvalue (by simpa [Option.isSome_iff_ne_none] using hsome))
  | sampling current raw =>
    simp only [State.dispatchPut] at h
    split at h <;> cases h
    exact .sampled current raw
  | asking current raw sourceEpoch =>
    simp only [State.dispatchPut] at h
    split at h
    · cases h
      exact .failed rfl (.inl (by decide))
    · split at h <;> rename_i hok <;> cases h
      exact .snapshotted (by simpa using hok)
  | prepared l =>
    simp only [State.dispatchPut] at h
    split at h
    · cases h
    · rename_i hfree
      split at h <;> cases h
      · exact .failed rfl (.inl (by decide))
      · rename_i hready
        simp only [Bool.or_eq_true, Bool.not_eq_true', bne_iff_ne, not_or, ne_eq,
          Decidable.not_not, Bool.not_eq_false] at hready
        exact .acquired (by simpa using hfree) hready.1 hready.2
  | fenced l =>
    simp only [State.dispatchPut] at h
    split at h
    · cases h
      exact .dropped rfl
    · split at h <;> cases h
      · exact .refused rfl (by decide)
      · exact .moved (.checked l)
  | checked l =>
    simp only [State.dispatchPut] at h
    split at h
    · cases h
      exact .dropped rfl
    · split at h <;> cases h
      · exact .refused rfl (by decide)
      · exact .moved (.authorized l)
  | authorized l =>
    simp only [State.dispatchPut] at h
    split at h <;> rename_i hstopped <;> cases h
    · rw [hstopped]
      exact .stopped l
    · rw [Bool.eq_false_of_not_eq_true hstopped]
      exact .cleared l
  | cleared l =>
    cases h
    exact .enterPending l
  | registered l id =>
    cases h
    exact .wrote l id
  | written l id time =>
    cases time with
    | none =>
      cases h
      exact .failed rfl (.inl (by decide))
    | some time =>
      cases id with
      | none =>
        simp only [State.dispatchPut] at h
        split at h
        · cases h
          exact .left rfl
        · split at h <;> cases h
          · exact .moved (.echoing l time)
          · exact .moved (.concluding l time)
      | some id =>
        cases h
        exact .moved (.waiting l id time)
  | echoing l time =>
    obtain ⟨view, hview⟩ := echo_view s l.raw time
    simp only [State.dispatchPut, hview] at h
    split at h <;> cases h
    exact .echoed l time view hview
  | concluding =>
    simp only [State.dispatchPut] at h
    split at h <;> cases h
    · exact .failed rfl (.inl (by decide))
    · exact .reply (.inl ⟨rfl, rfl⟩)
  | waiting id =>
    simp only [State.dispatchPut] at h
    split at h
    · cases h
    · exact .wake h
  | woken error confirmed confirmedBy =>
    cases h
    exact .conclude error confirmed confirmedBy a.deadlinePassed

theorem PutStep.frame (h : PutStep s p put epoch a stage s') : PutFrame s p s' := by
  cases h with
  | moved | left | failed | dropped | refused | acquired | echoed | woken =>
    exact .quiet _ _ _ _ _
  | sampled | snapshotted | stopped | cleared | registered | replied =>
    exact .noted _ _ _ _ _ _
  | wrote l id => exact frame_writeToRedis epoch l id a.write

end PutStep

/-- A dispatch step belongs to a put that is running. -/
theorem dispatch_cases {a : Answer Id} (h : s.dispatch p a = some s') :
    ∃ put epoch stage, s.puts[p]? = some put ∧ put.phase = .running epoch stage ∧
      PutStep s p put epoch a stage s' := by
  unfold State.dispatch at h
  split at h
  · cases h
  · rename_i put hput
    split at h
    · rename_i epoch stage hphase
      exact ⟨put, epoch, stage, hput, hphase, dispatchPut_cases h⟩
    · cases h

theorem dispatch_frame {a : Answer Id} (h : s.dispatch p a = some s') : PutFrame s p s' := by
  obtain ⟨put, epoch, stage, -, -, hstep⟩ := dispatch_cases h
  exact hstep.frame

/-- A step of `handlePut`, by what it does. -/
inductive Admission (s : State V Id) (p : PutId) : Phase V Id → State V Id → Prop where
  | passed : Admission s p .arriving (s.toPhase p .arrived)
  | refused {phase : Phase V Id} (message : String) (hphase : phase = .arriving ∨ phase = .arrived) :
    Admission s p phase (s.fail p message)
  | queued : Admission s p .arrived
      ((s.toPhase p (.queued s.commandEpoch)).record (.put p (.admitted s.commandEpoch)))

theorem Admission.frame {phase : Phase V Id} (h : Admission s p phase s') : PutFrame s p s' := by
  cases h with
  | passed | refused => exact .quiet _ _ _ _ _
  | queued => exact .noted _ _ _ _ _ _

theorem handlePut_cases {refusal : Option String} (h : s.handlePut p refusal = some s') :
    ∃ put phase, s.puts[p]? = some put ∧ put.phase = phase ∧ Admission s p phase s' := by
  unfold State.handlePut at h
  split at h
  · cases h
  · rename_i put hput
    split at h
    · rename_i hphase
      refine ⟨put, _, hput, hphase, ?_⟩
      split at h <;> cases h
      · exact .passed
      · exact .refused _ (.inl rfl)
    · rename_i hphase
      refine ⟨put, _, hput, hphase, ?_⟩
      split at h
      · cases h
        exact .refused _ (.inr rfl)
      · split at h <;> cases h
        · exact .refused _ (.inr rfl)
        · exact .queued
    · cases h

theorem startPut_cases (h : s.startPut p = some s') :
    ∃ put epoch, s.puts[p]? = some put ∧ put.phase = .queued epoch ∧
      (s.puts.any fun q => q.phase.isRunning) = false ∧
      s' = s.toPhase p (.running epoch .entered) := by
  unfold State.startPut at h
  split at h
  · cases h
  · rename_i put hput
    split at h
    · rename_i epoch hphase
      split at h
      · cases h
      · rename_i hidle
        cases h
        exact ⟨put, epoch, hput, hphase, by simpa using hidle, rfl⟩
    · cases h

theorem dropPut_cases (h : s.dropPut p = some s') :
    ∃ put epoch, s.puts[p]? = some put ∧ put.phase = .queued epoch ∧ s' = s.leave p := by
  unfold State.dropPut at h
  split at h
  · cases h
  · rename_i put hput
    split at h
    · rename_i epoch hphase
      cases h
      exact ⟨put, epoch, hput, hphase, rfl⟩
    · cases h

theorem stopPut_frame (message : Option String) : PutFrame s p (s.stopPut p message) :=
  .quiet _ _ _ _ _

/-! ## Deliveries -/

/-- The entry as it is recorded in the log. -/
def observation (d : Delivery V Id) (entry : StreamEntry V Id) (value : Option V) (now : Nat) :
    Processed V Id :=
  { id := entry.id, value := value, metadata := d.metadata, readAt := d.readAt, received := now }

/-- Whether entries of a route can confirm a put. -/
def canConfirm (s : State V Id) (route : Route) : Bool :=
  if route = .read then s.readConfirms else true

/-- The three outcomes of a turn of `handleRead` on a live runtime. -/
inductive Delivered (s : State V Id) (d : Delivery V Id) (entry : StreamEntry V Id) (now : Nat) :
    State V Id × Bool → Prop where
  /-- The epoch of the batch is over. -/
  | stale (hepoch : s.sourceEpoch d.route ≠ d.metadata.epoch) :
    Delivered s d entry now (s.countStale d.route, false)
  | accepted (raw : V) (timestamp : Nat) (view : View V)
      (pendingPuts : FinMap Nat (PendingPut V Id))
      (hepoch : s.sourceEpoch d.route = d.metadata.epoch)
      (hpayload : entry.payload = some raw) (htime : entry.time = some timestamp)
      (hview : d.route = .confirm → view = s.view)
      (hpending : pendingPuts = if canConfirm s d.route then
          s.pendingPuts.mapValues fun pending =>
            pending.observe (observation d entry (some raw) now) raw
        else s.pendingPuts) :
    Delivered s d entry now
      ({ s with
          sample := Function.update s.sample d.route
            { (s.sample d.route).accept entry.id d.metadata.epoch now with
              acceptedReadRejections := d.metadata.readRejections }
          pendingPuts := pendingPuts
          view := view
          log := s.log ++
            [.processed d.route (observation d entry (some raw) now) s.pendingPuts.keys] }, true)
  | rejected (view : View V) (error : String)
      (hepoch : s.sourceEpoch d.route = d.metadata.epoch)
      (hview : d.route = .confirm → view = s.view) :
    Delivered s d entry now
      ({ s with
          sample := Function.update s.sample d.route
            ((s.sample d.route).reject error d.metadata.epoch)
          view := view
          log := s.log ++
            [.processed d.route (observation d entry none now) s.pendingPuts.keys] }, true)

variable {now : Nat} {d : Delivery V Id} {entry : StreamEntry V Id}

theorem Delivered.config {turn : State V Id × Bool} (hturn : Delivered s d entry now turn) :
    turn.1.config = s.config := by
  cases hturn <;> rfl

theorem epochMatches_iff {route : Route} {epoch : Nat} :
    s.epochMatches route epoch = true ↔ s.sourceEpoch route = epoch := by
  simp [State.epochMatches]

theorem markInvalid_delivered (halive : s.alive = true) (error : String) (a : State.Arrival Id)
    (ha : a.processed (none : Option V) = observation d entry none now)
    (hmeta : a.metadata = d.metadata) :
    Delivered s d entry now (s.markInvalid error (decide (d.route = .read)) a) := by
  have hroute : State.routeOf (decide (d.route = .read)) = d.route := by
    cases d.route <;> rfl
  unfold State.markInvalid
  rw [hroute, hmeta, ha, if_neg (by simp [halive])]
  by_cases hepoch : s.sourceEpoch d.route = d.metadata.epoch
  · rw [if_neg (by simp [epochMatches_iff, hepoch])]
    split
    · rename_i hread
      exact .rejected _ error hepoch (by simp [of_decide_eq_true hread])
    · exact .rejected s.view error hepoch (fun _ => rfl)
  · rw [if_pos (by simpa [← Bool.not_eq_true, epochMatches_iff] using hepoch)]
    exact .stale hepoch

theorem handleRawUpdate_delivered {raw : V} {timestamp : Nat} (halive : s.alive = true)
    (hpos : 0 < d.metadata.epoch) (hpayload : entry.payload = some raw)
    (htime : entry.time = some timestamp) :
    Delivered s d entry now
      (s.handleRawUpdate raw timestamp (decide (d.route = .read))
        (some { canConfirm := canConfirm s d.route, streamId := entry.id, metadata := d.metadata
                readAt := d.readAt, now := now })) := by
  have hroute : State.routeOf (decide (d.route = .read)) = d.route := by
    cases d.route <;> rfl
  have htagged : d.metadata.epoch ≠ 0 := Nat.pos_iff_ne_zero.mp hpos
  unfold State.handleRawUpdate
  rw [if_neg (by simp [halive])]
  dsimp only
  rw [hroute]
  by_cases hepoch : s.sourceEpoch d.route = d.metadata.epoch
  · have hmatch := epochMatches_iff.mpr hepoch
    simp only [htagged, hmatch, ne_eq, not_false_eq_true, decide_true, Bool.not_true,
      Bool.and_false, Bool.false_eq_true, if_false, if_true]
    -- four cases: may the entry confirm, and does it change the presented value
    by_cases hconfirm : canConfirm s d.route = true <;> by_cases hread : d.route = .read
    · rw [if_pos hconfirm, if_pos (decide_eq_true hread)]
      exact .accepted raw timestamp _ _ hepoch hpayload htime (by simp [hread])
        (by rw [if_pos hconfirm]; rfl)
    · rw [if_pos hconfirm, if_neg (by simpa using hread)]
      exact .accepted raw timestamp s.view _ hepoch hpayload htime (fun _ => rfl)
        (by rw [if_pos hconfirm]; rfl)
    · rw [if_neg hconfirm, if_pos (decide_eq_true hread)]
      exact .accepted raw timestamp _ _ hepoch hpayload htime (by simp [hread])
        (by rw [if_neg hconfirm]; rfl)
    · rw [if_neg hconfirm, if_neg (by simpa using hread)]
      exact .accepted raw timestamp s.view _ hepoch hpayload htime (fun _ => rfl)
        (by rw [if_neg hconfirm]; rfl)
  · rw [if_pos (by simpa [htagged, ← Bool.not_eq_true, epochMatches_iff] using hepoch)]
    exact .stale hepoch

/-- A turn of `handleRead` on a live runtime has one of the three outcomes. -/
theorem handleEntry_delivered (entry : StreamEntry V Id) (now : Nat) (halive : s.alive = true)
    (hpos : 0 < d.metadata.epoch) :
    Delivered s d entry now (s.handleEntry d entry now) := by
  unfold State.handleEntry
  cases hpayload : entry.payload with
  | none => exact markInvalid_delivered halive _ _ rfl rfl
  | some raw =>
    cases htime : entry.time with
    | none => exact markInvalid_delivered halive _ _ rfl rfl
    | some timestamp => exact handleRawUpdate_delivered halive hpos hpayload htime

/-- What a delivery label can do: drop the batch, or take a turn of the loop. -/
theorem deliver_cases {i : Nat} (h : s.deliver i now = some s') :
    ∃ d, s.deliveries[i]? = some d ∧ s.mutex = none ∧ 0 < now ∧
      ((d.entries = [] ∨ s.alive = false) ∧
          s' = { s with deliveries := s.deliveries.eraseIdx i } ∨
        ∃ entry rest, d.entries = entry :: rest ∧ s.alive = true ∧
          s' = s.finishTurn i d rest (s.handleEntry d entry now)) := by
  unfold State.deliver at h
  split at h
  · cases h
  · rename_i d hd
    split at h
    · cases h
    · rename_i hready
      simp only [Bool.or_eq_true, beq_iff_eq, not_or, Bool.not_eq_true,
        Option.isSome_eq_false_iff, Option.isNone_iff_eq_none] at hready
      refine ⟨d, hd, hready.1, Nat.pos_of_ne_zero hready.2, ?_⟩
      dsimp only at h
      split at h
      · rename_i hentries
        cases h
        exact .inl ⟨.inl hentries, rfl⟩
      · rename_i entry rest hentries
        split at h <;> rename_i halive <;> cases h
        · exact .inl ⟨.inr (by simpa using halive), rfl⟩
        · exact .inr ⟨entry, rest, hentries, by simpa using halive, rfl⟩

/-! ## Health ticks -/

/-- A tick reassesses the samples without touching what readiness rests on, may fail pending
    puts, and may present the value again. -/
structure TickFrame (s s' : State V Id) : Prop where
  evidence : ∀ route, SameEvidence (s'.sample route) (s.sample route)
  pending : s'.pendingPuts = s.pendingPuts ∨
    ∃ e, s'.pendingPuts = s.pendingPuts.mapValues (PendingPut.expire e)
  rest : ∃ sample pendingPuts view, s' = { s with
    sample := sample, pendingPuts := pendingPuts, view := view }

theorem showHealth_view (s : State V Id) (error : String) :
    ∃ view, s.showHealth error = { s with view := view } := by
  unfold State.showHealth
  split
  · exact ⟨_, rfl⟩
  · exact ⟨s.view, rfl⟩

theorem sameEvidence_update {sample : Route → SourceSampleState Id} {route : Route}
    {x : SourceSampleState Id} (h : SameEvidence x (sample route)) (r : Route) :
    SameEvidence (Function.update sample route x r) (sample r) := by
  by_cases hr : r = route
  · subst hr
    rw [Function.update_self]
    exact h
  · rw [Function.update_of_ne hr]
    exact .refl _

theorem TickFrame.assessed {s' : State V Id} (h : TickFrame s s') (route : Route)
    (x : SourceSampleState Id) (hx : SameEvidence x (s'.sample route)) :
    TickFrame s (s'.setSample route x) := by
  obtain ⟨sample, pendingPuts, view, rfl⟩ := h.rest
  refine ⟨fun r => ?_, h.pending, ⟨_, _, _, rfl⟩⟩
  have h₁ := sameEvidence_update hx r
  have h₂ := h.evidence r
  exact ⟨h₁.valid.trans h₂.valid, h₁.epoch.trans h₂.epoch,
    h₁.acceptedReadRejections.trans h₂.acceptedReadRejections, h₁.received.trans h₂.received⟩

theorem TickFrame.refl (s : State V Id) : TickFrame s s :=
  ⟨fun _ => .refl _, .inl rfl, ⟨_, _, _, rfl⟩⟩

/-- The status of a route reports on the sample and the reader of that route. -/
def StatusOf (s : State V Id) (route : Route) (now : Nat) (status : SourceStatus Id) : Prop :=
  ∃ target role probeMs, (role = .confirm ↔ route = .confirm) ∧
    status = (s.assess route target role probeMs now).1

theorem TickFrame.shown {s' : State V Id} (h : TickFrame s s') (error : String) :
    TickFrame s (s'.showHealth error) := by
  obtain ⟨view, hview⟩ := showHealth_view s' error
  obtain ⟨sample, pendingPuts, view', rfl⟩ := h.rest
  rw [hview]
  exact ⟨h.evidence, h.pending, ⟨_, _, _, rfl⟩⟩

theorem tickRead_frame (s : State V Id) (now : Nat) : TickFrame s (s.tickRead now).1 := by
  have hread : TickFrame s (s.setSample .read (s.assess .read s.config.read
      (State.readRole s.config) s.readProbeMs now).2) :=
    (TickFrame.refl s).assessed _ _ (sameEvidence_assess ..)
  unfold State.tickRead
  dsimp only
  split
  · apply TickFrame.shown
    exact ⟨hread.evidence, .inr ⟨_, rfl⟩, ⟨_, _, _, rfl⟩⟩
  · exact hread

theorem tickRead_sample_confirm (s : State V Id) (now : Nat) :
    (s.tickRead now).1.sample .confirm = s.sample .confirm := by
  unfold State.tickRead
  dsimp only
  split
  · unfold State.showHealth
    split <;> rfl
  · rfl

theorem tickRead_status (s : State V Id) (now : Nat) :
    StatusOf s .read now (s.tickRead now).2 := by
  refine ⟨s.config.read, State.readRole s.config, s.readProbeMs, ?_, rfl⟩
  unfold State.readRole
  split <;> simp

theorem sourceHealth_frame (s : State V Id) (now : Nat) :
    TickFrame s (s.sourceHealth now).1 := by
  have h := tickRead_frame s now
  unfold State.sourceHealth
  dsimp only
  split
  · split
    · exact h
    · exact h.assessed _ _ (sameEvidence_assess ..)
  · exact h

/-- Every status of a tick is the assessment of one of the two routes in the state in which
    the tick was taken. -/
theorem sourceHealth_statuses {status : SourceStatus Id} (h : status ∈ (s.sourceHealth now).2) :
    ∃ route, StatusOf s route now status := by
  unfold State.sourceHealth at h
  dsimp only at h
  have hread := tickRead_status s now
  split at h
  · rename_i confirm hconfirm
    split at h
    · rw [List.mem_singleton] at h
      exact ⟨.read, h ▸ hread⟩
    · rcases List.mem_cons.mp h with rfl | h
      · exact ⟨.read, hread⟩
      · -- the read half has not touched what the confirmation status is computed from
        rw [List.mem_singleton] at h
        have hsample := tickRead_sample_confirm s now
        obtain ⟨sample, pendingPuts, view, hrest⟩ := (tickRead_frame s now).rest
        rw [hrest] at h hsample
        refine ⟨.confirm, { backend := confirm.backend, key := confirm.key }, .confirm,
          s.confirmProbeMs, ⟨fun _ => rfl, fun _ => rfl⟩, ?_⟩
        rw [h]
        simp only [State.assess, State.serving] at hsample ⊢
        rw [hsample]
  · rw [List.mem_singleton] at h
    exact ⟨.read, h ▸ hread⟩

/-! ## All steps -/

/-- One step of the machine, by what it does. -/
inductive Stepped (s : State V Id) : Label V Id → State V Id → Prop where
  | arrived (value : Option V) {new : Put V Id}
      (hnew : new.phase = .arriving ∨ new.phase = .finished) :
    Stepped s (.arrive value) { s with puts := s.puts ++ [new] }
  | handled {p : PutId} (refusal : Option String) {put : Put V Id} {phase : Phase V Id}
      {s' : State V Id} (hput : s.puts[p]? = some put) (hphase : put.phase = phase)
      (hadmission : Admission s p phase s') : Stepped s (.handlePut p refusal) s'
  | started {p : PutId} {put : Put V Id} {epoch : Nat} (hput : s.puts[p]? = some put)
      (hqueued : put.phase = .queued epoch)
      (hidle : (s.puts.any fun q => q.phase.isRunning) = false) :
    Stepped s (.startPut p) (s.toPhase p (.running epoch .entered))
  | dropped {p : PutId} {put : Put V Id} {epoch : Nat} (hput : s.puts[p]? = some put)
      (hqueued : put.phase = .queued epoch) : Stepped s (.dropPut p) (s.leave p)
  | stopped (p : PutId) (message : Option String) :
    Stepped s (.stopPut p message) (s.stopPut p message)
  | dispatched {p : PutId} {answer : Answer Id} {put : Put V Id} {epoch : Nat}
      {stage : Stage V Id} {s' : State V Id} (hput : s.puts[p]? = some put)
      (hphase : put.phase = .running epoch stage) (hstep : PutStep s p put epoch answer stage s') :
    Stepped s (.dispatch p answer) s'
  | prepared {config : PVConfig} (generation : Nat) (publisher : Option Nat)
      (state : Alarm.AlarmState) (htopology : sameReaderTopology s.config config = true) :
    Stepped s (.prepare config generation publisher) { s with
      view := { s.view with
        alarm := (s.view.alarm.prepare (publisher.or s.view.alarm.alarmPublisher) state).1 }
      updates := s.updates ++
        [{ config := config, generation := generation
           publisher := publisher.or s.view.alarm.alarmPublisher
           alarm := (s.view.alarm.prepare (publisher.or s.view.alarm.alarmPublisher) state).2 }] }
  | committed {i : Nat} {update : Update} (hfree : s.mutex = none)
      (hupdate : s.updates[i]? = some update) :
    Stepped s (.commit i) { s.commit update with updates := s.updates.eraseIdx i }
  | refreshed (halive : s.alive = true) : Stepped s .refresh s.present
  | ignored (hdead : s.alive = false) : Stepped s .refresh s
  | activated : Stepped s .activate s.activate
  | deactivated (cause : Retirement) (halive : s.alive = true) :
    Stepped s (.deactivate cause) { s with alive := false, retiring := some cause }
  /-- A later call of `deactivate` returns at once. -/
  | returned (cause : Retirement) (hdead : s.alive = false) (hnot : s.retiring = none) :
    Stepped s (.deactivate cause) (s.record .deactivated)
  | retired {cause : Retirement} (hfree : s.mutex = none) (hretiring : s.retiring = some cause) :
    Stepped s .retire (s.retire cause)
  | moved {route : Route} (event : ReaderEvent) {r : Reader} (hr : s.reader route = some r) :
    Stepped s (.reader route event) (s.setReader route (r.apply event))
  | read {route : Route} (entries : List (StreamEntry V Id)) {r : Reader}
      (hr : s.reader route = some r) :
    Stepped s (.read route entries) { s.setReader route r.capture.1 with
      deliveries := s.deliveries ++
        [{ route := route, metadata := r.capture.2.1, entries := entries, readAt := r.capture.2.2 }] }
  | skipped {i now : Nat} {d : Delivery V Id} (hd : s.deliveries[i]? = some d)
      (hidle : d.entries = [] ∨ s.alive = false) :
    Stepped s (.deliver i now) { s with deliveries := s.deliveries.eraseIdx i }
  | delivered {i : Nat} (now : Nat) {d : Delivery V Id} (entry : StreamEntry V Id)
      {rest : List (StreamEntry V Id)} (hd : s.deliveries[i]? = some d) (hfree : s.mutex = none)
      (hnow : 0 < now) (hentries : d.entries = entry :: rest) (halive : s.alive = true) :
    Stepped s (.deliver i now) (s.finishTurn i d rest (s.handleEntry d entry now))
  | ticked {now : Nat} {s' : State V Id} (hfree : s.mutex = none)
      (hnext : s' = (s.sourceHealth now).1) (hframe : TickFrame s s') : Stepped s (.tick now) s'

variable {a : Label V Id}

theorem step_cases (h : step s a = some s') : Stepped s a s' := by
  have hlock : ∀ {m : Option PutId}, ¬m.isSome = true → m = none := by simp
  cases a with
  | arrive value =>
    simp only [step, State.arrive] at h
    split at h
    · cases h
    · split at h <;> cases h
      · exact .arrived value (.inl rfl)
      · exact .arrived value (.inr rfl)
  | handlePut p refusal =>
    obtain ⟨put, phase, hput, hphase, hadmission⟩ := handlePut_cases h
    exact .handled refusal hput hphase hadmission
  | startPut p =>
    obtain ⟨put, epoch, hput, hqueued, hidle, rfl⟩ := startPut_cases h
    exact .started hput hqueued hidle
  | dropPut p =>
    obtain ⟨put, epoch, hput, hqueued, rfl⟩ := dropPut_cases h
    exact .dropped hput hqueued
  | stopPut p message =>
    cases h
    exact .stopped p message
  | dispatch p answer =>
    obtain ⟨put, epoch, stage, hput, hphase, hstep⟩ := dispatch_cases h
    exact .dispatched hput hphase hstep
  | prepare config generation publisher =>
    simp only [step, State.prepareReconfigure] at h
    split at h <;> rename_i hready <;> cases h
    exact .prepared generation publisher _ (by simp_all)
  | commit i =>
    simp only [step] at h
    split at h
    · cases h
    · obtain ⟨update, hupdate, rfl⟩ := Option.map_eq_some_iff.mp h
      exact .committed (hlock ‹_›) hupdate
  | refresh =>
    simp only [step, State.refreshMetadata] at h
    split at h
    · cases h
    · split at h <;> cases h
      · exact .refreshed ‹_›
      · exact .ignored (by simp_all)
  | activate =>
    simp only [step] at h
    split at h <;> cases h
    exact .activated
  | deactivate cause =>
    simp only [step, State.deactivate] at h
    split at h
    · cases h
    · rename_i hnot
      split at h <;> rename_i halive <;> cases h
      · exact .deactivated cause halive
      · exact .returned cause (by simpa using halive) (by simpa using hnot)
  | retire =>
    simp only [step] at h
    split at h
    · cases h
    · obtain ⟨cause, hretiring, rfl⟩ := Option.map_eq_some_iff.mp h
      exact .retired (hlock ‹_›) hretiring
  | reader route event =>
    obtain ⟨r, hr, rfl⟩ := Option.map_eq_some_iff.mp h
    exact .moved event hr
  | read route entries =>
    obtain ⟨r, hr, rfl⟩ := Option.map_eq_some_iff.mp h
    exact .read entries hr
  | deliver i now =>
    obtain ⟨d, hd, hfree, hnow, ⟨hidle, rfl⟩ | ⟨entry, rest, hentries, halive, rfl⟩⟩ :=
      deliver_cases h
    · exact .skipped hd hidle
    · exact .delivered now entry hd hfree hnow hentries halive
  | tick now =>
    simp only [step] at h
    split at h <;> cases h
    exact .ticked (hlock ‹_›) rfl (sourceHealth_frame s now)

/-- The labels that read or deliver a batch. -/
def Label.movesBatch : Label V Id → Bool
  | .read _ _ | .deliver _ _ => true
  | _ => false

/-- The labels that touch a reader. -/
def Label.movesReader : Label V Id → Bool
  | .reader _ _ | .read _ _ | .retire => true
  | _ => false

/-- What a step leaves alone unless it is its own business. -/
structure StepFrame (s : State V Id) (a : Label V Id) (s' : State V Id) : Prop where
  config : (∀ i, a ≠ .commit i) → s'.config = s.config
  deliveries : a.movesBatch = false → s'.deliveries = s.deliveries
  reader : a.movesReader = false → s'.reader = s.reader

theorem StepFrame.quiet (hconfig : s'.config = s.config)
    (hdeliveries : s'.deliveries = s.deliveries) (hreader : s'.reader = s.reader) :
    StepFrame s a s' :=
  ⟨fun _ => hconfig, fun _ => hdeliveries, fun _ => hreader⟩

theorem Delivered.reader {turn : State V Id × Bool} (hturn : Delivered s d entry now turn) :
    turn.1.reader = s.reader := by
  cases hturn <;> rfl

theorem PutFrame.stepFrame (h : PutFrame s p s') : StepFrame s a s' :=
  .quiet h.config h.deliveries h.reader

theorem step_frame (hpos : ∀ d ∈ s.deliveries, 0 < d.metadata.epoch) (hstep : step s a = some s') :
    StepFrame s a s' := by
  cases step_cases hstep with
  | handled _ _ _ hadmission => exact hadmission.frame.stepFrame
  | dispatched _ _ hput => exact hput.frame.stepFrame
  | arrived | started | dropped | stopped | prepared | refreshed | ignored | activated
  | deactivated | returned => exact .quiet rfl rfl rfl
  | committed => exact ⟨fun hnot => absurd rfl (hnot _), fun _ => rfl, fun _ => rfl⟩
  | retired | moved => exact ⟨fun _ => rfl, fun _ => rfl, fun hnot => Bool.noConfusion hnot⟩
  | read =>
    exact ⟨fun _ => rfl, fun hnot => Bool.noConfusion hnot, fun hnot => Bool.noConfusion hnot⟩
  | skipped => exact ⟨fun _ => rfl, fun hnot => Bool.noConfusion hnot, fun _ => rfl⟩
  | delivered now entry hd _ _ _ halive =>
    have hturn := handleEntry_delivered entry now halive (hpos _ (List.mem_of_getElem? hd))
    exact ⟨fun _ => hturn.config, fun hnot => Bool.noConfusion hnot, fun _ => hturn.reader⟩
  | ticked _ _ hframe =>
    obtain ⟨_, _, _, rfl⟩ := hframe.rest
    exact .quiet rfl rfl rfl

end RedisPvxsIoc.Runtime.Typed
