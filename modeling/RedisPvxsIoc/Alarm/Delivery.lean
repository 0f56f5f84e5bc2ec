import RedisPvxsIoc.Alarm.Convergence

/-!
# Delivery: Where the Transitions of the Ring Go

The publisher itself counts only what it coalesces and what it throws away.  Here an
observer keeps a `Ledger` of a run: which events have been appended to the ring and which
have left it, which have been handed to the stream, and how the requests for events from
the ring were answered.  The ledger reads the ring and the request on its way and nothing
else, so it can be compared with the publisher's counters.

Whether an event leaves the ring for the stream, because its slot has been replaced, after
a failure or on an overflow, it leaves at the head.  A snapshot is sent only over an empty
ring.  Both together make the revisions sent for a slot monotone.

## Main results

- `step_deliveryStep`: what a step does to the ring and to the request on its way
- `delivery_exec`: the invariant at the end of every run
- `transitions_accounted`: every transition is accounted for
-/

namespace RedisPvxsIoc.Alarm

open Foundations

/-! ## The ledger -/

/-- A request that carries an event from the ring, neither a snapshot nor a `PING`. -/
def Flight.fromRing (flight : Flight) : Bool := flight.selected.isSome && !flight.reconciliation

/-- The events from the ring that are on their way. -/
def Impl.inFlight (s : Impl) : Nat :=
  match s.worker with
  | .sending flight => if flight.fromRing then 1 else 0
  | _ => 0

/-- The request that a step has put on its way. -/
def launched (s s' : Impl) : Option Flight :=
  match s.worker, s'.worker with
  | .looping, .sending flight => some flight
  | _, _ => none

/-- The answer to a request that carried an event from the ring. -/
def answered (s : Impl) : Label → Option SendResult
  | .reply result _ _ =>
    match s.worker with
    | .sending flight => if flight.fromRing then some result else none
    | _ => none
  | _ => none

structure Ledger where
  /-- The events appended to the ring, oldest first. -/
  appended : List Event := []
  /-- The events that have left the ring, in the order in which they left. -/
  left : List Event := []
  /-- The events handed to the stream, from the ring and by reconciliation. -/
  sent : List Event := []
  sentFromRing : List Event := []
  accepted : Nat := 0
  failed : Nat := 0

/-- What the observer writes down at a step.  Entries behind those that were in the ring
    are new; entries that are missing at its head have left. -/
def note (s : Impl) (a : Label) (s' : Impl) (r : Ledger) : Ledger :=
  let appended := s'.ring.toList.drop s.ring.count
  { appended := r.appended ++ appended
    left := r.left ++ s.ring.toList.take (s.ring.count + appended.length - s'.ring.count)
    sent := r.sent ++ ((launched s s').bind Flight.selected).toList
    sentFromRing := r.sentFromRing ++
      (((launched s s').filter Flight.fromRing).bind Flight.selected).toList
    accepted := r.accepted + if answered s a = some .accepted then 1 else 0
    failed := r.failed + if (answered s a).any (· != .accepted) then 1 else 0 }

def ledger (s₀ : Impl) (as : List Label) : Ledger := machine.record note {} s₀ as

/-! ## What a step does to the ring -/

/-- Revisions only grow, and the slots are known to the identifier counter. -/
structure Grown (s s' : Impl) : Prop where
  nextId : s.nextId ≤ s'.nextId
  revision : ∀ id ≤ s.nextId, (s.heap id).revision ≤ (s'.heap id).revision
  slots : ∀ id ∈ s'.slots, id ∈ s.slots ∨ id ≤ s'.nextId

variable {s s' : Impl}

theorem Grown.of_heap (hnext : s'.nextId = s.nextId) (hslots : s'.slots = s.slots)
    (hheap : ∀ id, (s.heap id).revision ≤ (s'.heap id).revision) : Grown s s' :=
  ⟨le_of_eq hnext.symm, fun id _ => hheap id, fun _ hid => .inl (hslots ▸ hid)⟩

theorem SameSlots.grown (h : SameSlots s s') : Grown s s' :=
  .of_heap h.nextId h.slots fun id => le_of_eq (by rw [h.heap])

/-- Everything about a step that the ledger sees.  `quiet` is what may happen to the two
    flags that keep events away from the ring. -/
inductive DeliveryStep (s : Impl) (a : Label) (s' : Impl) : Prop where
  /-- Nothing moves. -/
  | stay (grown : Grown s s') (ring : s'.ring.toList = s.ring.toList)
      (discarded : s'.counters.discardedTransitions = s.counters.discardedTransitions)
      (quiet : s'.recovering = s.recovering ∧ s'.live = s.live)
      (launched : launched s s' = none) (flight : s'.inFlight = s.inFlight)
      (answered : answered s a = none)
  /-- An update is appended, with the newest revision of its slot. -/
  | append (e : Event) (grown : Grown s s') (ring : s'.ring.toList = s.ring.toList ++ [e])
      (known : e.slot ≤ s'.nextId) (revision : e.revision = (s'.heap e.slot).revision)
      (discarded : s'.counters.discardedTransitions = s.counters.discardedTransitions)
      (quiet : s'.recovering = false ∧ s'.live = true)
      (launched : launched s s' = none) (flight : s'.inFlight = s.inFlight)
      (answered : answered s a = none)
  /-- The ring is emptied: an overflow, or a turn that finds no event to send. -/
  | empty (grown : Grown s s') (ring : s'.ring.toList = [])
      (discarded : s'.counters.discardedTransitions =
        s.counters.discardedTransitions + s.ring.count)
      (launched : (launched s s').bind Flight.selected = none) (flight : s'.inFlight = s.inFlight)
      (answered : answered s a = none)
  /-- The worker takes an event from the ring. -/
  | take (e : Event) (dropped : List Event) (flight : Flight) (same : SameSlots s s')
      (ring : s.ring.toList = dropped ++ e :: s'.ring.toList)
      (discarded : s'.counters.discardedTransitions =
        s.counters.discardedTransitions + dropped.length)
      (quiet : s'.recovering = s.recovering ∧ s'.live = s.live)
      (launched : launched s s' = some flight) (selected : flight.selected = some e)
      (fromRing : flight.fromRing = true) (before : s.inFlight = 0) (after : s'.inFlight = 1)
      (answered : answered s a = none)
  /-- The ring has no event to send, and the worker sends the snapshot of a slot. -/
  | reconcile (e : Event) (flight : Flight) (grown : Grown s s') (ring : s'.ring.toList = [])
      (known : e.slot ∈ s.slots) (revision : e.revision = (s'.heap e.slot).revision)
      (discarded : s'.counters.discardedTransitions =
        s.counters.discardedTransitions + s.ring.count)
      (launched : launched s s' = some flight) (selected : flight.selected = some e)
      (fromRing : flight.fromRing = false) (before : s.inFlight = 0) (after : s'.inFlight = 0)
      (answered : answered s a = none)
  /-- The request on its way is accepted. -/
  | accepted (grown : Grown s s') (ring : s'.ring.toList = s.ring.toList)
      (discarded : s'.counters.discardedTransitions = s.counters.discardedTransitions)
      (quiet : s'.recovering = s.recovering ∧ s'.live = true)
      (launched : launched s s' = none) (flight : s'.inFlight = 0)
      (answered : answered s a = if s.inFlight = 1 then some .accepted else none)
  /-- The request on its way has failed. -/
  | failed (result : SendResult) (ne : result ≠ .accepted) (grown : Grown s s')
      (ring : s'.ring.toList = [])
      (discarded : s'.counters.discardedTransitions =
        s.counters.discardedTransitions + s.ring.count)
      (launched : launched s s' = none) (flight : s'.inFlight = 0)
      (answered : answered s a = if s.inFlight = 1 then some result else none)

theorem launched_eq_none (h : s'.worker = s.worker) : launched s s' = none := by
  unfold launched
  rw [h]
  cases s.worker <;> rfl

theorem inFlight_congr (h : s'.worker = s.worker) : s'.inFlight = s.inFlight := by
  unfold Impl.inFlight
  rw [h]

theorem Impl.inFlight_cases (s : Impl) : s.inFlight = 0 ∨ s.inFlight = 1 := by
  unfold Impl.inFlight
  split
  · split <;> simp
  · simp

variable {a : Label}

/-- A section of a registration that has nothing to record. -/
theorem DeliveryStep.of_quiet (hgrown : Grown s s') (hring : s'.ring = s.ring)
    (hdiscarded : s'.counters.discardedTransitions = s.counters.discardedTransitions)
    (hquiet : s'.recovering = s.recovering ∧ s'.live = s.live) (hworker : s'.worker = s.worker)
    (hanswered : answered s a = none) : DeliveryStep s a s' :=
  .stay hgrown (by rw [hring]) hdiscarded hquiet (launched_eq_none hworker)
    (inFlight_congr hworker) hanswered

/-! ### Registrations -/

variable {id : SlotId}

theorem revision_setSlot {slot : Slot} (h : (s.heap id).revision ≤ slot.revision) (id' : SlotId) :
    (s.heap id').revision ≤ ((s.setSlot id slot).heap id').revision := by
  by_cases heq : id' = id
  · subst heq
    simpa [Impl.setSlot] using h
  · simp [Impl.setSlot, Function.update_of_ne heq]

theorem grown_setSlot {slot : Slot} (h : (s.heap id).revision ≤ slot.revision) :
    Grown s (s.setSlot id slot) :=
  .of_heap rfl rfl (revision_setSlot h)

theorem deliveryStep_prepare (s : Impl) (name : String) (state : AlarmState) :
    DeliveryStep s (.prepare name state) (s.prepare name state) := by
  unfold Impl.prepare
  split
  · exact .of_quiet (SameSlots.refl s).grown rfl rfl ⟨rfl, rfl⟩ rfl rfl
  · refine .of_quiet ⟨Nat.le_succ _, ?_, ?_⟩ rfl ?_ ⟨rfl, rfl⟩ rfl rfl
    · intro id hid
      have hne : id ≠ s.nextId + 1 := Nat.ne_of_lt (Nat.lt_succ_of_le hid)
      simp [Function.update_of_ne hne]
    · intro id hid
      rcases List.mem_append.mp hid with hold | hnew
      · exact .inl hold
      · exact .inr (le_of_eq (List.mem_singleton.mp hnew))
    · dsimp only
      split <;> rfl

theorem deliveryStep_activate (s : Impl) (id : SlotId) :
    DeliveryStep s (.activate id) (s.activate id) := by
  unfold Impl.activate
  dsimp only
  split
  · exact .of_quiet (grown_setSlot (le_refl _)) rfl rfl ⟨rfl, rfl⟩ rfl rfl
  · exact .of_quiet (SameSlots.refl s).grown rfl rfl ⟨rfl, rfl⟩ rfl rfl

theorem deliveryStep_remove (s : Impl) (id : SlotId) :
    DeliveryStep s (.remove id) (s.remove id) := by
  have hretire : Grown s (s.retire id) := grown_setSlot (le_refl _)
  refine .of_quiet ⟨hretire.nextId, hretire.revision, ?_⟩ rfl rfl ⟨rfl, rfl⟩ rfl rfl
  intro id' hid'
  exact .inl (List.mem_of_mem_erase hid')

/-! ### `update` -/

/-- The publisher after the first half of `update`. -/
def Impl.noted (s : Impl) (id : SlotId) (state : AlarmState) : Impl :=
  let (encoded, truncated) := encode state
  let s := s.setSlot id { s.heap id with latest := encoded, revision := (s.heap id).revision + 1 }
  if truncated then
    { s with counters :=
      { s.counters with messagesTruncated := s.counters.messagesTruncated + 1 } }
  else s

/-- What `noted` leaves alone. -/
theorem noted_frame (s : Impl) (id : SlotId) (state : AlarmState) :
    (s.noted id state).ring = s.ring ∧ (s.noted id state).live = s.live ∧
    (s.noted id state).recovering = s.recovering ∧ (s.noted id state).worker = s.worker ∧
    (s.noted id state).enabled = s.enabled ∧ (s.noted id state).nextId = s.nextId ∧
    (s.noted id state).slots = s.slots ∧ (s.noted id state).names = s.names ∧
    (s.noted id state).counters.discardedTransitions = s.counters.discardedTransitions ∧
    (s.noted id state).counters.coalescedUpdates = s.counters.coalescedUpdates := by
  unfold Impl.noted
  dsimp only
  split <;> exact ⟨rfl, rfl, rfl, rfl, rfl, rfl, rfl, rfl, rfl, rfl⟩

theorem noted_heap (s : Impl) (id : SlotId) (state : AlarmState) :
    (s.noted id state).heap = Function.update s.heap id
      { s.heap id with latest := (encode state).1, revision := (s.heap id).revision + 1 } := by
  unfold Impl.noted
  dsimp only
  split <;> rfl

theorem grown_noted (s : Impl) (id : SlotId) (state : AlarmState) :
    Grown s (s.noted id state) := by
  obtain ⟨-, -, -, -, -, hnext, hslots, -⟩ := noted_frame s id state
  refine .of_heap hnext hslots fun id' => ?_
  rw [noted_heap]
  by_cases heq : id' = id
  · subst heq
    simp
  · simp [Function.update_of_ne heq]

/-- Being current does not depend on the state of a slot. -/
theorem noted_current (s : Impl) (id id' : SlotId) (state : AlarmState) :
    (s.noted id state).current id' = s.current id' := by
  obtain ⟨-, -, -, -, -, -, -, hnames, -⟩ := noted_frame s id state
  have hflags : ∀ id', ((s.noted id state).heap id').active = (s.heap id').active ∧
      ((s.noted id state).heap id').retired = (s.heap id').retired ∧
      ((s.noted id state).heap id').name = (s.heap id').name := by
    intro id'
    rw [noted_heap]
    by_cases heq : id' = id
    · subst heq
      simp
    · simp [Function.update_of_ne heq]
  have hserving : (s.noted id state).serving = s.serving := by
    funext id'
    unfold Impl.serving
    rw [(hflags id').1, (hflags id').2.1]
  unfold Impl.current
  rw [hserving, hnames, (hflags id').2.2]

theorem update_eq (s : Impl) (id : SlotId) (state : AlarmState) (stamp : Int) :
    s.update id state stamp =
      if s.stopping || (s.heap id).retired || (s.heap id).latest == (encode state).1 then s
      else if (s.noted id state).enabled && (s.noted id state).current id then
        (s.noted id state).record id stamp
      else s.noted id state := rfl

/-- `record` either appends or coalesces. -/
inductive Recorded (s : Impl) (id : SlotId) (stamp : Int) (s' : Impl) : Prop where
  | append (open' : s.live = true ∧ s.recovering = false)
      (ring : s'.ring.toList = s.ring.toList ++ [s.snapshot id stamp])
      (rest : s' = { s with ring := s'.ring })
  | coalesce (ring : s'.ring = s.ring)
      (rest : s' = { s with counters := { s.counters with
        coalescedUpdates := s.counters.coalescedUpdates + 1 } })
  | overflow (ring : s'.ring.toList = [])
      (rest : s' = { s with
        ring := s'.ring
        epoch := s.epoch + 1
        recovering := true
        counters := { s.counters with
          coalescedUpdates := s.counters.coalescedUpdates + 1
          discardedTransitions := s.counters.discardedTransitions + s.ring.count } })

theorem recorded_record (s : Impl) (id : SlotId) (stamp : Int) :
    Recorded s id stamp (s.record id stamp) := by
  unfold Impl.record
  split
  · rename_i hopen
    simp only [Bool.and_eq_true, Bool.not_eq_true', decide_eq_true_eq] at hopen
    exact .append hopen.1 (RingBuffer.toList_push _ _ hopen.2) rfl
  · dsimp only
    split
    · exact .overflow (RingBuffer.toList_discard _) rfl
    · exact .coalesce rfl rfl

theorem deliveryStep_update (hid : id ≤ s.nextId) (state : AlarmState) (stamp : Int) :
    DeliveryStep s (.update id state stamp) (s.update id state stamp) := by
  obtain ⟨hring, hlive, hrecovering, hworker, henabled, hnext, hslots, hnames, hdiscarded, -⟩ :=
    noted_frame s id state
  have hgrown := grown_noted s id state
  rw [update_eq]
  split
  · exact .of_quiet (SameSlots.refl s).grown rfl rfl ⟨rfl, rfl⟩ rfl rfl
  split
  · generalize ht : (s.noted id state).record id stamp = t
    have hrecorded := recorded_record (s.noted id state) id stamp
    rw [ht] at hrecorded
    have hrest : Grown s t ∧ t.worker = s.worker := by
      cases hrecorded <;> rename_i hrest <;> rw [hrest] <;>
        exact ⟨⟨hgrown.nextId, hgrown.revision, hgrown.slots⟩, hworker⟩
    obtain ⟨hgrown', hworker'⟩ := hrest
    cases hrecorded with
    | append hopen hpush hrest =>
      refine .append ((s.noted id state).snapshot id stamp) hgrown' (hring ▸ hpush)
        (hid.trans hgrown'.nextId) ?_ ?_ ?_ (launched_eq_none hworker') (inFlight_congr hworker') rfl
      all_goals rw [hrest]
      · rfl
      · exact hdiscarded
      · exact ⟨hopen.2, hopen.1⟩
    | coalesce hring' hrest =>
      rw [hrest] at hgrown' ⊢
      exact .of_quiet hgrown' hring hdiscarded ⟨hrecovering, hlive⟩ hworker rfl
    | overflow hempty hrest =>
      refine .empty hgrown' hempty ?_ (by rw [launched_eq_none hworker']; rfl)
        (inFlight_congr hworker') rfl
      rw [hrest, ← hring, ← hdiscarded]
  · exact .of_quiet hgrown hring hdiscarded ⟨hrecovering, hlive⟩ hworker rfl

/-! ### The worker -/

/-- What the popping loop does besides popping: it counts what it drops. -/
theorem takeCurrent_discards (n : Nat) (s : Impl) :
    (Impl.takeCurrent n s).1.counters.discardedTransitions + (Impl.takeCurrent n s).1.ring.count +
      (Impl.takeCurrent n s).2.toList.length = s.counters.discardedTransitions + s.ring.count ∧
    (Impl.takeCurrent n s).1.recovering = s.recovering ∧
    (Impl.takeCurrent n s).1.live = s.live := by
  induction n generalizing s with
  | zero => exact ⟨rfl, rfl, rfl⟩
  | succ n ih =>
    unfold Impl.takeCurrent
    cases hpop : s.ring.pop with
    | none => exact ⟨rfl, rfl, rfl⟩
    | some out =>
      obtain ⟨e, ring⟩ := out
      have hcount := RingBuffer.count_pop hpop
      dsimp only
      split
      · refine ⟨?_, rfl, rfl⟩
        simp only [Option.toList_some, List.length_singleton]
        omega
      · obtain ⟨hsum, hrecovering, hlive⟩ := ih { s with
          ring := ring
          counters := { s.counters with
            discardedTransitions := s.counters.discardedTransitions + 1 } }
        refine ⟨?_, hrecovering, hlive⟩
        rw [hsum]
        dsimp only
        omega

/-- The part of a turn that follows an empty ring sends the snapshot of a slot, or
    nothing, or a `PING`. -/
inductive Reconciled (s s' : Impl) : Prop where
  | send (id : SlotId) (stamp : Int) (known : id ∈ s.slots)
      (worker : s'.worker = .sending {
        selected := some (s.snapshot id stamp), reconciliation := true, epoch := s.epoch })
  | idle (worker : s'.worker = s.worker ∨ s'.worker = .sending {
        selected := none, reconciliation := false, epoch := s.epoch })

theorem reconciled_reconcile (s : Impl) (now : Time) (stamp : Int) :
    Reconciled s (s.reconcile now stamp) ∧ SameSlots s (s.reconcile now stamp) ∧
    (s.reconcile now stamp).ring = s.ring ∧ (s.reconcile now stamp).counters = s.counters := by
  unfold Impl.reconcile
  split
  · rename_i id hfind
    have hid : id ∈ s.slots := by
      have hmem := List.mem_of_find?_eq_some hfind
      simp only [Impl.rotation, List.mem_append, List.mem_filter] at hmem
      exact hmem.elim And.left And.left
    exact ⟨.send id stamp hid rfl, ⟨rfl, rfl, rfl, rfl, rfl, rfl⟩, rfl, rfl⟩
  · dsimp only
    split_ifs
    · exact ⟨.idle (.inl rfl), ⟨rfl, rfl, rfl, rfl, rfl, rfl⟩, rfl, rfl⟩
    · exact ⟨.idle (.inr rfl), ⟨rfl, rfl, rfl, rfl, rfl, rfl⟩, rfl, rfl⟩
    · exact ⟨.idle (.inl rfl), ⟨rfl, rfl, rfl, rfl, rfl, rfl⟩, rfl, rfl⟩
    · exact ⟨.idle (.inr rfl), ⟨rfl, rfl, rfl, rfl, rfl, rfl⟩, rfl, rfl⟩

theorem launched_sending {flight : Flight} (hs : s.worker = .looping)
    (hs' : s'.worker = .sending flight) : launched s s' = some flight := by
  unfold launched
  rw [hs, hs']

theorem inFlight_looping (h : s.worker = .looping) : s.inFlight = 0 := by
  unfold Impl.inFlight
  rw [h]

theorem inFlight_sending {flight : Flight} (h : s.worker = .sending flight) :
    s.inFlight = if flight.fromRing then 1 else 0 := by
  unfold Impl.inFlight
  rw [h]

theorem deliveryStep_turn {now now' : Time} {stamp : Int} (h : s.turn now now' stamp = some s') :
    DeliveryStep s (.turn now now' stamp) s' := by
  unfold Impl.turn at h
  split at h
  · rename_i hlooping
    split at h
    · cases h
      refine .stay (.of_heap rfl rfl fun _ => le_refl _) rfl rfl ⟨rfl, rfl⟩ ?_ ?_ rfl
      · simp [launched, hlooping]
      · simp [Impl.inFlight, hlooping]
    split at h
    · cases h
      exact .of_quiet (SameSlots.refl s).grown rfl rfl ⟨rfl, rfl⟩ rfl rfl
    obtain ⟨hsame, hworker, hsome, hnone⟩ := takeCurrent_spec (le_refl s.ring.count)
    obtain ⟨hsum, hrecovering, hlive⟩ := takeCurrent_discards s.ring.count s
    generalize Impl.takeCurrent s.ring.count s = out at *
    obtain ⟨t, event⟩ := out
    dsimp only at *
    cases event with
    | some e =>
      cases h
      obtain ⟨-, dropped, hlist⟩ := hsome e rfl
      have hlength := congrArg List.length hlist
      simp only [List.length_append, List.length_cons, RingBuffer.length_toList] at hlength
      simp only [Option.toList_some, List.length_singleton] at hsum
      have hafter : (t.launch (some e) false).worker = .sending {
        selected := some e, reconciliation := false, epoch := t.epoch } := rfl
      refine .take e dropped _ ⟨hsame.heap, hsame.names, hsame.slots, hsame.nextId, hsame.sink,
        hsame.epoch⟩ hlist ?_ ⟨hrecovering, hlive⟩ (launched_sending hlooping hafter) rfl rfl
        (inFlight_looping hlooping) (inFlight_sending hafter) rfl
      show t.counters.discardedTransitions = _
      omega
    | none =>
      cases h
      have hempty := hnone rfl
      obtain ⟨hreconciled, hsame', hring, hcounters⟩ := reconciled_reconcile t now' stamp
      have hgrown : Grown s (t.reconcile now' stamp) := by
        have hsame'' : SameSlots s (t.reconcile now' stamp) :=
          ⟨hsame'.heap.trans hsame.heap, hsame'.names.trans hsame.names,
            hsame'.slots.trans hsame.slots, hsame'.nextId.trans hsame.nextId,
            hsame'.sink.trans hsame.sink, hsame'.epoch.trans hsame.epoch⟩
        exact hsame''.grown
      have hdiscarded : (t.reconcile now' stamp).counters.discardedTransitions =
          s.counters.discardedTransitions + s.ring.count := by
        rw [hcounters]
        rw [RingBuffer.toList_eq_nil_iff] at hempty
        simp only [Option.toList_none, List.length_nil] at hsum
        omega
      cases hreconciled with
      | send id stamp' hid hsending =>
        refine .reconcile (t.snapshot id stamp') _ hgrown (by rw [hring]; exact hempty)
          (hsame.slots ▸ hid) ?_ hdiscarded (launched_sending hlooping hsending) rfl rfl
          (inFlight_looping hlooping) (inFlight_sending hsending) rfl
        rw [hsame'.heap]
        rfl
      | idle hidle =>
        have hno : (launched s (t.reconcile now' stamp)).bind Flight.selected = none ∧
            (t.reconcile now' stamp).inFlight = s.inFlight := by
          rcases hidle with hkept | hping
          · have hkept' := hkept.trans hworker
            exact ⟨by rw [launched_eq_none hkept']; rfl, inFlight_congr hkept'⟩
          · exact ⟨by rw [launched_sending hlooping hping]; rfl,
              by rw [inFlight_sending hping, inFlight_looping hlooping]; rfl⟩
        exact .empty hgrown (by rw [hring]; exact hempty) hdiscarded hno.1 hno.2 rfl
  · cases h

theorem deliveryStep_append (h : s.append = some s') :
    DeliveryStep s .append s' := by
  unfold Impl.append at h
  split at h
  · rename_i flight hsending
    split at h
    · cases h
      refine .stay (.of_heap rfl rfl fun _ => le_refl _) rfl rfl ⟨rfl, rfl⟩ ?_ ?_ rfl
      · simp [launched, hsending]
      · simp [Impl.inFlight, hsending, Flight.fromRing]
    · cases h
  · cases h

/-- Booking an acceptance touches counters and what a slot knows about its deliveries. -/
theorem book_frame (s : Impl) (flight : Flight) :
    Grown s (s.book flight) ∧ (s.book flight).ring = s.ring ∧
    (s.book flight).worker = s.worker ∧ (s.book flight).recovering = s.recovering ∧
    (s.book flight).live = s.live ∧
    (s.book flight).counters.discardedTransitions = s.counters.discardedTransitions := by
  unfold Impl.book
  split
  · exact ⟨(SameSlots.refl s).grown, rfl, rfl, rfl, rfl, rfl⟩
  · rename_i event _
    dsimp only
    split
    · have hgrown : Grown s ((s.countSent flight.reconciliation).markDelivered event
          flight.epoch) :=
        .of_heap rfl rfl (revision_setSlot (s := s) (le_refl _))
      exact ⟨hgrown, rfl, rfl, rfl, rfl, rfl⟩
    · exact ⟨.of_heap rfl rfl fun _ => le_refl _, rfl, rfl, rfl, rfl, rfl⟩

theorem deliveryStep_reply {result : SendResult} {now now' : Time}
    (h : s.reply result now now' = some s') : DeliveryStep s (.reply result now now') s' := by
  unfold Impl.reply at h
  split at h
  · rename_i flight hsending
    split at h
    · have hbefore := inFlight_sending hsending
      have hanswered : answered s (.reply result now now') =
          if s.inFlight = 1 then some result else none := by
        rw [hbefore]
        simp only [answered, hsending]
        cases flight.fromRing <;> simp
      have hlaunched : ∀ t : Impl, launched s t = none := by
        intro t
        unfold launched
        rw [hsending]
      have hfail : ∀ rejected, result ≠ .accepted → DeliveryStep s (.reply result now now')
          (Impl.fail { s with worker := .looping, heartbeat := now + s.options.heartbeatMs }
            rejected now') := by
        intro rejected hne
        cases rejected <;>
          exact .failed result hne (.of_heap rfl rfl fun _ => le_refl _)
            (RingBuffer.toList_discard _) rfl (hlaunched _) (inFlight_looping rfl) hanswered
      cases result with
      | accepted =>
        cases h
        obtain ⟨hgrown, hring, hworker, hrecovering, hlive, hdiscarded⟩ := book_frame { s with
          worker := .looping
          heartbeat := now + s.options.heartbeatMs
          live := true
          counters := { s.counters with lastError := "" } } flight
        exact .accepted ⟨hgrown.nextId, hgrown.revision, hgrown.slots⟩ (by rw [hring]) hdiscarded
          ⟨hrecovering, hlive⟩ (hlaunched _) (inFlight_looping hworker) hanswered
      | rejected =>
        cases h
        exact hfail true (by simp)
      | unavailable =>
        cases h
        exact hfail false (by simp)
    · cases h
  · cases h

theorem step_deliveryStep (hbound : ∀ id ∈ s.slots, id ≤ s.nextId)
    (h : machine.step s a = some s') : DeliveryStep s a s' := by
  change step s a = some s' at h
  have hin : ∀ {id : SlotId} {t : Impl}, (if id ∈ s.slots then some t else none) = some s' →
      id ∈ s.slots ∧ t = s' := by
    intro id t hite
    split at hite
    · rename_i hid
      exact ⟨hid, Option.some.inj hite⟩
    · cases hite
  cases a with
  | enable =>
    cases h
    exact .of_quiet (.of_heap rfl rfl fun _ => le_refl _) rfl rfl ⟨rfl, rfl⟩ rfl rfl
  | prepare name state =>
    cases h
    exact deliveryStep_prepare s name state
  | activate id =>
    obtain ⟨-, rfl⟩ := hin h
    exact deliveryStep_activate s id
  | update id state stamp =>
    obtain ⟨hid, rfl⟩ := hin h
    exact deliveryStep_update (hbound id hid) state stamp
  | retire id =>
    obtain ⟨-, rfl⟩ := hin h
    exact .of_quiet (grown_setSlot (le_refl _)) rfl rfl ⟨rfl, rfl⟩ rfl rfl
  | remove id =>
    obtain ⟨-, rfl⟩ := hin h
    exact deliveryStep_remove s id
  | turn now now' stamp => exact deliveryStep_turn h
  | append => exact deliveryStep_append h
  | reply result now now' => exact deliveryStep_reply h
  | stop =>
    cases h
    exact .of_quiet (.of_heap rfl rfl fun _ => le_refl _) rfl rfl ⟨rfl, rfl⟩ rfl rfl

/-! ## The invariant -/

/-- What the observer notes about the ring, for a step that appends `added` or removes
    `gone`. -/
theorem note_ring (s : Impl) (a : Label) (s' : Impl) (r : Ledger) (added gone : List Event)
    (h : s.ring.toList ++ added = gone ++ s'.ring.toList) (hone : added = [] ∨ gone = []) :
    (note s a s' r).appended = r.appended ++ added ∧ (note s a s' r).left = r.left ++ gone := by
  have hlength := congrArg List.length h
  simp only [List.length_append, RingBuffer.length_toList] at hlength
  have hadded : s'.ring.toList.drop s.ring.count = added := by
    rcases hone with rfl | rfl
    · apply List.drop_eq_nil_of_le
      simp only [RingBuffer.length_toList, List.length_nil] at hlength ⊢
      omega
    · rw [List.nil_append] at h
      rw [← h, ← RingBuffer.length_toList, List.drop_left]
  have hgone : s.ring.toList.take (s.ring.count + added.length - s'.ring.count) = gone := by
    have hcount : s.ring.count + added.length - s'.ring.count = gone.length := by omega
    rw [hcount]
    rcases hone with rfl | rfl
    · rw [List.append_nil] at h
      rw [h, List.take_left]
    · rfl
  unfold note
  dsimp only
  rw [hadded, hgone]
  exact ⟨rfl, rfl⟩

/-- Of two events of one slot the later one has the greater revision, or the same. -/
def InOrder (e e' : Event) : Prop := e.slot = e'.slot → e.revision ≤ e'.revision

/-- What has been sent and what is still in the ring, in this order: no event is newer than
    its slot, and none comes before an older one. -/
structure Trail (s : Impl) (events : List Event) : Prop where
  known : ∀ e ∈ events, e.slot ≤ s.nextId ∧ e.revision ≤ (s.heap e.slot).revision
  order : events.Pairwise InOrder

theorem Trail.grown {events events' : List Event} (h : Trail s events) (hgrown : Grown s s')
    (hsub : events'.Sublist events) : Trail s' events' := by
  refine ⟨?_, h.order.sublist hsub⟩
  intro e he
  obtain ⟨hslot, hrevision⟩ := h.known e (hsub.subset he)
  exact ⟨hslot.trans hgrown.nextId, hrevision.trans (hgrown.revision _ hslot)⟩

/-- An event with the newest revision of its slot may follow. -/
theorem Trail.concat {events : List Event} (h : Trail s events) {e : Event}
    (hslot : e.slot ≤ s.nextId) (hrevision : e.revision = (s.heap e.slot).revision) :
    Trail s (events ++ [e]) := by
  refine ⟨?_, ?_⟩
  · intro e' he'
    rcases List.mem_append.mp he' with hold | hnew
    · exact h.known e' hold
    · obtain rfl := List.mem_singleton.mp hnew
      exact ⟨hslot, le_of_eq hrevision⟩
  · refine List.pairwise_append.mpr ⟨h.order, List.pairwise_singleton _ _, ?_⟩
    intro e' he' e'' he'' hsame
    obtain rfl := List.mem_singleton.mp he''
    rw [hrevision, ← hsame]
    exact (h.known e' he').2

structure Delivery (s : Impl) (r : Ledger) : Prop where
  bound : ∀ id ∈ s.slots, id ≤ s.nextId
  quiet : s.recovering = true ∨ s.live = false → s.ring.toList = []
  fifo : r.appended = r.left ++ s.ring.toList
  fromRing : r.sentFromRing.Sublist r.left
  gone : r.left.length = r.sentFromRing.length + s.counters.discardedTransitions
  answers : r.sentFromRing.length = r.accepted + r.failed + s.inFlight
  trail : Trail s (r.sent ++ s.ring.toList)

theorem delivery_start (h : machine.start s) : Delivery s {} := by
  obtain ⟨options, hvalid, now, rfl⟩ := h
  refine ⟨?_, fun _ => rfl, rfl, List.Sublist.refl _, rfl, rfl, ?_, List.Pairwise.nil⟩
  · intro id hid
    cases hid
  · intro e he
    cases he

variable {r : Ledger}

theorem Delivery.bound_grown (hs : Delivery s r) (h : Grown s s') :
    ∀ id ∈ s'.slots, id ≤ s'.nextId := by
  intro id hid
  rcases h.slots id hid with hold | hnew
  · exact (hs.bound id hold).trans h.nextId
  · exact hnew

/-- A step that appends `added` to the ring or takes `gone` out of it, of which `sent` is handed
    to the stream. -/
theorem Delivery.moved (hs : Delivery s r) (hgrown : Grown s s') (added gone sent : List Event)
    (hring : s.ring.toList ++ added = gone ++ s'.ring.toList) (hone : added = [] ∨ gone = [])
    (hquiet : s'.recovering = true ∨ s'.live = false → s'.ring.toList = [])
    (hsent : (note s a s' r).sentFromRing = r.sentFromRing ++ sent) (hsub : sent.Sublist gone)
    (hdiscarded : s'.counters.discardedTransitions + sent.length =
      s.counters.discardedTransitions + gone.length)
    (hanswers : (note s a s' r).accepted + (note s a s' r).failed + s'.inFlight =
      r.accepted + r.failed + s.inFlight + sent.length)
    (htrail : Trail s' ((note s a s' r).sent ++ s'.ring.toList)) : Delivery s' (note s a s' r) := by
  obtain ⟨happended, hleft⟩ := note_ring s a s' r added gone hring hone
  refine ⟨hs.bound_grown hgrown, hquiet, ?_, ?_, ?_, ?_, htrail⟩
  · rw [happended, hleft, hs.fifo, List.append_assoc, hring, List.append_assoc]
  · rw [hleft, hsent]
    exact hs.fromRing.append hsub
  · rw [hleft, hsent, List.length_append, List.length_append, hs.gone]
    omega
  · rw [hanswers, hsent, List.length_append, hs.answers]

theorem delivery_step (hs : Delivery s r) (h : machine.step s a = some s') :
    Delivery s' (note s a s' r) := by
  have htrail := hs.trail
  cases step_deliveryStep hs.bound h with
  | stay grown ring discarded quiet launched flight answered =>
    refine hs.moved grown [] [] [] (by simp [ring]) (.inl rfl) ?_
      (by simp [note, launched]) (by simp) (by simp [discarded]) (by simp [note, answered, flight]) ?_
    · rw [quiet.1, quiet.2, ring]
      exact hs.quiet
    · rw [ring]
      exact htrail.grown grown (by simp [note, launched])
  | append e grown ring known revision discarded quiet launched flight answered =>
    refine hs.moved grown [e] [] [] (by simp [ring]) (.inr rfl)
      (by simp [quiet]) (by simp [note, launched]) (by simp) (by simp [discarded])
      (by simp [note, answered, flight]) ?_
    rw [ring, ← List.append_assoc]
    exact (htrail.grown grown (by simp [note, launched])).concat known revision
  | empty grown ring discarded launched flight answered =>
    have hsent : (note s a s' r).sentFromRing = r.sentFromRing := by
      cases hl : RedisPvxsIoc.Alarm.launched s s' with
      | none => simp [note, hl]
      | some f =>
        rw [hl] at launched
        have hnone : f.selected = none := launched
        simp [note, hl, Flight.fromRing, hnone, Option.filter]
    refine hs.moved grown [] s.ring.toList [] (by simp [ring]) (.inl rfl) (fun _ => ring)
      (by simp [hsent]) (by simp) (by simp [discarded]) (by simp [note, answered, flight]) ?_
    rw [ring]
    exact htrail.grown grown (by simp [note, launched])
  | take e dropped flight same ring discarded quiet launched selected fromRing before after answered =>
    refine hs.moved same.grown [] (dropped ++ [e]) [e] (by simp [ring])
      (.inl rfl) ?_ (by simp [note, launched, fromRing, selected, Option.filter]) (by simp)
      (by simp [discarded, Nat.add_assoc]) (by simp [note, answered, before, after]) ?_
    · rw [quiet.1, quiet.2]
      intro hquiet
      rw [hs.quiet hquiet] at ring
      simp at ring
    · refine htrail.grown same.grown ?_
      rw [ring]
      simp [note, launched, selected]
  | reconcile e flight grown ring known revision discarded launched selected fromRing before after
      answered =>
    refine hs.moved grown [] s.ring.toList [] (by simp [ring]) (.inl rfl) (fun _ => ring)
      (by simp [note, launched, fromRing, Option.filter]) (by simp) (by simp [discarded])
      (by simp [note, answered, before, after]) ?_
    have hkept : Trail s' r.sent := htrail.grown grown (List.sublist_append_left _ _)
    rw [ring]
    simpa [note, launched, selected] using hkept.concat ((hs.bound _ known).trans grown.nextId) revision
  | accepted grown ring discarded quiet launched flight answered =>
    refine hs.moved grown [] [] [] (by simp [ring]) (.inl rfl) ?_
      (by simp [note, launched]) (by simp) (by simp [discarded]) ?_ ?_
    · rw [quiet.1, quiet.2, ring]
      simpa using fun hrecovering => hs.quiet (.inl hrecovering)
    · rcases s.inFlight_cases with hzero | hone <;> simp [note, *]
      omega
    · rw [ring]
      exact htrail.grown grown (by simp [note, launched])
  | failed result ne grown ring discarded launched flight answered =>
    refine hs.moved grown [] s.ring.toList [] (by simp [ring]) (.inl rfl) (fun _ => ring)
      (by simp [note, launched]) (by simp) (by simp [discarded]) ?_ ?_
    · rcases s.inFlight_cases with hzero | hone <;> simp [note, *]
      omega
    · rw [ring]
      exact htrail.grown grown (by simp [note, launched])

theorem delivery_exec {s₀ : Impl} {as : List Label} (h₀ : machine.start s₀)
    (hrun : machine.exec s₀ as = some s) : Delivery s (ledger s₀ as) :=
  machine.exec_record_invariant (P := Delivery) (fun _ _ _ _ => delivery_step)
    (delivery_start h₀) hrun

/-! ## Every transition is accounted for -/

/-- An update that changes the state of a current slot is appended or coalesced. -/
theorem update_recorded {state : AlarmState} {stamp : Int} (r : Ledger)
    (h : machine.step s (.update id state stamp) = some s') (henabled : s.enabled = true)
    (hstopping : s.stopping = false) (hcurrent : s.current id = true)
    (hretired : (s.heap id).retired = false) (hchanged : (s.heap id).latest ≠ (encode state).1) :
    ((note s (.update id state stamp) s' r).appended = r.appended ++ [s'.snapshot id stamp] ∧
      s'.counters.coalescedUpdates = s.counters.coalescedUpdates) ∨
    ((note s (.update id state stamp) s' r).appended = r.appended ∧
      s'.counters.coalescedUpdates = s.counters.coalescedUpdates + 1) := by
  obtain ⟨hring, -, -, -, henabled', -, -, -, -, hcoalesced⟩ := noted_frame s id state
  have hs' : s' = (s.noted id state).record id stamp := by
    change (if id ∈ s.slots then some (s.update id state stamp) else none) = some s' at h
    split at h
    · rw [update_eq] at h
      simpa [hstopping, hretired, hchanged, henabled', henabled, noted_current, hcurrent] using
        h.symm
    · cases h
  have hrecorded := recorded_record (s.noted id state) id stamp
  rw [← hs'] at hrecorded
  cases hrecorded with
  | append hopen hpush hrest =>
    rw [hring] at hpush
    obtain ⟨happended, -⟩ := note_ring s (.update id state stamp) s' r [s'.snapshot id stamp] []
      (by rw [hpush, hrest]; rfl) (.inr rfl)
    refine .inl ⟨happended, ?_⟩
    rw [hrest]
    exact hcoalesced
  | coalesce hkept hrest =>
    obtain ⟨happended, -⟩ := note_ring s (.update id state stamp) s' r [] []
      (by rw [hkept, hring]; simp) (.inl rfl)
    refine .inr ⟨by simpa using happended, ?_⟩
    rw [hrest, ← hcoalesced]
  | overflow hempty hrest =>
    obtain ⟨happended, -⟩ := note_ring s (.update id state stamp) s' r [] s.ring.toList
      (by rw [hempty]) (.inl rfl)
    refine .inr ⟨by simpa using happended, ?_⟩
    rw [hrest, ← hcoalesced]

/-- What is known about a publisher and the ledger of the run that led to it. -/
structure TransitionsAccounted (s : Impl) (r : Ledger) : Prop where
  /-- Whatever `update` is called next, it is appended or counted as coalesced. -/
  updates : ∀ id state stamp s', machine.step s (.update id state stamp) = some s' →
    s.enabled = true → s.stopping = false → s.current id = true → (s.heap id).retired = false →
    (s.heap id).latest ≠ (encode state).1 →
    ((note s (.update id state stamp) s' r).appended = r.appended ++ [s'.snapshot id stamp] ∧
      s'.counters.coalescedUpdates = s.counters.coalescedUpdates) ∨
    ((note s (.update id state stamp) s' r).appended = r.appended ∧
      s'.counters.coalescedUpdates = s.counters.coalescedUpdates + 1)
  balance : r.appended.length = r.accepted + r.failed + s.counters.discardedTransitions +
    s.ring.count + s.inFlight
  /-- The ring holds what has been appended and has not left, in this order. -/
  fifo : r.appended = r.left ++ s.ring.toList
  /-- Every event from the ring is sent once, in the order of the ring. -/
  once : r.sentFromRing.Sublist r.left
  revisions : ∀ id, ((r.sent.filter fun e => e.slot = id).map Event.revision).Pairwise (· ≤ ·)
  count_le : s.ring.count ≤ s.ring.size
  quiet : s.recovering = true ∨ s.live = false → s.ring.count = 0

/-- **Transitions are accounted for**, at the end of every run. -/
theorem transitions_accounted {s₀ s : Impl} {as : List Label} (h₀ : machine.start s₀)
    (hrun : machine.exec s₀ as = some s) : TransitionsAccounted s (ledger s₀ as) := by
  have hs := delivery_exec h₀ hrun
  refine ⟨?_, ?_, hs.fifo, hs.fromRing, ?_, s.ring.count_le, ?_⟩
  · intro id state stamp s' hstep henabled hstopping hcurrent hretired hchanged
    exact update_recorded _ hstep henabled hstopping hcurrent hretired hchanged
  · have hgone := hs.gone
    have hanswers := hs.answers
    rw [hs.fifo, List.length_append, RingBuffer.length_toList]
    omega
  · intro id
    have hsent : (ledger s₀ as).sent.Pairwise InOrder :=
      hs.trail.order.sublist (List.sublist_append_left _ _)
    refine List.pairwise_map.mpr ((hsent.filter _).imp_of_mem ?_)
    intro e e' he he' horder
    have hslot := of_decide_eq_true (List.mem_filter.mp he).2
    have hslot' := of_decide_eq_true (List.mem_filter.mp he').2
    exact horder (hslot.trans hslot'.symm)
  · intro hquiet
    exact (RingBuffer.toList_eq_nil_iff _).mp (hs.quiet hquiet)

/-- Two updates fill the ring, the third overflows it, and the request that was on its way
    fails: one event has been sent and two were discarded. -/
theorem transitions_accounted_overflow : ∃ s₀ as s, machine.start s₀ ∧
    machine.exec s₀ as = some s ∧ (ledger s₀ as).appended.length = 3 ∧
    (ledger s₀ as).failed = 1 ∧ s.counters.discardedTransitions = 2 ∧
    TransitionsAccounted s (ledger s₀ as) := by
  let s₀ : Impl := Impl.init { queueEntries := 2 }
    ⟨by decide, by decide, by decide, by decide, by decide⟩ 0
  let as : List Label := [.enable, .prepare "pv" {}, .activate 1, .turn 1 1 0, .append,
    .reply .accepted 2 2, .turn 3 3 0, .update 1 { severity := 1 } 4, .turn 5 5 0,
    .update 1 { severity := 2 } 6, .update 1 { severity := 3 } 7, .update 1 { severity := 2 } 8,
    .reply .unavailable 9 9]
  have h₀ : machine.start s₀ := ⟨_, _, _, rfl⟩
  have hrun : (machine.exec s₀ as).map (fun s => s.counters.discardedTransitions) = some 2 := by
    decide +kernel
  obtain ⟨s, hs, hdiscarded⟩ := Option.map_eq_some_iff.mp hrun
  exact ⟨s₀, as, s, h₀, hs, by decide +kernel, by decide +kernel, hdiscarded,
    transitions_accounted h₀ hs⟩

end RedisPvxsIoc.Alarm
