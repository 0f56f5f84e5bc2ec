import RedisPvxsIoc.Runtime.Fencing

/-!
# Confirmed Puts Rest on a Fresh Observation

A put on a PV with a `confirm` route succeeds when an entry of the confirmation stream shows
its value.  Nothing ties such an entry to the write except its stream ID and the epoch of the
source, so the argument follows the put through its life: the epoch is captured, then the last
ID of the stream, then the put is registered and written under one hold of the lock, and only
after that can an entry complete it.

`Routed` says which subscription may confirm, `Serial` that the lane runs one put at a time,
and `Tracked` what the log says of that put at each stage.

## Main results

- `routed_reachable`, `serial_reachable`, `confirming_reachable`
- `puts_confirmed`
-/

namespace RedisPvxsIoc.Runtime.Typed

open Config Foundations

set_option linter.unusedSectionVars false

variable {V Id : Type} [ValueType V] [LinearOrder Id]
variable {s s' : State V Id} {p q : PutId} {put : Put V Id} {log log' : List (Event V Id)}

/-! ## Which subscription confirms -/

theorem confirmationRoute_congr {c c' : PVConfig} (h : SameTopology c c') :
    State.confirmationRoute c = State.confirmationRoute c' := by
  unfold State.confirmationRoute
  rw [h.confirm, h.read]

theorem readConfirmsOf_congr {c c' : PVConfig} (h : SameTopology c c') :
    State.readConfirmsOf c = State.readConfirmsOf c' := by
  unfold State.readConfirmsOf
  rw [confirmationRoute_congr h, h.confirm]

/-- The subscriptions are those that the topology asks for; the one that confirms is lost only
    by retirement. -/
structure Routed (s : State V Id) : Prop where
  readConfirms : s.readConfirms = State.readConfirmsOf s.config
  reader : s.reader .confirm ≠ none → State.confirmationRoute s.config = .confirm
  deliveries : ∀ d ∈ s.deliveries, d.route = .confirm → State.confirmationRoute s.config = .confirm
  live : s.config.confirm.isSome = true → s.reader (State.confirmationRoute s.config) = none →
    s.alive = false ∧ s.retiring = none

/-- Steps that keep the topology and, but for retirement, the readers. -/
theorem Routed.of_same (h : Routed s) (hconfig : SameTopology s.config s'.config)
    (hreads : s'.readConfirms = s.readConfirms)
    (hreader : ∀ route, s'.reader route = none ↔ s.reader route = none)
    (hdeliveries : ∀ d ∈ s'.deliveries, d ∈ s.deliveries ∨ s.reader d.route ≠ none)
    (hlive : s.alive = false ∧ s.retiring = none → s'.alive = false ∧ s'.retiring = none) :
    Routed s' := by
  have hroute := confirmationRoute_congr hconfig
  refine ⟨?_, ?_, ?_, ?_⟩
  · rw [hreads, h.readConfirms, readConfirmsOf_congr hconfig]
  · rw [ne_eq, hreader, ← hroute]
    exact h.reader
  · intro d hd hr
    rw [← hroute]
    rcases hdeliveries d hd with hd | hd
    · exact h.deliveries d hd hr
    · exact h.reader (hr ▸ hd)
  · rw [← hconfig.confirm, ← hroute, hreader]
    exact fun hconfirm hnone => hlive (h.live hconfirm hnone)

/-- The same by computation, for steps that touch none of it. -/
theorem Routed.of_eq (h : Routed s) (hconfig : s'.config = s.config)
    (hreads : s'.readConfirms = s.readConfirms) (hreader : s'.reader = s.reader)
    (hdeliveries : ∀ d ∈ s'.deliveries, ∃ d' ∈ s.deliveries, d'.route = d.route)
    (halive : s'.alive = s.alive) (hretiring : s'.retiring = s.retiring) : Routed s' := by
  refine ⟨?_, ?_, ?_, ?_⟩
  · rw [hreads, hconfig]
    exact h.readConfirms
  · rw [hreader, hconfig]
    exact h.reader
  · intro d hd hr
    obtain ⟨d', hd', hroute⟩ := hdeliveries d hd
    rw [hconfig]
    exact h.deliveries d' hd' (hroute.trans hr)
  · rw [hconfig, hreader, halive, hretiring]
    exact h.live

theorem Routed.of_putFrame (h : Routed s) (hf : PutFrame s p s') : Routed s' :=
  h.of_eq hf.config hf.readConfirms hf.reader
    (fun d hd => ⟨d, hf.deliveries ▸ hd, rfl⟩) hf.alive hf.retiring

variable {d : Delivery V Id}

/-- An entry that may confirm comes from the confirmation route. -/
theorem Routed.route_eq (h : Routed s) (hd : d ∈ s.deliveries)
    (hcan : canConfirm s d.route = true) : d.route = State.confirmationRoute s.config := by
  cases hr : d.route with
  | read =>
    rw [hr, canConfirm, if_pos rfl, h.readConfirms] at hcan
    simp only [State.readConfirmsOf, Bool.and_eq_true, beq_iff_eq] at hcan
    exact hcan.2.symm
  | confirm => exact (h.deliveries d hd hr).symm

variable {route : Route} {r : Reader}

theorem routed_setReader (h : Routed s) (hr : s.reader route = some r) (r' : Reader) :
    Routed (s.setReader route r') := by
  refine h.of_same (.refl _) rfl ?_ (fun d hd => .inl hd) id
  intro x
  by_cases hx : x = route
  · subst hx
    rw [setReader_self, hr]
    simp
  · rw [setReader_ne s r' hx]

theorem routed_read (h : Routed s) (hr : s.reader route = some r)
    (hset : Routed (s.setReader route r.capture.1)) (entries : List (StreamEntry V Id))
    (metadata : StreamBatchMetadata) (readAt : Nat) :
    Routed { s.setReader route r.capture.1 with
      deliveries := s.deliveries ++
        [{ route := route, metadata := metadata, entries := entries, readAt := readAt }] } := by
  refine ⟨hset.readConfirms, hset.reader, ?_, hset.live⟩
  intro d hd hroute
  rcases List.mem_append.mp hd with hd | hd
  · exact h.deliveries d hd hroute
  · rw [List.mem_singleton.mp hd] at hroute
    have hconfirm : route = .confirm := hroute
    exact h.reader (by rw [← hconfirm, hr]; simp)

variable {now : Nat} {turn : State V Id × Bool} {entry : StreamEntry V Id}

theorem routed_delivered (h : Routed s) (hturn : Delivered s d entry now turn) : Routed turn.1 := by
  cases hturn with
  | stale hepoch => exact h.of_eq rfl rfl rfl (fun d hd => ⟨d, hd, rfl⟩) rfl rfl
  | accepted raw timestamp view pendingPuts hepoch hpayload htime hview hpending =>
    exact h.of_eq rfl rfl rfl (fun d hd => ⟨d, hd, rfl⟩) rfl rfl
  | rejected view error hepoch hview =>
    exact h.of_eq rfl rfl rfl (fun d hd => ⟨d, hd, rfl⟩) rfl rfl

theorem Delivered.puts (hturn : Delivered s d entry now turn) :
    turn.1.puts = s.puts := by
  cases hturn <;> rfl

/-- A batch that was handled in part is still a batch of its route. -/
theorem Routed.finishTurn (h : Routed s) (hd : d ∈ s.deliveries) (hturn : Routed turn.1)
    (hconfig : turn.1.config = s.config) (i : Nat) (rest : List (StreamEntry V Id)) :
    Routed (s.finishTurn i d rest turn) := by
  refine ⟨hturn.readConfirms, hturn.reader, ?_, hturn.live⟩
  intro d' hd' hroute
  show State.confirmationRoute turn.1.config = .confirm
  rw [hconfig]
  simp only [State.finishTurn] at hd'
  split at hd'
  · rcases List.mem_or_eq_of_mem_set hd' with hd' | rfl
    · exact h.deliveries d' hd' hroute
    · exact h.deliveries d hd hroute
  · exact h.deliveries d' (List.mem_of_mem_eraseIdx hd') hroute

theorem routed_start (u : Startup V Id) : Routed (initializeRuntime u) := by
  refine ⟨rfl, ?_, ?_, ?_⟩
  · intro hsome
    simp only [initializeRuntime] at hsome ⊢
    split at hsome
    · rename_i hconfirm
      simp only [State.readConfirmsOf, Bool.and_eq_true, Bool.not_eq_true', Bool.and_eq_false_iff,
        beq_eq_false_iff_ne] at hconfirm
      rcases hconfirm with ⟨hsome, hnone | hroute⟩
      · rw [hsome] at hnone
        cases hnone
      · cases hr : State.confirmationRoute u.config with
        | read => exact absurd hr hroute
        | confirm => rfl
    · exact absurd rfl hsome
  · intro d hd
    cases hd
  · -- at the start the route that confirms has a reader
    intro hconfirm hnone
    simp only [initializeRuntime] at hconfirm hnone
    cases hr : State.confirmationRoute u.config with
    | read =>
      rw [hr] at hnone
      cases hnone
    | confirm =>
      have hdistinct : State.readConfirmsOf u.config = false := by
        rw [State.readConfirmsOf, hr]
        simp
      rw [hr] at hnone
      simp [hconfirm, hdistinct] at hnone

variable {a : Label V Id}

theorem routed_step (h : Routed s) (hfenced : Fenced s)
    (hpos : ∀ d ∈ s.deliveries, 0 < d.metadata.epoch) (hstep : step s a = some s') : Routed s' := by
  have hkeep : ∀ d ∈ s.deliveries, ∃ d' ∈ s.deliveries, d'.route = d.route :=
    fun d hd => ⟨d, hd, rfl⟩
  cases step_cases hstep with
  | handled _ _ _ hadmission => exact h.of_putFrame hadmission.frame
  | dispatched _ _ hput => exact h.of_putFrame hput.frame
  | arrived | started | dropped | stopped | prepared | refreshed | ignored | activated | returned =>
    exact h.of_eq rfl rfl rfl hkeep rfl rfl
  | committed _ hupdate =>
    have htopology := hfenced.updates _ (List.mem_of_getElem? hupdate)
    exact h.of_same htopology rfl (fun _ => .rfl) (fun d hd => .inl hd) id
  | deactivated cause halive =>
    refine h.of_same (.refl _) rfl (fun _ => .rfl) (fun d hd => .inl hd) ?_
    rw [halive]
    exact fun hdead => absurd hdead.1 (by simp)
  | retired _ hretiring =>
    have hdead := hfenced.retiring (by rw [hretiring]; rfl)
    exact ⟨h.readConfirms, fun hsome => absurd rfl hsome, h.deliveries, fun _ _ => ⟨hdead, rfl⟩⟩
  | moved event hr => exact routed_setReader h hr _
  | read entries hr => exact routed_read h hr (routed_setReader h hr _) entries _ _
  | skipped =>
    exact h.of_eq rfl rfl rfl (fun d hd => ⟨d, List.mem_of_mem_eraseIdx hd, rfl⟩) rfl rfl
  | delivered now entry hd _ _ _ halive =>
    have hmem := List.mem_of_getElem? hd
    have hturn := handleEntry_delivered entry now halive (hpos _ hmem)
    exact h.finishTurn hmem (routed_delivered h hturn) hturn.config _ _
  | ticked _ _ hframe =>
    obtain ⟨_, _, _, rfl⟩ := hframe.rest
    exact h.of_eq rfl rfl rfl hkeep rfl rfl

theorem routed_reachable (h : machine.Reachable s) : Routed s := by
  refine Machine.Reachable.invariant_with (I := fun s => Sourced s ∧ Fenced s)
    (fun s hs => ⟨sourced_reachable hs, fenced_reachable hs⟩) ?_ ?_ h
  · rintro s ⟨u, rfl⟩
    exact routed_start u
  · intro s a s' hknown _ hrouted hstep
    exact routed_step hrouted hknown.2 (fun d hd => (hknown.1.inFlight d hd).1) hstep

/-! ## One put at a time -/

/-- Put `p` is being dispatched and stands at `stage`. -/
def RunningAt (s : State V Id) (p : PutId) (stage : Stage V Id) : Prop :=
  ∃ put epoch, s.puts[p]? = some put ∧ put.phase = .running epoch stage

/-- The lane of the PV runs one put at a time. -/
def Serial (s : State V Id) : Prop :=
  ∀ p q stage stage', RunningAt s p stage → RunningAt s q stage' → p = q

variable {stage : Stage V Id}

theorem RunningAt.of_puts (h : RunningAt s' q stage) (hputs : s'.puts = s.puts) :
    RunningAt s q stage := by
  obtain ⟨put, epoch, hput, hphase⟩ := h
  exact ⟨put, epoch, hputs ▸ hput, hphase⟩

theorem RunningAt.of_frame (h : RunningAt s' q stage) (hf : PutFrame s p s') (hq : q ≠ p) :
    RunningAt s q stage := by
  obtain ⟨put, epoch, hput, hphase⟩ := h
  exact ⟨put, epoch, hf.other hq ▸ hput, hphase⟩

variable {f : Put V Id → Put V Id}

theorem runningAt_modify (h : RunningAt s' p stage) (hputs : s'.puts = s.puts.modify p f) :
    ∃ put epoch, s.puts[p]? = some put ∧ (f put).phase = .running epoch stage := by
  obtain ⟨put, epoch, hput, hphase⟩ := h
  rw [hputs, List.getElem?_modify_eq] at hput
  obtain ⟨put₀, hput₀, rfl⟩ := Option.map_eq_some_iff.mp hput
  exact ⟨put₀, epoch, hput₀, hphase⟩

/-- A put that has left, or is on its way into the queue, is not running. -/
theorem not_runningAt_phase (hputs : s'.puts = s.puts.modify p f)
    (hidle : ∀ put, (f put).phase.isRunning = false) :
    ¬RunningAt s' p stage := by
  intro h
  obtain ⟨put, epoch, -, hphase⟩ := runningAt_modify h hputs
  have hnot := hidle put
  rw [hphase] at hnot
  cases hnot

theorem not_runningAt_admission {phase : Phase V Id} (h : Admission s p phase s') :
    ¬RunningAt s' p stage := by
  cases h <;> exact not_runningAt_phase rfl fun _ => rfl

theorem runningAt_arrived {new : Put V Id} (hnew : new.phase = .arriving ∨ new.phase = .finished)
    (h : RunningAt { s with puts := s.puts ++ [new] } q stage) : RunningAt s q stage := by
  obtain ⟨put, epoch, hput, hphase⟩ := h
  rw [List.getElem?_append] at hput
  split at hput
  · exact ⟨put, epoch, hput, hphase⟩
  · obtain ⟨hzero, hget⟩ := List.getElem?_eq_some_iff.mp hput
    obtain rfl : new = put := by simpa using hget
    rcases hnew with hnew | hnew <;> rw [hnew] at hphase <;> cases hphase

/-- Every step but a dispatch leaves a running put where it is; one may start. -/
theorem runningAt_step (hpos : ∀ d ∈ s.deliveries, 0 < d.metadata.epoch)
    (hstep : step s a = some s') (hother : ∀ p answer, a ≠ .dispatch p answer)
    (h : RunningAt s' q stage) :
    RunningAt s q stage ∨ (stage = .entered ∧ a = .startPut q) := by
  cases step_cases hstep with
  | arrived _ hnew => exact .inl (runningAt_arrived hnew h)
  | @handled p _ _ _ _ _ _ hadmission =>
    by_cases hq : q = p
    · subst hq
      exact absurd h (not_runningAt_admission hadmission)
    · exact .inl (h.of_frame hadmission.frame hq)
  | @started p =>
    by_cases hq : q = p
    · subst hq
      obtain ⟨put', epoch', hput', hphase⟩ := runningAt_modify h rfl
      cases hphase
      exact .inr ⟨rfl, rfl⟩
    · exact .inl (h.of_frame (frame_toPhase _) hq)
  | @dropped p =>
    by_cases hq : q = p
    · subst hq
      exact absurd h (not_runningAt_phase rfl fun _ => rfl)
    · exact .inl (h.of_frame frame_leave hq)
  | stopped p message =>
    by_cases hq : q = p
    · subst hq
      obtain ⟨put, epoch, hput, hphase⟩ := runningAt_modify h rfl
      exact .inl ⟨put, epoch, hput, hphase⟩
    · exact .inl (h.of_frame (stopPut_frame message) hq)
  | dispatched => exact absurd rfl (hother _ _)
  | prepared | committed | refreshed | ignored | activated | deactivated | returned | retired
  | moved | read | skipped => exact .inl (h.of_puts rfl)
  | delivered now entry hd _ _ _ halive =>
    have hturn := handleEntry_delivered entry now halive (hpos _ (List.mem_of_getElem? hd))
    exact .inl (h.of_puts hturn.puts)
  | ticked _ _ hframe =>
    obtain ⟨_, _, _, rfl⟩ := hframe.rest
    exact .inl (h.of_puts rfl)

/-- A put starts only when no put is running. -/
theorem not_runningAt_of_start (hstep : s.startPut p = some s') :
    ¬RunningAt s q stage := by
  obtain ⟨-, -, -, -, hidle, -⟩ := startPut_cases hstep
  rintro ⟨put, epoch, hput, hphase⟩
  have hnot := List.any_eq_false.mp hidle put (List.mem_of_getElem? hput)
  rw [hphase] at hnot
  exact hnot rfl

theorem serial_step (h : Serial s) (hpos : ∀ d ∈ s.deliveries, 0 < d.metadata.epoch)
    (hstep : step s a = some s') : Serial s' := by
  intro q q' stage stage' hq hq'
  by_cases hdispatch : ∃ p answer, a = .dispatch p answer
  · obtain ⟨p, answer, rfl⟩ := hdispatch
    have hf := dispatch_frame hstep
    obtain ⟨put, epoch, old, hput, hphase, -⟩ := dispatch_cases hstep
    have hp : RunningAt s p old := ⟨put, epoch, hput, hphase⟩
    -- the other puts have not moved, and only this one was running
    have heq : ∀ {x st}, RunningAt s' x st → x = p := by
      intro x st hx
      by_contra hne
      exact hne (h x p st old (hx.of_frame hf hne) hp)
    rw [heq hq, heq hq']
  · have hother : ∀ p answer, a ≠ .dispatch p answer :=
      fun p answer ha => hdispatch ⟨p, answer, ha⟩
    rcases runningAt_step hpos hstep hother hq with hold | ⟨-, hstart⟩ <;>
      rcases runningAt_step hpos hstep hother hq' with hold' | ⟨-, hstart'⟩
    · exact h q q' stage stage' hold hold'
    · subst hstart'
      exact absurd hold (not_runningAt_of_start hstep)
    · subst hstart
      exact absurd hold' (not_runningAt_of_start hstep)
    · rw [hstart] at hstart'
      cases hstart'
      rfl

theorem serial_reachable (h : machine.Reachable s) : Serial s := by
  refine Machine.Reachable.invariant_with (fun s => sourced_reachable) ?_ ?_ h
  · rintro s ⟨u, rfl⟩ p q stage stage' ⟨put, epoch, hput, -⟩
    cases hput
  · intro s a s' hsourced _ hserial hstep
    exact serial_step hserial (fun d hd => (hsourced.inFlight d hd).1) hstep

/-! ## What the log says of a put -/

/-- The entries that have confirmed a put so far, in the order of the replies. -/
def confirmations (log : List (Event V Id)) : List (Processed V Id) :=
  log.filterMap fun event =>
    match event with
    | .put _ (.replied confirmedBy) => confirmedBy
    | _ => none

/-- The events of a confirmed put up to its write. -/
def putTrace (p : PutId) (sourceEpoch : Nat) (afterId : Id) (id : Nat) (w : Write V) :
    List (Event V Id) :=
  [.put p (.sourceEpoch sourceEpoch), .put p (.snapshot afterId), .put p (.registered id),
    .put p (.written w)]

/-- Entry `o` of route `route` confirms put `p`: after the source epoch was captured, the last
    ID was snapshotted, the put was registered and written, the entry was processed while the
    put was registered, with a later ID, in that epoch, and with an equal value.  `tail` is
    what followed. -/
def ConfirmedBy (route : Route) (p : PutId) (o : Processed V Id) (tail log : List (Event V Id)) :
    Prop :=
  ∃ sourceEpoch afterId id w v registered,
    (putTrace p sourceEpoch afterId id w ++ Event.processed route o registered :: tail).Sublist log ∧
    id ∈ registered ∧ afterId < o.id ∧ o.metadata.epoch = sourceEpoch ∧ o.value = some v ∧
    ValueType.valuesEqual w.raw v = true

/-- Every confirmation given in epoch `e` has an ID up to `id`. -/
def UpTo (log : List (Event V Id)) (e : Nat) (id : Id) : Prop :=
  ∀ o ∈ confirmations log, o.metadata.epoch = e → o.id ≤ id

/-- The confirmation route has left epoch `e` for good. -/
def Past (s : State V Id) (e : Nat) : Prop :=
  s.reader (State.confirmationRoute s.config) = none ∨
    e < s.sourceEpoch (State.confirmationRoute s.config)

/-- The confirmation route has reached epoch `e`. -/
def Reached (s : State V Id) (e : Nat) : Prop :=
  s.reader (State.confirmationRoute s.config) = none ∨
    e ≤ s.sourceEpoch (State.confirmationRoute s.config)

/-- A put between its snapshot and its registration. -/
structure Prepared (s : State V Id) (p : PutId) (l : Locals V Id) (pending : PendingPut V Id) :
    Prop where
  order : [.put p (.sourceEpoch pending.sourceEpoch), .put p (.snapshot pending.afterId)].Sublist
    s.log
  raw : pending.expectedRaw = l.raw
  undone : pending.done = false ∧ pending.error = none ∧ pending.confirmedBy = none
  bound : UpTo s.log pending.sourceEpoch pending.afterId ∨ Past s pending.sourceEpoch

/-- A put between its registration and its write. -/
structure Registered (s : State V Id) (p : PutId) (l : Locals V Id) (id : Nat)
    (pending : PendingPut V Id) : Prop where
  order : [.put p (.sourceEpoch pending.sourceEpoch), .put p (.snapshot pending.afterId),
    .put p (.registered id)].Sublist s.log
  raw : pending.expectedRaw = l.raw
  undone : pending.done = false ∧ pending.error = none ∧ pending.confirmedBy = none
  bound : UpTo s.log pending.sourceEpoch pending.afterId

/-- A put that was written and waits for its confirmation. -/
structure Waiting (s : State V Id) (p : PutId) (id : Nat) (pending : PendingPut V Id) : Prop where
  order : ∃ w, pending.expectedRaw = w.raw ∧
    (putTrace p pending.sourceEpoch pending.afterId id w).Sublist s.log
  bound : UpTo s.log pending.sourceEpoch pending.afterId
  texts : ∀ message, pending.error = some message → message ≠ ""
  complete : pending.done = true → pending.error = none → ∃ o, pending.confirmedBy = some o
  confirmed : ∀ o, pending.confirmedBy = some o →
    ConfirmedBy (State.confirmationRoute s.config) p o [] s.log ∧
      o.metadata.epoch = pending.sourceEpoch ∧ pending.afterId < o.id

/-- What is known of the running put at each stage. -/
def Tracked (s : State V Id) (p : PutId) : Stage V Id → Prop
  | .entered | .unstopped | .copied _ | .written _ _ none => True
  | .sampling current _ => current.confirm.isSome = true
  | .asking current _ e =>
    current.confirm.isSome = true ∧ .put p (.sourceEpoch e) ∈ s.log ∧ Reached s e
  | .prepared l | .fenced l | .checked l | .authorized l | .cleared l =>
    l.pending.isSome = l.current.confirm.isSome ∧
      ∀ pending, l.pending = some pending → Prepared s p l pending
  | .registered l id =>
    id.isSome = l.current.confirm.isSome ∧
      ∀ i, id = some i → ∃ pending, s.pendingPuts.find? i = some pending ∧
        Registered s p l i pending
  | .written _ none (some _) | .echoing _ _ | .concluding => s.config.confirm = none
  | .written _ (some id) (some _) | .waiting id =>
    ∃ pending, s.pendingPuts.find? id = some pending ∧ Waiting s p id pending
  | .woken error confirmed confirmedBy =>
    (∀ message, error = some message → message ≠ "") ∧
    (confirmed = true → error = none → ∃ o, confirmedBy = some o ∧
      ConfirmedBy (State.confirmationRoute s.config) p o [] s.log ∧
        ∀ o' ∈ confirmations s.log, o'.metadata.epoch = o.metadata.epoch → o'.id < o.id)

/-- The running put is where the log says, and the replies so far rest on fresh entries. -/
structure Confirming (s : State V Id) : Prop where
  tracked : ∀ p stage, RunningAt s p stage → Tracked s p stage
  replied : ∀ p confirmedBy, .put p (.replied confirmedBy) ∈ s.log →
    s.config.confirm.isSome = true → ∃ o, confirmedBy = some o ∧
      ConfirmedBy (State.confirmationRoute s.config) p o [.put p (.replied (some o))] s.log
  ordered : (confirmations s.log).Pairwise fun o o' =>
    o.metadata.epoch = o'.metadata.epoch → o.id < o'.id

/-! ### What later steps leave of it -/

theorem confirmations_append (log log' : List (Event V Id)) :
    confirmations (log ++ log') = confirmations log ++ confirmations log' := by
  simp [confirmations]

variable {o : Processed V Id}

theorem ConfirmedBy.mono {tail : List (Event V Id)} (h : ConfirmedBy route p o tail log)
    (more : List (Event V Id)) :
    ConfirmedBy route p o tail (log ++ more) := by
  obtain ⟨e, afterId, id, w, v, registered, hsub, hrest⟩ := h
  exact ⟨e, afterId, id, w, v, registered, hsub.trans (List.sublist_append_left log more), hrest⟩

def Event.notReply : Event V Id → Prop
  | .put _ (.replied _) => False
  | _ => True

theorem confirmations_notReply {more : List (Event V Id)} (h : ∀ event ∈ more, event.notReply) :
    confirmations more = [] := by
  rw [confirmations, List.filterMap_eq_nil_iff]
  intro event hevent
  have hnot := h event hevent
  split
  · exact hnot.elim
  · rfl

/-- The log and the configuration after a step that gives no reply. -/
structure Grows (s s' : State V Id) : Prop where
  topology : SameTopology s.config s'.config
  log : ∃ more, s'.log = s.log ++ more ∧ ∀ event ∈ more, event.notReply
  past : ∀ e, Past s e → Past s' e
  reached : ∀ e, Reached s e → Reached s' e

theorem Grows.confirmations_eq (h : Grows s s') : confirmations s'.log = confirmations s.log := by
  obtain ⟨more, hlog, hnot⟩ := h.log
  rw [hlog, confirmations_append, confirmations_notReply hnot, List.append_nil]

theorem Grows.sublist (h : Grows s s') {events : List (Event V Id)} (hsub : events.Sublist s.log) :
    events.Sublist s'.log := by
  obtain ⟨more, hlog, -⟩ := h.log
  rw [hlog]
  exact hsub.trans (List.sublist_append_left _ _)

theorem Grows.confirmedBy (h : Grows s s') {tail : List (Event V Id)}
    (hc : ConfirmedBy (State.confirmationRoute s.config) p o tail s.log) :
    ConfirmedBy (State.confirmationRoute s'.config) p o tail s'.log := by
  obtain ⟨more, hlog, -⟩ := h.log
  rw [hlog, ← confirmationRoute_congr h.topology]
  exact hc.mono more

variable {e : Nat}

theorem Grows.upTo (h : Grows s s') {id : Id} (hb : UpTo s.log e id) :
    UpTo s'.log e id := by
  unfold UpTo
  rw [h.confirmations_eq]
  exact hb

variable {pending : PendingPut V Id} {id : Nat}

theorem Waiting.mono (h : Waiting s p id pending) (hg : Grows s s') : Waiting s' p id pending := by
  obtain ⟨w, hraw, hsub⟩ := h.order
  refine ⟨⟨w, hraw, hg.sublist hsub⟩, hg.upTo h.bound, h.texts, h.complete, ?_⟩
  intro o ho
  obtain ⟨hby, hrest⟩ := h.confirmed o ho
  exact ⟨hg.confirmedBy hby, hrest⟩

variable {l : Locals V Id}

theorem Prepared.mono (h : Prepared s p l pending) (hg : Grows s s') : Prepared s' p l pending :=
  ⟨hg.sublist h.order, h.raw, h.undone, h.bound.imp hg.upTo (hg.past _)⟩

/-- What is known of the running put survives a step of another thread that treats the pending
    puts well. -/
theorem Tracked.mono (h : Tracked s p stage) (hg : Grows s s')
    (hpending : ∀ id pending, s.pendingPuts.find? id = some pending →
      ∃ pending', s'.pendingPuts.find? id = some pending' ∧
        (stage.locked = true → pending' = pending) ∧
        (Waiting s p id pending → Waiting s' p id pending')) : Tracked s' p stage := by
  have hwaiting : ∀ {id}, (∃ pending, s.pendingPuts.find? id = some pending ∧
      Waiting s p id pending) → ∃ pending, s'.pendingPuts.find? id = some pending ∧
      Waiting s' p id pending := by
    rintro id ⟨pending, hfind, hw⟩
    obtain ⟨pending', hfind', -, hkeep⟩ := hpending id pending hfind
    exact ⟨pending', hfind', hkeep hw⟩
  have hnone : s.config.confirm = none → s'.config.confirm = none := by
    rw [hg.topology.confirm]
    exact id
  cases stage with
  | entered => trivial
  | unstopped => trivial
  | copied current => trivial
  | sampling current raw => exact h
  | asking current raw e =>
    obtain ⟨hsome, hmem, hreached⟩ := h
    exact ⟨hsome, List.singleton_sublist.mp (hg.sublist (List.singleton_sublist.mpr hmem)),
      hg.reached e hreached⟩
  | prepared l => exact ⟨h.1, fun pending hl => (h.2 pending hl).mono hg⟩
  | fenced l => exact ⟨h.1, fun pending hl => (h.2 pending hl).mono hg⟩
  | checked l => exact ⟨h.1, fun pending hl => (h.2 pending hl).mono hg⟩
  | authorized l => exact ⟨h.1, fun pending hl => (h.2 pending hl).mono hg⟩
  | cleared l => exact ⟨h.1, fun pending hl => (h.2 pending hl).mono hg⟩
  | registered l id =>
    refine ⟨h.1, fun i hi => ?_⟩
    obtain ⟨pending, hfind, hr⟩ := h.2 i hi
    -- under the lock the pending put is the one that was registered
    obtain ⟨pending', hfind', hsame, -⟩ := hpending i pending hfind
    rw [hsame rfl] at hfind'
    exact ⟨pending, hfind', hg.sublist hr.order, hr.raw, hr.undone, hg.upTo hr.bound⟩
  | written l id time =>
    cases time with
    | none => trivial
    | some time =>
      cases id with
      | none => exact hnone h
      | some id => exact hwaiting h
  | echoing l time => exact hnone h
  | concluding => exact hnone h
  | waiting id => exact hwaiting h
  | woken error confirmed confirmedBy =>
    refine ⟨h.1, fun hconfirmed herror => ?_⟩
    obtain ⟨o, hby, hc, hnewest⟩ := h.2 hconfirmed herror
    refine ⟨o, hby, hg.confirmedBy hc, ?_⟩
    rw [hg.confirmations_eq]
    exact hnewest

/-- A step without a reply keeps the history, and the running put if that is tracked. -/
theorem Confirming.grow (h : Confirming s) (hg : Grows s s')
    (htracked : ∀ p stage, RunningAt s' p stage → Tracked s' p stage) : Confirming s' := by
  refine ⟨htracked, ?_, ?_⟩
  · intro p c hmem hconfirm
    obtain ⟨more, hlog, hnot⟩ := hg.log
    rw [hlog] at hmem
    rcases List.mem_append.mp hmem with hmem | hmem
    · obtain ⟨o, hc, hby⟩ := h.replied p c hmem (by rw [hg.topology.confirm]; exact hconfirm)
      exact ⟨o, hc, hg.confirmedBy hby⟩
    · exact (hnot _ hmem).elim
  · rw [hg.confirmations_eq]
    exact h.ordered

/-! ### Steps of other threads -/

/-- Steps that keep the readers and add to the log what is no reply. -/
theorem grows_of_reader (htopology : SameTopology s.config s'.config)
    (hreader : s'.reader = s.reader)
    (hlog : ∃ more, s'.log = s.log ++ more ∧ ∀ event ∈ more, event.notReply) : Grows s s' := by
  have hroute := confirmationRoute_congr htopology
  refine ⟨htopology, hlog, ?_, ?_⟩
  · intro e hpast
    rw [Past, ← hroute, State.sourceEpoch, hreader]
    exact hpast
  · intro e hreached
    rw [Reached, ← hroute, State.sourceEpoch, hreader]
    exact hreached

theorem grows_of_same (hconfig : s'.config = s.config) (hreader : s'.reader = s.reader)
    (hlog : s'.log = s.log) : Grows s s' :=
  grows_of_reader (hconfig ▸ .refl _) hreader ⟨[], by rw [hlog, List.append_nil], by simp⟩

theorem grows_of_event (hconfig : s'.config = s.config) (hreader : s'.reader = s.reader)
    {event : Event V Id} (hlog : s'.log = s.log ++ [event]) (hnot : event.notReply) :
    Grows s s' :=
  grows_of_reader (hconfig ▸ .refl _) hreader
    ⟨[event], hlog, fun _ he => List.mem_singleton.mp he ▸ hnot⟩

/-- A reader that moves on does not go back to an earlier epoch. -/
theorem grows_setReader {r' : Reader} (hr : s.reader route = some r)
    (hepoch : r.status.epoch ≤ r'.status.epoch) : Grows s (s.setReader route r') := by
  have hmove : ∀ x, (s.reader x = none → (s.setReader route r').reader x = none) ∧
      s.sourceEpoch x ≤ (s.setReader route r').sourceEpoch x := by
    intro x
    by_cases hx : x = route
    · subst hx
      rw [State.sourceEpoch, State.sourceEpoch, setReader_self, hr]
      exact ⟨(fun hnone => absurd hnone (by simp)), hepoch⟩
    · rw [State.sourceEpoch, State.sourceEpoch, setReader_ne s r' hx]
      exact ⟨id, Nat.le_refl _⟩
  obtain ⟨hnone, hle⟩ := hmove (State.confirmationRoute s.config)
  refine ⟨.refl _, ⟨[], (List.append_nil _).symm, by simp⟩, ?_, ?_⟩
  · exact fun e hpast => hpast.imp hnone fun hlt => Nat.lt_of_lt_of_le hlt hle
  · exact fun e hreached => hreached.imp hnone fun hle' => Nat.le_trans hle' hle

theorem epoch_apply_le (r : Reader) (event : ReaderEvent) :
    r.status.epoch ≤ (r.apply event).status.epoch := by
  cases event with
  | newEpoch skipped =>
    show r.status.epoch ≤ r.status.epoch + skipped + 1
    omega
  | _ => exact Nat.le_refl _

/-- Failing a pending put loses nothing that it rests on. -/
theorem Waiting.failed (h : Waiting s p id pending) {reason : String} (hreason : reason ≠ "") :
    Waiting s p id (pending.fail reason) := by
  refine ⟨h.order, h.bound, ?_, (fun _ herror => by cases herror), h.confirmed⟩
  rintro _ ⟨⟩
  exact hreason

theorem Waiting.expired (h : Waiting s p id pending) (e : Nat) :
    Waiting s p id (pending.expire e) := by
  unfold PendingPut.expire
  split
  · exact h.failed (by decide : State.epochChanged ≠ "")
  · exact h

/-- An entry of the confirmation route either fails the pending put, confirms it, or leaves
    it. -/
theorem Waiting.observed (h : Waiting s p id pending)
    (hfind : s.pendingPuts.find? id = some pending) (hg : Grows s s') {raw : V}
    (hvalue : o.value = some raw) (hlog : s'.log = s.log ++
      [.processed (State.confirmationRoute s.config) o s.pendingPuts.keys]) :
    Waiting s' p id (pending.observe o raw) := by
  have hkeep := h.mono hg
  unfold PendingPut.observe
  split
  · exact hkeep.failed (by decide : State.epochChanged ≠ "")
  · rename_i hepoch
    split
    · rename_i hmatch
      simp only [Bool.and_eq_true, Bool.not_eq_true', decide_eq_true_eq] at hmatch hepoch
      obtain ⟨⟨hundone, hafter⟩, hequal⟩ := hmatch
      have hsame : pending.sourceEpoch = o.metadata.epoch := by
        by_contra hne
        exact hepoch ⟨hundone, hne⟩
      refine ⟨hkeep.order, hkeep.bound, hkeep.texts, fun _ _ => ⟨o, rfl⟩, ?_⟩
      rintro _ ⟨⟩
      obtain ⟨w, hraw, hsub⟩ := h.order
      refine ⟨⟨_, _, id, w, raw, s.pendingPuts.keys, ?_, ?_, hafter, hsame.symm, hvalue, ?_⟩,
        hsame.symm, hafter⟩
      · rw [hlog, ← confirmationRoute_congr hg.topology]
        exact hsub.append (List.Sublist.refl _)
      · exact (FinMap.mem_keys _).mpr ⟨pending, hfind⟩
      · rw [← hraw]
        exact hequal
    · exact hkeep

/-- Every step but a dispatch, given what it does to the pending puts. -/
theorem Confirming.other (h : Confirming s) (hpos : ∀ d ∈ s.deliveries, 0 < d.metadata.epoch)
    (hstep : step s a = some s') (hother : ∀ p answer, a ≠ .dispatch p answer) (hg : Grows s s')
    (hpending : ∀ p stage id pending, RunningAt s p stage →
      s.pendingPuts.find? id = some pending →
      ∃ pending', s'.pendingPuts.find? id = some pending' ∧
        (stage.locked = true → pending' = pending) ∧
        (Waiting s p id pending → Waiting s' p id pending')) : Confirming s' := by
  apply h.grow hg
  intro q stage hq
  rcases runningAt_step hpos hstep hother hq with hold | ⟨rfl, -⟩
  · exact (h.tracked q stage hold).mono hg fun id pending => hpending q stage id pending hold
  · trivial

/-- The pending puts are not touched. -/
theorem pending_same (hg : Grows s s') (hpending : s'.pendingPuts = s.pendingPuts) :
    ∀ p stage id pending, RunningAt s p stage → s.pendingPuts.find? id = some pending →
      ∃ pending', s'.pendingPuts.find? id = some pending' ∧
        (stage.locked = true → pending' = pending) ∧
        (Waiting s p id pending → Waiting s' p id pending') := by
  intro p stage id pending _ hfind
  exact ⟨pending, hpending ▸ hfind, fun _ => rfl, fun hw => hw.mono hg⟩

/-- All pending puts are treated alike, by a thread that has the lock. -/
theorem pending_mapped (hfenced : Fenced s) (hfree : s.mutex = none)
    {f : PendingPut V Id → PendingPut V Id}
    (hpending : s'.pendingPuts = s.pendingPuts.mapValues f)
    (hf : ∀ p id pending, s.pendingPuts.find? id = some pending → Waiting s p id pending →
      Waiting s' p id (f pending)) :
    ∀ p stage id pending, RunningAt s p stage → s.pendingPuts.find? id = some pending →
      ∃ pending', s'.pendingPuts.find? id = some pending' ∧
        (stage.locked = true → pending' = pending) ∧
        (Waiting s p id pending → Waiting s' p id pending') := by
  rintro p stage id pending ⟨put, epoch, hput, hphase⟩ hfind
  refine ⟨f pending, by rw [hpending, FinMap.find?_mapValues, hfind]; rfl, ?_,
    hf p id pending hfind⟩
  intro hlocked
  have hunlocked := hfenced.unlocked hfree hput
  rw [hphase, Phase.locked_running, hlocked] at hunlocked
  cases hunlocked

theorem grows_delivered (hturn : Delivered s d entry now turn) : Grows s turn.1 := by
  cases hturn with
  | stale hepoch => exact grows_of_same rfl rfl rfl
  | accepted raw timestamp view pendingPuts hepoch hpayload htime hview hobserve =>
    exact grows_of_event rfl rfl rfl trivial
  | rejected view error hepoch hview => exact grows_of_event rfl rfl rfl trivial

/-- A turn of `handleRead`, as far as pending puts are concerned. -/
theorem pending_delivered (hrouted : Routed s) (hfenced : Fenced s) (hfree : s.mutex = none)
    (hd : d ∈ s.deliveries) (hturn : Delivered s d entry now turn) :
    ∀ p stage id pending, RunningAt s p stage → s.pendingPuts.find? id = some pending →
      ∃ pending', turn.1.pendingPuts.find? id = some pending' ∧
        (stage.locked = true → pending' = pending) ∧
        (Waiting s p id pending → Waiting turn.1 p id pending') := by
  have hg := grows_delivered hturn
  cases hturn with
  | stale hepoch => exact pending_same hg rfl
  | accepted raw timestamp view pendingPuts hepoch hpayload htime hview hobserve =>
    split at hobserve
    · rename_i hcan
      apply pending_mapped hfenced hfree hobserve
      intro p id pending hfind hw
      apply hw.observed hfind hg rfl
      rw [hrouted.route_eq hd hcan]
    · exact pending_same hg hobserve
  | rejected view error hepoch hview => exact pending_same hg rfl

theorem confirming_other (h : Confirming s) (hsourced : Sourced s) (hfenced : Fenced s)
    (hrouted : Routed s) (hstep : step s a = some s')
    (hother : ∀ p answer, a ≠ .dispatch p answer) : Confirming s' := by
  have hpos : ∀ d ∈ s.deliveries, 0 < d.metadata.epoch :=
    fun d hd => (hsourced.inFlight d hd).1
  have hquiet : Grows s s' → s'.pendingPuts = s.pendingPuts → Confirming s' :=
    fun hg hpending => h.other hpos hstep hother hg (pending_same hg hpending)
  cases step_cases hstep with
  | handled _ _ _ hadmission =>
    cases hadmission with
    | passed | refused => exact hquiet (grows_of_same rfl rfl rfl) rfl
    | queued => exact hquiet (grows_of_event rfl rfl rfl trivial) rfl
  | arrived | started | dropped | stopped | prepared | refreshed | activated | deactivated
  | skipped => exact hquiet (grows_of_same rfl rfl rfl) rfl
  | dispatched => exact absurd rfl (hother _ _)
  | @committed i update hfree hupdate =>
    have htopology := hfenced.updates update (List.mem_of_getElem? hupdate)
    have hg : Grows s { s.commit update with updates := s.updates.eraseIdx i } :=
      grows_of_reader htopology rfl ⟨[], (List.append_nil _).symm, by simp⟩
    refine h.other hpos hstep hother hg ?_
    by_cases hchanged : s.config.transform ≠ update.config.transform
    · exact pending_mapped hfenced hfree (if_pos hchanged)
        fun _ _ _ _ hw => (hw.mono hg).failed (by decide)
    · exact pending_same hg (if_neg hchanged)
  | ignored => exact h
  | returned => exact hquiet (grows_of_event rfl rfl rfl trivial) rfl
  | @retired cause hfree =>
    -- the readers are gone, so every epoch is past
    have hg : Grows s (s.retire cause) :=
      ⟨.refl _, ⟨[.deactivated], rfl, fun _ he => List.mem_singleton.mp he ▸ trivial⟩,
        fun _ _ => .inl rfl, fun _ _ => .inl rfl⟩
    exact h.other hpos hstep hother hg (pending_mapped hfenced hfree rfl
      fun _ _ _ _ hw => (hw.mono hg).failed (by cases cause <;> decide))
  | moved event hr => exact hquiet (grows_setReader hr (epoch_apply_le _ event)) rfl
  | @read _ _ r hr =>
    have hg := grows_setReader hr (Nat.le_refl r.capture.1.status.epoch)
    exact hquiet ⟨hg.topology, hg.log, hg.past, hg.reached⟩ rfl
  | delivered now entry hd hfree _ _ halive =>
    have hmem := List.mem_of_getElem? hd
    have hturn := handleEntry_delivered entry now halive (hpos _ hmem)
    have hg := grows_delivered hturn
    refine h.other hpos hstep hother ⟨hg.topology, hg.log, hg.past, hg.reached⟩ ?_
    intro p stage id pending hrun hfind
    obtain ⟨pending', hfind', hsame, hkeep⟩ :=
      pending_delivered hrouted hfenced hfree hmem hturn p stage id pending hrun hfind
    refine ⟨pending', hfind', hsame, fun hw => ?_⟩
    have hw' := hkeep hw
    exact ⟨hw'.order, hw'.bound, hw'.texts, hw'.complete, hw'.confirmed⟩
  | ticked hfree hnext hframe =>
    have hg : Grows s s' := by
      obtain ⟨_, _, _, hrest⟩ := hframe.rest
      rw [hrest]
      exact grows_of_same rfl rfl rfl
    refine h.other hpos hstep hother hg ?_
    rcases hframe.pending with hpending | ⟨e, hpending⟩
    · exact pending_same hg hpending
    · exact pending_mapped hfenced hfree hpending fun _ _ _ _ hw => (hw.mono hg).expired e

/-! ### Steps of the running put -/

section Dispatch

variable {epoch : Nat} {stage target : Stage V Id}

/-- Only the dispatched put can be running afterwards. -/
theorem Serial.only (h : Serial s) (hrun : RunningAt s p stage) (hf : PutFrame s p s')
    {stage' : Stage V Id} (hq : RunningAt s' q stage') : q = p := by
  by_contra hne
  exact hne (h q p stage' stage (hq.of_frame hf hne) hrun)

/-- The put moves to another stage. -/
theorem Confirming.move (h : Confirming s) (hserial : Serial s) (hrun : RunningAt s p stage)
    (hf : PutFrame s p s') (hg : Grows s s') (hputs : s'.puts = s.puts.modify p f)
    (hphase : ∀ put, (f put).phase = .running epoch target) (htracked : Tracked s' p target) :
    Confirming s' := by
  apply h.grow hg
  intro q stage' hq
  have heq := hserial.only hrun hf hq
  subst heq
  obtain ⟨put, epoch', -, hstage⟩ := runningAt_modify hq hputs
  rw [hphase] at hstage
  cases hstage
  exact htracked

/-- The put is over without a reply. -/
theorem Confirming.quit (h : Confirming s) (hserial : Serial s) (hrun : RunningAt s p stage)
    (hf : PutFrame s p s') (hg : Grows s s') (hputs : s'.puts = s.puts.modify p f)
    (hphase : ∀ put, (f put).phase = .finished) :
    Confirming s' := by
  apply h.grow hg
  intro q stage' hq
  have heq := hserial.only hrun hf hq
  subst heq
  exact absurd hq (not_runningAt_phase hputs fun put => by rw [hphase]; rfl)

/-- The put replies: to a PV without a confirmation, or with a confirming entry that is newer
    than all confirmations of its epoch. -/
theorem confirming_reply (h : Confirming s) (hserial : Serial s) (hrun : RunningAt s p stage)
    {confirmedBy : Option (Processed V Id)}
    (hreply : (s.config.confirm = none ∧ confirmedBy = none) ∨ ∃ o, confirmedBy = some o ∧
      ConfirmedBy (State.confirmationRoute s.config) p o [] s.log ∧
        ∀ o' ∈ confirmations s.log, o'.metadata.epoch = o.metadata.epoch → o'.id < o.id) :
    Confirming ((s.fail p "").record (.put p (.replied confirmedBy))) := by
  have hf : PutFrame s p ((s.fail p "").record (.put p (.replied confirmedBy))) :=
    .noted _ _ _ _ _ _
  refine ⟨?_, ?_, ?_⟩
  · intro q stage' hq
    have heq := hserial.only hrun hf hq
    subst heq
    exact absurd hq (not_runningAt_phase rfl fun _ => rfl)
  · intro q c hmem hconfirm
    rcases List.mem_append.mp hmem with hmem | hmem
    · obtain ⟨o, hc, hby⟩ := h.replied q c hmem hconfirm
      exact ⟨o, hc, hby.mono _⟩
    · cases List.mem_singleton.mp hmem
      rcases hreply with ⟨hnone, -⟩ | ⟨o, rfl, hby, -⟩
      · -- a PV without a confirmation
        have hsome : s.config.confirm.isSome = true := hconfirm
        rw [hnone] at hsome
        cases hsome
      · obtain ⟨e, afterId, id, w, v, registered, hsub, hrest⟩ := hby
        refine ⟨o, rfl, e, afterId, id, w, v, registered, ?_, hrest⟩
        have hlong := hsub.append (List.Sublist.refl [Event.put p (.replied (some o))])
        rw [List.append_assoc] at hlong
        exact hlong
  · show (confirmations (s.log ++ [.put p (.replied confirmedBy)])).Pairwise _
    rw [confirmations_append]
    rcases hreply with ⟨-, rfl⟩ | ⟨o, rfl, -, hnewest⟩
    · exact (List.append_nil _).symm ▸ h.ordered
    · refine List.pairwise_append.mpr ⟨h.ordered, List.pairwise_singleton _ o, ?_⟩
      intro o' ho' o'' ho''
      cases List.mem_singleton.mp ho''
      exact hnewest o' ho'

/-- The snapshot bounds the confirmations of the epoch, unless the epoch is over. -/
theorem upTo_snapshot (h : Confirming s) {current : PVConfig} {id : Id}
    (htopology : SameTopology current s.config) (hconfirm : current.confirm.isSome = true)
    (hreached : Reached s e) (hok : s.snapshotOk current id = true) :
    UpTo s.log e id ∨ Past s e := by
  rcases hreached with hnone | hle
  · exact .inr (.inl hnone)
  · rcases Nat.lt_or_eq_of_le hle with hlt | heq
    · exact .inr (.inr hlt)
    · left
      intro o ho hepoch
      obtain ⟨event, hmem, hevent⟩ := List.mem_filterMap.mp ho
      split at hevent
      · rename_i q c
        subst hevent
        obtain ⟨o', ho', e', afterId, i, w, v, registered, hsub, -⟩ :=
          h.replied q _ hmem (htopology.confirm ▸ hconfirm)
        cases ho'
        -- the confirming entry was delivered on the confirmation route
        have hprocessed : Event.processed (State.confirmationRoute s.config) o registered ∈ s.log :=
          hsub.subset (by simp)
        have hdelivered : o.id ∈ s.deliveredIds (State.confirmationRoute current) := by
          refine List.mem_filterMap.mpr ⟨_, hprocessed, ?_⟩
          rw [confirmationRoute_congr htopology]
          exact if_pos ⟨rfl, hepoch.trans heq⟩
        exact of_decide_eq_true (List.all_eq_true.mp hok o.id hdelivered)
      · cases hevent

/-- The copy of the configuration that a put holds before its write. -/
theorem Fenced.copied (h : Fenced s) (hput : s.puts[p]? = some put)
    (hphase : put.phase = .running epoch stage) {copy : PVConfig} (hcopy : stage.copy = some copy) :
    Copied s.config s.commandEpoch epoch copy := by
  have hrun := (h.puts p put hput).phase
  rw [hphase] at hrun
  exact hrun.2.2.copy copy hcopy

/-- A put with the lock finds the reader of the confirmation route in place. -/
theorem not_past_of_epoch (hrouted : Routed s) (hfenced : Fenced s) (hheld : s.mutex = some p)
    (hconfirm : s.config.confirm.isSome = true)
    (hepoch : e = s.sourceEpoch (State.confirmationRoute s.config)) : ¬Past s e := by
  rintro (hnone | hlt)
  · obtain ⟨hdead, hretired⟩ := hrouted.live hconfirm hnone
    rw [hfenced.free hdead hretired] at hheld
    cases hheld
  · exact Nat.lt_irrefl _ (hepoch ▸ hlt)

theorem confirming_registered (h : Confirming s) (hserial : Serial s) (hrouted : Routed s)
    (hfenced : Fenced s) (hput : s.puts[p]? = some put)
    (hphase : put.phase = .running epoch (.cleared l)) (hpending : l.pending = some pending)
    (hepoch : pending.sourceEpoch = s.sourceEpoch (State.confirmationRoute l.current))
    (hf : PutFrame s p s') (hs' : s' = ({ s with
        nextPendingId := s.nextPendingId + 1
        pendingPuts := s.pendingPuts.insert (s.nextPendingId + 1) pending }.toPhase p
          (.running epoch (.registered l (some (s.nextPendingId + 1))))).record
            (.put p (.registered (s.nextPendingId + 1)))) : Confirming s' := by
  have hrun : RunningAt s p (.cleared l) := ⟨put, epoch, hput, hphase⟩
  obtain ⟨hsome, hprepared⟩ := h.tracked p _ hrun
  have hheld := (hfenced.lock p).mpr ⟨put, hput, by rw [hphase]; rfl⟩
  have htopology := (hfenced.copied hput hphase rfl).topology
  have hp := hprepared pending hpending
  subst hs'
  have hg := grows_of_event hf.config hf.reader rfl trivial
  refine h.move hserial hrun hf hg rfl (fun _ => rfl) ?_
  rw [hpending] at hsome
  refine ⟨hsome, fun i hi => ?_⟩
  cases hi
  refine ⟨pending, FinMap.find?_insert_self .., ?_, hp.raw, hp.undone, ?_⟩
  · exact hp.order.append (List.Sublist.refl [Event.put p (.registered _)])
  · rcases hp.bound with hbound | hpast
    · exact hg.upTo hbound
    · rw [confirmationRoute_congr htopology] at hepoch
      exact absurd hpast (not_past_of_epoch hrouted hfenced hheld
        (htopology.confirm ▸ hsome.symm) hepoch)

theorem confirming_writeToRedis (h : Confirming s) (hserial : Serial s) (hfenced : Fenced s)
    {id : Option Nat} (hput : s.puts[p]? = some put)
    (hphase : put.phase = .running epoch (.registered l id)) (result : WriteResult) :
    Confirming (s.writeToRedis p epoch l id result) := by
  have hrun : RunningAt s p (.registered l id) := ⟨put, epoch, hput, hphase⟩
  obtain ⟨hsome, hregistered⟩ := h.tracked p _ hrun
  have htopology := (hfenced.copied hput hphase rfl).topology
  have hf := frame_writeToRedis epoch l id result (s := s) (p := p)
  cases result with
  | threw =>
    cases id with
    | none => exact h.quit hserial hrun hf (grows_of_event rfl rfl rfl trivial) rfl fun _ => rfl
    | some id => exact h.quit hserial hrun hf (grows_of_event rfl rfl rfl trivial) rfl fun _ => rfl
  | failed =>
    cases id with
    | none =>
      exact h.move hserial hrun hf (grows_of_event rfl rfl rfl trivial) rfl (fun _ => rfl) trivial
    | some id =>
      exact h.move hserial hrun hf (grows_of_event rfl rfl rfl trivial) rfl (fun _ => rfl) trivial
  | ok time =>
    have hg : Grows s (s.writeToRedis p epoch l id (.ok time)) :=
      grows_of_event rfl rfl rfl trivial
    refine h.move hserial hrun hf hg rfl (fun _ => rfl) ?_
    cases id with
    | none =>
      show s.config.confirm = none
      rw [← htopology.confirm]
      exact Option.isNone_iff_eq_none.mp (by simpa using hsome)
    | some id =>
      obtain ⟨pending, hfind, hr⟩ := hregistered id rfl
      refine ⟨pending, hfind, ⟨s.writeOf l, hr.raw, ?_⟩, hg.upTo hr.bound, ?_, ?_, ?_⟩
      · exact hr.order.append (List.Sublist.refl [Event.put p (.written (s.writeOf l))])
      · rw [hr.undone.2.1]
        exact fun _ herror => absurd herror (by simp)
      · rw [hr.undone.1]
        exact fun hdone => Bool.noConfusion hdone
      · rw [hr.undone.2.2]
        exact fun o ho => absurd ho (by simp)

/-- What a put takes with it when its wait ends. -/
theorem Waiting.woken (h : Waiting s p id pending) (hdone : pending.done = true)
    (herror : pending.error = none) :
    ∃ o, pending.confirmedBy = some o ∧
      ConfirmedBy (State.confirmationRoute s.config) p o [] s.log ∧
        ∀ o' ∈ confirmations s.log, o'.metadata.epoch = o.metadata.epoch → o'.id < o.id := by
  obtain ⟨o, ho⟩ := h.complete hdone herror
  obtain ⟨hby, hepoch, hafter⟩ := h.confirmed o ho
  refine ⟨o, ho, hby, ?_⟩
  intro o' ho' hsame
  exact lt_of_le_of_lt (h.bound o' ho' (hsame.trans hepoch)) hafter

/-- A stage that follows without an event. -/
theorem StageMove.tracked (hmove : StageMove s put stage target) (h : Tracked s p stage)
    (hg : Grows s s') (hpending : s'.pendingPuts = s.pendingPuts) : Tracked s' p target := by
  cases hmove with
  | entered | copied => trivial
  | unconfirmed _ hnone =>
    refine ⟨?_, fun _ hl => by cases hl⟩
    rw [hnone]
    rfl
  | confirmed _ hsome => exact hsome
  | checked | authorized => exact ⟨h.1, fun pending hl => (h.2 pending hl).mono hg⟩
  | unregistered hnone =>
    have hsome := h.1
    rw [hnone] at hsome
    exact ⟨hsome, fun i hi => absurd hi (by simp)⟩
  | echoing | concluding => exact hg.topology.confirm.symm.trans h
  | waiting =>
    obtain ⟨pending, hfind, hw⟩ := h
    exact ⟨pending, hpending ▸ hfind, hw.mono hg⟩

theorem confirming_dispatchPut (h : Confirming s) (hserial : Serial s) (hrouted : Routed s)
    (hfenced : Fenced s) (hput : s.puts[p]? = some put)
    (hphase : put.phase = .running epoch stage) {a : Answer Id}
    (hstep : PutStep s p put epoch a stage s') : Confirming s' := by
  have hrun : RunningAt s p stage := ⟨put, epoch, hput, hphase⟩
  have htracked := h.tracked p stage hrun
  have hf := hstep.frame
  cases hstep with
  | moved hmove =>
    have hg : Grows s _ := grows_of_same hf.config hf.reader rfl
    exact h.move hserial hrun hf hg rfl (fun _ => rfl) (hmove.tracked htracked hg rfl)
  | left | dropped =>
    exact h.quit hserial hrun hf (grows_of_same rfl rfl rfl) rfl fun _ => rfl
  | failed | refused =>
    exact h.quit hserial hrun hf (grows_of_same rfl rfl rfl) rfl fun _ => rfl
  | sampled =>
    have htopology := (hfenced.copied hput hphase rfl).topology
    refine h.move hserial hrun hf (grows_of_event rfl rfl rfl trivial) rfl (fun _ => rfl)
      ⟨htracked, List.mem_append_right _ (List.mem_singleton_self _), .inr ?_⟩
    rw [confirmationRoute_congr htopology]
    exact Nat.le_refl _
  | @snapshotted _ _ _ id hok =>
    have htopology := (hfenced.copied hput hphase rfl).topology
    obtain ⟨hsome, hcaptured, hreached⟩ := htracked
    have hg := grows_of_event hf.config hf.reader rfl trivial
    refine h.move hserial hrun hf hg rfl (fun _ => rfl) ⟨hsome.symm, ?_⟩
    rintro _ ⟨⟩
    refine ⟨?_, rfl, ⟨rfl, rfl, rfl⟩, ?_⟩
    · exact (List.singleton_sublist.mpr hcaptured).append
        (List.Sublist.refl [Event.put p (.snapshot id)])
    · exact (upTo_snapshot h htopology hsome hreached hok).imp hg.upTo (hg.past _)
  | acquired =>
    have hg := grows_of_same hf.config hf.reader rfl
    exact h.move hserial hrun hf hg rfl (fun _ => rfl)
      ⟨htracked.1, fun pending hl => (htracked.2 pending hl).mono hg⟩
  | stopped => exact h.quit hserial hrun hf (grows_of_event rfl rfl rfl trivial) rfl fun _ => rfl
  | cleared =>
    have hg := grows_of_event hf.config hf.reader rfl trivial
    exact h.move hserial hrun hf hg rfl (fun _ => rfl)
      ⟨htracked.1, fun pending hl => (htracked.2 pending hl).mono hg⟩
  | registered hpending hepoch =>
    exact confirming_registered h hserial hrouted hfenced hput hphase hpending hepoch hf rfl
  | wrote => exact confirming_writeToRedis h hserial hfenced hput hphase a.write
  | echoed =>
    exact h.move hserial hrun hf (grows_of_same rfl rfl rfl) rfl (fun _ => rfl) htracked
  | @woken _ pending _ hfind =>
    obtain ⟨pending', hfind', hw⟩ := htracked
    rw [hfind] at hfind'
    cases hfind'
    refine h.move hserial hrun hf (grows_of_same rfl rfl rfl) rfl (fun _ => rfl)
      ⟨hw.texts, fun hconfirmed herror => ?_⟩
    exact hw.woken (Bool.and_eq_true_iff.mp hconfirmed).2 herror
  | replied hreply =>
    apply confirming_reply h hserial hrun
    rcases hreply with ⟨rfl, rfl⟩ | rfl
    · exact .inl ⟨htracked, rfl⟩
    · exact .inr (htracked.2 rfl rfl)

/-! ### Replies are noted -/

/-- The step does not turn an undecided request of `p` into a successful one. -/
def NoReply (s : State V Id) (p : PutId) (s' : State V Id) : Prop :=
  ∃ f, s'.puts = s.puts.modify p f ∧
    ∀ put : Put V Id, put.request.outcome = none → (f put).request.outcome ≠ some .reply

theorem noReply_of_request (hputs : s'.puts = s.puts.modify p f)
    (hrequest : ∀ put, (f put).request = put.request) : NoReply s p s' := by
  refine ⟨f, hputs, ?_⟩
  intro put hnone
  rw [hrequest, hnone]
  simp

theorem noReply_fail {message : String} (hmessage : message ≠ "") :
    NoReply s p (s.fail p message) := by
  refine ⟨_, rfl, ?_⟩
  intro put hnone
  show (put.request.finish message).outcome ≠ some .reply
  unfold Request.finish
  split
  · rw [hnone]
    simp
  · -- the text is not empty, so the request ends with an error
    simp

theorem dispatchPut_noted {a : Answer Id} (htracked : Tracked s p stage)
    (hstep : PutStep s p put epoch a stage s') :
    NoReply s p s' ∨ ∃ c, s'.log = s.log ++ [.put p (.replied c)] := by
  cases hstep with
  | replied => exact .inr ⟨_, rfl⟩
  | failed _ htext =>
    refine .inl (noReply_fail ?_)
    rcases htext with htext | ⟨_, _, rfl⟩
    · exact htext
    · exact htracked.1 _ rfl
  | refused _ htext => exact .inl (noReply_fail htext)
  | wrote l id =>
    cases a.write <;> cases id <;> exact .inl (noReply_of_request rfl fun _ => rfl)
  | _ => exact .inl (noReply_of_request rfl fun _ => rfl)

/-- A dispatch step that turns an undecided request into a successful one is in the log. -/
theorem dispatch_noted (h : Confirming s) {a : Answer Id} (hstep : s.dispatch p a = some s')
    {put' : Put V Id} (hput : s.puts[p]? = some put) (hput' : s'.puts[p]? = some put')
    (hnone : put.request.outcome = none) (hreply : put'.request.outcome = some .reply) :
    ∃ c, s'.log = s.log ++ [.put p (.replied c)] := by
  obtain ⟨put₀, epoch, stage, hput₀, hphase, hdispatch⟩ := dispatch_cases hstep
  have htracked := h.tracked p stage ⟨put₀, epoch, hput₀, hphase⟩
  rcases dispatchPut_noted htracked hdispatch with ⟨f, hputs, hno⟩ | hnoted
  · rw [hputs, getElem?_modify_self hput] at hput'
    cases hput'
    exact absurd hreply (hno put hnone)
  · exact hnoted

end Dispatch

/-! ## Every run -/

theorem confirming_step (h : Confirming s) (hsourced : Sourced s) (hfenced : Fenced s)
    (hrouted : Routed s) (hserial : Serial s) (hstep : step s a = some s') :
    Confirming s' := by
  by_cases hdispatch : ∃ p answer, a = .dispatch p answer
  · obtain ⟨p, answer, rfl⟩ := hdispatch
    obtain ⟨put, epoch, stage, hput, hphase, hstage⟩ := dispatch_cases hstep
    exact confirming_dispatchPut h hserial hrouted hfenced hput hphase hstage
  · exact confirming_other h hsourced hfenced hrouted hstep
      fun p answer ha => hdispatch ⟨p, answer, ha⟩

theorem not_replied_startSample {entry : Option (StreamEntry V Id)} {reason : String} :
    ∀ event ∈ (startSample route entry reason now).2, event.notReply := by
  unfold startSample
  split
  · simp
  · split <;> · intro event hevent
                cases List.mem_singleton.mp hevent
                trivial

theorem confirming_start (u : Startup V Id) : Confirming (initializeRuntime u) := by
  have hnot : ∀ event ∈ (initializeRuntime u).log, event.notReply := by
    intro event hevent
    rcases List.mem_append.mp hevent with hevent | hevent
    · exact not_replied_startSample event hevent
    · exact not_replied_startSample event hevent
  refine ⟨?_, ?_, ?_⟩
  · rintro p stage ⟨put, epoch, hput, -⟩
    cases hput
  · intro p c hmem
    exact (hnot _ hmem).elim
  · rw [confirmations_notReply hnot]
    exact List.Pairwise.nil

theorem confirming_reachable (h : machine.Reachable s) : Confirming s := by
  refine Machine.Reachable.invariant_with
    (I := fun s => Sourced s ∧ Fenced s ∧ Routed s ∧ Serial s)
    (fun s hs => ⟨sourced_reachable hs, fenced_reachable hs, routed_reachable hs,
      serial_reachable hs⟩) ?_ ?_ h
  · rintro s ⟨u, rfl⟩
    exact confirming_start u
  · rintro s a s' ⟨hsourced, hfenced, hrouted, hserial⟩ - hconfirming hstep
    exact confirming_step hconfirming hsourced hfenced hrouted hserial hstep

/-- An entry of a read route that is not the confirmation route reaches no pending put. -/
theorem read_never_confirms (hrouted : Routed s) (hpos : ∀ d ∈ s.deliveries, 0 < d.metadata.epoch)
    {i : Nat} (hroute : State.confirmationRoute s.config = .confirm)
    (hd : s.deliveries[i]? = some d) (hread : d.route = .read)
    (hstep : step s (.deliver i now) = some s') :
    s'.pendingPuts = s.pendingPuts := by
  have hcannot : canConfirm s d.route = false := by
    rw [hread, canConfirm, if_pos rfl, hrouted.readConfirms, State.readConfirmsOf, hroute]
    simp
  obtain ⟨d', hd', -, -, ⟨-, rfl⟩ | ⟨entry, rest, -, halive, rfl⟩⟩ := deliver_cases hstep
  · rfl
  · rw [hd] at hd'
    cases hd'
    have hturn := handleEntry_delivered entry now halive (hpos d (List.mem_of_getElem? hd))
    show (s.handleEntry d entry now).1.pendingPuts = s.pendingPuts
    generalize s.handleEntry d entry now = turn at hturn
    cases hturn with
    | stale hepoch => rfl
    | accepted raw timestamp view pendingPuts hepoch hpayload htime hview hobserve =>
      rw [hcannot] at hobserve
      exact hobserve
    | rejected view error hepoch hview => rfl

/-- Confirmed puts in one state.  `noted`: a successful reply of `dispatchPut` is in the log.
    `confirmed`: on a PV with a confirmation, a reply rests on an entry of the confirmation
    route that was processed while the put was registered, after the write, with an ID above
    the snapshot, in the captured epoch and with the value that was written.  `distinct`: a read
    route of its own never completes a put.  `increasing`: within an epoch every reply needs a
    later entry than the replies before it. -/
structure PutsConfirmed (s : State V Id) : Prop where
  noted : ∀ p a s' put put', step s (.dispatch p a) = some s' → s.puts[p]? = some put →
    s'.puts[p]? = some put' → put.request.outcome = none → put'.request.outcome = some .reply →
    ∃ confirmedBy, s'.log = s.log ++ [.put p (.replied confirmedBy)]
  confirmed : ∀ p confirmedBy, .put p (.replied confirmedBy) ∈ s.log →
    s.config.confirm.isSome = true → ∃ o, confirmedBy = some o ∧
      ConfirmedBy (State.confirmationRoute s.config) p o [.put p (.replied (some o))] s.log
  distinct : ∀ i now d s', State.confirmationRoute s.config = .confirm →
    s.deliveries[i]? = some d → d.route = .read → step s (.deliver i now) = some s' →
    s'.pendingPuts = s.pendingPuts
  increasing : (confirmations s.log).Pairwise fun o o' =>
    o.metadata.epoch = o'.metadata.epoch → o.id < o'.id

/-- **A confirmed put succeeds only on a fresh matching observation**, and repeated commands
    each need their own. -/
theorem puts_confirmed (hs : machine.Reachable s) : PutsConfirmed s := by
  have h := confirming_reachable hs
  have hpos : ∀ d ∈ s.deliveries, 0 < d.metadata.epoch :=
    fun d hd => ((sourced_reachable hs).inFlight d hd).1
  refine ⟨?_, h.replied, ?_, h.ordered⟩
  · intro p a s' put put' hstep hput hput' hnone hreply
    exact dispatch_noted h hstep hput hput' hnone hreply
  · intro i now d s' hroute hd hread hstep
    exact read_never_confirms (routed_reachable hs) hpos hroute hd hread hstep

/-- A PV whose commands are confirmed by a readback stream of its own. -/
def confirmedStartup : Startup Bool Nat :=
  { quietStartup with
    config := { name := "PV", read := { backend := "default", key := "k" }
                write := some { backend := "default", key := "k:set" }
                confirm := some { backend := "default", key := "k:rb", timeoutMs := 100 } }
    confirmStatus := { active := true, connected := true, streamKind := .stream } }

/-- One command of `true` on put `p`, confirmed by entry `id` of the readback stream.  Batches
    are delivered until they are empty, so each command leaves none behind. -/
def confirmedCommand (p after id : Nat) : List (Label Bool Nat) :=
  [.arrive (some true), .handlePut p none, .handlePut p none, .startPut p] ++
  List.replicate 11 (.dispatch p { snapshot := some after, write := .ok 7 }) ++
  [.dispatch p {},
   .read .read [{ id := id, payload := some true, time := some 8 }],
   .deliver 0 10, .deliver 0 10,
   .read .confirm [{ id := after, payload := some true, time := some 8 },
                   { id := id, payload := some true, time := some 8 }],
   .deliver 0 10, .deliver 0 10, .deliver 0 10,
   .dispatch p {}, .dispatch p {}]

/-- The same command twice: the entry that confirmed the first does not confirm the second. -/
theorem puts_confirmed_repeated :
    ∃ s : State Bool Nat, machine.Reachable s ∧
      (confirmations s.log).map Processed.id = [4, 9] ∧ PutsConfirmed s := by
  have hrun : (machine.exec (initializeRuntime confirmedStartup)
      (.activate :: (confirmedCommand 0 3 4 ++ confirmedCommand 1 4 9))).map
        (fun s => (confirmations s.log).map Processed.id) = some [4, 9] := by
    decide
  obtain ⟨s, hs, hlog⟩ := Option.map_eq_some_iff.mp hrun
  have hr : machine.Reachable s := ⟨_, _, ⟨confirmedStartup, rfl⟩, hs⟩
  exact ⟨s, hr, hlog, puts_confirmed hr⟩

end RedisPvxsIoc.Runtime.Typed
