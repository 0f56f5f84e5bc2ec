import RedisPvxsIoc.Runtime.Steps
import RedisPvxsIoc.Runtime.NDArray

/-!
# Source Readiness Is Sound

A runtime calls a route ready from facts that change independently: the reader's status at
the tick, the epoch and rejection count captured when a batch was read, and the order in
which delayed batches are delivered.  The invariant `Sourced` ties a valid sample state to
the last entry that was processed on its route and to the evidence captured when that entry
was read; a report of `ready` then says what it should (`RouteOk.ready`).

Entries of an old epoch are dropped: they move the counter `staleCallbacks` and nothing else.

## Main results

- `Typed.sourced_reachable`, `NDArray.sourced_reachable`
- `readiness_sound`
-/

namespace RedisPvxsIoc.Runtime

open Config Foundations

set_option linter.unusedSectionVars false

variable {now i : Nat} {r : Reader}

namespace Typed

variable {V Id : Type} [ValueType V] [LinearOrder Id]

/-! ## The last processed entry of a route -/

def processedOn (route : Route) : Event V Id → Option (Processed V Id)
  | .processed r o _ => if r = route then some o else none
  | _ => none

def lastProcessed (route : Route) (log : List (Event V Id)) : Option (Processed V Id) :=
  (log.filterMap (processedOn route)).getLast?

variable {route : Route} {log : List (Event V Id)}

@[simp] theorem lastProcessed_put (p : PutId) (event : PutEvent V Id) :
    lastProcessed route (log ++ [.put p event]) = lastProcessed route log := by
  simp [lastProcessed, processedOn]

@[simp] theorem lastProcessed_deactivated :
    lastProcessed route (log ++ [.deactivated]) = lastProcessed route log := by
  simp [lastProcessed, processedOn]

theorem lastProcessed_processed (r : Route) (o : Processed V Id) (keys : List Nat) :
    lastProcessed route (log ++ [.processed r o keys]) =
      if r = route then some o else lastProcessed route log := by
  by_cases h : r = route <;> simp [lastProcessed, processedOn, h]

/-! ## The invariant -/

/-- Readers count soundly, batches in flight and valid samples carry sound evidence. -/
structure Sourced (s : State V Id) : Prop where
  sound : ∀ route r, s.reader route = some r → r.Sound
  inFlight : ∀ d ∈ s.deliveries, 0 < d.metadata.epoch ∧
    ∀ r, s.reader d.route = some r → ReadEvidence r d.metadata d.readAt
  routes : ∀ route, RouteOk (s.reader route) (s.sample route) (lastProcessed route s.log)

variable {s s' : State V Id}

/-- Steps that touch neither readers nor samples, and drop or keep batches. -/
theorem Sourced.of_same (h : Sourced s) (hreader : s'.reader = s.reader)
    (hsample : ∀ route, SameEvidence (s'.sample route) (s.sample route))
    (hflight : ∀ d ∈ s'.deliveries, d ∈ s.deliveries)
    (hlog : ∀ route, lastProcessed route s'.log = lastProcessed route s.log) : Sourced s' where
  sound := by
    rw [hreader]
    exact h.sound
  inFlight := by
    intro d hd
    rw [hreader]
    exact h.inFlight d (hflight d hd)
  routes := by
    intro route
    rw [hreader, hlog]
    exact (h.routes route).congr (hsample route)

theorem Sourced.of_putFrame {p : PutId} (h : Sourced s) (hf : PutFrame s p s') : Sourced s' := by
  apply h.of_same hf.reader
  · intro route
    rw [hf.sample]
    exact .refl _
  · rw [hf.deliveries]
    exact fun _ hd => hd
  · intro route
    rcases hf.log with hlog | ⟨event, hlog⟩
    · rw [hlog]
    · rw [hlog, lastProcessed_put]

/-- A step that leaves the four components alone, by computation. -/
theorem Sourced.of_eq (h : Sourced s) (hreader : s'.reader = s.reader)
    (hsample : s'.sample = s.sample) (hflight : s'.deliveries = s.deliveries)
    (hlog : s'.log = s.log) : Sourced s' :=
  h.of_same hreader (fun _ => hsample ▸ .refl _) (fun _ hd => hflight ▸ hd) (fun _ => by rw [hlog])

/-! ## Readers -/

theorem setReader_self (s : State V Id) (route : Route) (r : Reader) :
    (s.setReader route r).reader route = some r := Function.update_self ..

theorem setReader_ne (s : State V Id) {x : Route} (r : Reader) (h : x ≠ route) :
    (s.setReader route r).reader x = s.reader x := Function.update_of_ne h ..

/-- A route whose reader moves on keeps its evidence, and no other route is touched. -/
theorem Sourced.move (h : Sourced s) {r' : Reader} (hr : s.reader route = some r)
    (hsound : r'.Sound)
    (hmono : ∀ metadata readAt, ReadEvidence r metadata readAt → ReadEvidence r' metadata readAt) :
    Sourced (s.setReader route r') where
  sound := by
    intro x y hy
    by_cases hx : x = route
    · subst hx
      rw [setReader_self, Option.some.injEq] at hy
      exact hy ▸ hsound
    · rw [setReader_ne s r' hx] at hy
      exact h.sound x y hy
  inFlight := by
    intro d hd
    obtain ⟨hpos, hevidence⟩ := h.inFlight d hd
    refine ⟨hpos, fun y hy => ?_⟩
    by_cases hx : d.route = route
    · rw [hx, setReader_self, Option.some.injEq] at hy
      exact hy ▸ hmono _ _ (hevidence r (hx ▸ hr))
    · rw [setReader_ne s r' hx] at hy
      exact hevidence y hy
  routes := by
    intro x
    apply (h.routes x).mono
    intro metadata readAt hevidence y hy
    by_cases hx : x = route
    · subst hx
      rw [setReader_self, Option.some.injEq] at hy
      exact hy ▸ hmono _ _ (hevidence r hr)
    · rw [setReader_ne s r' hx] at hy
      exact hevidence y hy

theorem sourced_read (h : Sourced s) (hr : s.reader route = some r)
    (entries : List (StreamEntry V Id)) :
    Sourced { s.setReader route r.capture.1 with
      deliveries := s.deliveries ++
        [{ route := route, metadata := r.capture.2.1, entries := entries
           readAt := r.capture.2.2 }] } := by
  have hsound := h.sound route r hr
  have hmoved := h.move hr (Reader.sound_capture hsound) fun _ _ he => he.mono_capture
  refine ⟨hmoved.sound, fun d hd => ?_, hmoved.routes⟩
  rcases List.mem_append.mp hd with hd | hd
  · exact hmoved.inFlight d hd
  · -- the new batch carries the evidence captured just now
    rw [List.mem_singleton] at hd
    subst hd
    refine ⟨hsound.epoch_pos, fun y hy => ?_⟩
    replace hy : (s.setReader route r.capture.1).reader route = some y := hy
    rw [setReader_self, Option.some.injEq] at hy
    exact hy ▸ ReadEvidence.of_capture hsound

/-- Retirement takes the readers away: there is nothing left to be sound about. -/
theorem sourced_retire (h : Sourced s) (cause : Retirement) : Sourced (s.retire cause) where
  sound := by
    intro route r hr
    cases hr
  inFlight := by
    intro d hd
    refine ⟨(h.inFlight d hd).1, fun r hr => ?_⟩
    cases hr
  routes := by
    intro route
    show RouteOk none (s.sample route) (lastProcessed route (s.log ++ [.deactivated]))
    rw [lastProcessed_deactivated]
    exact (h.routes route).mono fun _ _ _ r' hr' => by cases hr'

/-! ## Deliveries -/

variable {d : Delivery V Id}

/-- One turn of `handleRead`: the batch in hand carries sound evidence, so the entry it
    processes may become the route's last one. -/
theorem sourced_delivered {entry : StreamEntry V Id} {turn : State V Id × Bool} (h : Sourced s)
    (hd : d ∈ s.deliveries) (hnow : 0 < now) (ht : Delivered s d entry now turn) :
    Sourced turn.1 := by
  obtain ⟨hpos, hevidence⟩ := h.inFlight d hd
  cases ht with
  | stale hepoch =>
    refine h.of_same rfl (fun route => ?_) (fun _ hx => hx) (fun _ => rfl)
    exact sameEvidence_update (sameEvidence_countStale _) route
  | accepted raw timestamp view pendingPuts hepoch hpayload htime hview hpending =>
    refine ⟨h.sound, h.inFlight, fun route => ?_⟩
    show RouteOk (s.reader route) _ (lastProcessed route (s.log ++ [.processed d.route _ _]))
    rw [lastProcessed_processed]
    by_cases hroute : d.route = route
    · subst hroute
      rw [if_pos rfl]
      dsimp only
      rw [Function.update_self]
      have hok : RouteOk (s.reader d.route) _ (some (observation d entry (some raw) now)) :=
        RouteOk.accept (s.sample d.route) rfl hnow hevidence
      exact hok
    · rw [if_neg hroute]
      dsimp only
      rw [Function.update_of_ne (Ne.symm hroute)]
      exact h.routes route
  | rejected view error hepoch hview =>
    refine ⟨h.sound, h.inFlight, fun route => ?_⟩
    show RouteOk (s.reader route) _ (lastProcessed route (s.log ++ [.processed d.route _ _]))
    rw [lastProcessed_processed]
    by_cases hroute : d.route = route
    · subst hroute
      dsimp only
      rw [Function.update_self]
      exact RouteOk.of_invalid rfl
    · rw [if_neg hroute]
      dsimp only
      rw [Function.update_of_ne (Ne.symm hroute)]
      exact h.routes route

/-- The batches after a turn are batches from before with fewer entries. -/
theorem Sourced.finishTurn {rest : List (StreamEntry V Id)} {turn : State V Id × Bool}
    (h : Sourced s) (ht : Sourced turn.1) (hreader : turn.1.reader = s.reader)
    (hd : d ∈ s.deliveries) :
    Sourced (s.finishTurn i d rest turn) := by
  refine ⟨ht.sound, fun x hx => ?_, ht.routes⟩
  show _ ∧ ∀ r, turn.1.reader x.route = some r → _
  rw [hreader]
  simp only [State.finishTurn] at hx
  split at hx
  · rcases List.mem_or_eq_of_mem_set hx with hx | rfl
    · exact h.inFlight x hx
    · exact h.inFlight d hd
  · exact h.inFlight x (List.mem_of_mem_eraseIdx hx)

/-! ## Runs -/

/-- The startup snapshot counts as a sample that was read in epoch 1. -/
theorem startSample_route {entry : Option (StreamEntry V Id)} {reason : String} (hnow : 0 < now)
    {handle : Option Reader}
    (hhandle : ∀ r, handle = some r → ∃ status, r = Reader.subscribed status) :
    RouteOk handle (startSample route entry reason now).1
      (lastProcessed route (startSample route entry reason now).2) := by
  unfold startSample
  split
  · exact RouteOk.of_invalid rfl
  · rename_i entry
    split
    · rename_i raw timestamp hpayload htime
      have hlast : lastProcessed route [.processed route (snapshotSample entry (some raw) now) []] =
          some (snapshotSample entry (some raw) now) := by
        simp [lastProcessed, processedOn]
      have hok : RouteOk handle _ (some (snapshotSample entry (some raw) now)) :=
        RouteOk.accept {} rfl hnow (by
          intro r hr
          obtain ⟨status, rfl⟩ := hhandle r hr
          exact ReadEvidence.of_snapshot status)
      rw [hlast]
      exact hok
    · exact RouteOk.of_invalid rfl

theorem startSample_other {other : Route} (h : route ≠ other) (entry : Option (StreamEntry V Id))
    (reason : String) (now : Nat) :
    (startSample route entry reason now).2.filterMap (processedOn other) = [] := by
  unfold startSample
  split
  · rfl
  · split <;> simp [processedOn, h]

theorem sourced_start (u : Startup V Id) : Sourced (initializeRuntime u) := by
  have hsubscribed : ∀ route r, (initializeRuntime u).reader route = some r →
      ∃ status, r = Reader.subscribed status := by
    intro route r hr
    cases route with
    | read =>
      cases hr
      exact ⟨_, rfl⟩
    | confirm =>
      simp only [initializeRuntime] at hr
      split at hr <;> cases hr
      exact ⟨_, rfl⟩
  refine ⟨?_, ?_, ?_⟩
  · intro route r hr
    obtain ⟨status, rfl⟩ := hsubscribed route r hr
    exact Reader.sound_subscribed status
  · intro d hd
    cases hd
  · -- each route finds its own snapshot in the log, and none of the other route's
    intro route
    have hlast : lastProcessed route (initializeRuntime u).log =
        lastProcessed route (startRoute u route).2 := by
      have hread : ∀ (entry : Option (StreamEntry V Id)) reason now,
          (startSample .read entry reason now).2.filterMap (processedOn .confirm) = [] :=
        startSample_other (by decide)
      have hconfirm : ∀ (entry : Option (StreamEntry V Id)) reason now,
          (startSample .confirm entry reason now).2.filterMap (processedOn .read) = [] :=
        startSample_other (by decide)
      cases route <;>
        simp [lastProcessed, initializeRuntime, startRoute, hread, hconfirm]
    rw [hlast]
    cases route with
    | read => exact startSample_route u.now_pos (hsubscribed .read)
    | confirm => exact startSample_route u.now_pos (hsubscribed .confirm)

theorem sourced_step (h : Sourced s) {a : Label V Id} (hstep : step s a = some s') :
    Sourced s' := by
  cases step_cases hstep with
  | handled _ _ _ hadmission => exact h.of_putFrame hadmission.frame
  | dispatched _ _ hput => exact h.of_putFrame hput.frame
  | arrived | started | dropped | stopped | prepared | committed | refreshed | ignored
  | activated | deactivated => exact h.of_eq rfl rfl rfl rfl
  | returned =>
    exact h.of_same rfl (fun _ => .refl _) (fun _ hd => hd) (fun _ => lastProcessed_deactivated)
  | retired => exact sourced_retire h _
  | moved event hr =>
    exact h.move hr (Reader.sound_apply (h.sound _ _ hr) event) fun _ _ he => he.mono event
  | read entries hr => exact sourced_read h hr entries
  | skipped =>
    exact h.of_same rfl (fun _ => .refl _) (fun _ hx => List.mem_of_mem_eraseIdx hx)
      (fun _ => rfl)
  | delivered now entry hi _ hnow _ halive =>
    have hd := List.mem_of_getElem? hi
    have ht := handleEntry_delivered entry now halive (h.inFlight _ hd).1
    exact h.finishTurn (sourced_delivered h hd hnow ht) ht.reader hd
  | ticked _ _ hframe =>
    obtain ⟨_, _, _, rfl⟩ := hframe.rest
    exact h.of_same rfl hframe.evidence (fun _ hx => hx) (fun _ => rfl)

theorem sourced_reachable (h : machine.Reachable s) : Sourced s := by
  refine Machine.Reachable.invariant ?_ ?_ h
  · rintro s ⟨u, rfl⟩
    exact sourced_start u
  · intro s a s' hs hstep
    exact sourced_step hs hstep

/-! ## What a tick reports, and what an old batch does -/

/-- **A route that a tick reports ready rests on its last processed entry.** -/
theorem tick_ready {status : SourceStatus Id} (h : Sourced s)
    (hstatus : status ∈ (s.sourceHealth now).2) (hready : status.ready = true) :
    ∃ route r, (status.role = .confirm ↔ route = .confirm) ∧ s.reader route = some r ∧
      ReadyRests r (lastProcessed route s.log) s.config.sourceHealth.staleAfterMs now := by
  obtain ⟨route, target, role, probeMs, hrole, rfl⟩ := sourceHealth_statuses hstatus
  obtain ⟨r, hr, hrests⟩ := (h.routes route).ready (assessSource_ready hready)
  exact ⟨route, r, hrole, hr, hrests⟩

/-- **A batch of an old epoch is dropped.**  On a retired runtime not even the counter moves. -/
theorem stale_dropped (h : Sourced s) (hd : s.deliveries[i]? = some d)
    (hepoch : s.sourceEpoch d.route ≠ d.metadata.epoch)
    (hstep : step s (.deliver i now) = some s') :
    ∃ n, s' = { s.setSample d.route { s.sample d.route with staleCallbacks := n } with
      deliveries := s.deliveries.eraseIdx i } := by
  obtain ⟨d', hd', -, -, hcases⟩ := deliver_cases hstep
  obtain rfl : d = d' := Option.some.inj (hd.symm.trans hd')
  rcases hcases with ⟨-, rfl⟩ | ⟨entry, rest, -, halive, rfl⟩
  · refine ⟨(s.sample d.route).staleCallbacks, ?_⟩
    simp [State.setSample]
  · refine ⟨(s.sample d.route).staleCallbacks + 1, ?_⟩
    have hpos := (h.inFlight d (List.mem_of_getElem? hd)).1
    have ht := handleEntry_delivered entry now halive hpos
    generalize s.handleEntry d entry now = turn at ht ⊢
    cases ht with
    | stale _ => rfl
    | accepted raw timestamp view pendingPuts hsame => exact absurd hsame hepoch
    | rejected view error hsame => exact absurd hsame hepoch

end Typed

/-! ## Image runtimes -/

namespace NDArray

variable {P Id : Type}

/-- The same invariant for the one route of an image runtime. -/
structure Sourced (s : State P Id) : Prop where
  sound : ∀ r, s.reader = some r → r.Sound
  inFlight : ∀ d ∈ s.deliveries, ∀ r, s.reader = some r → ReadEvidence r d.metadata d.readAt
  route : RouteOk s.reader s.sample s.log.getLast?

variable {s s' : State P Id}

theorem Sourced.of_same (h : Sourced s) (hreader : s'.reader = s.reader)
    (hsample : SameEvidence s'.sample s.sample) (hflight : ∀ d ∈ s'.deliveries, d ∈ s.deliveries)
    (hlog : s'.log = s.log) : Sourced s' where
  sound := by
    rw [hreader]
    exact h.sound
  inFlight := by
    intro d hd
    rw [hreader]
    exact h.inFlight d (hflight d hd)
  route := by
    rw [hreader, hlog]
    exact h.route.congr hsample

/-- The reader moves on without losing evidence. -/
theorem Sourced.move (h : Sourced s) {r' : Reader} (hr : s.reader = some r) (hsound : r'.Sound)
    (hmono : ∀ metadata readAt, ReadEvidence r metadata readAt → ReadEvidence r' metadata readAt) :
    Sourced { s with reader := some r' } where
  sound := by
    rintro y ⟨⟩
    exact hsound
  inFlight := by
    rintro d hd y ⟨⟩
    exact hmono _ _ (h.inFlight d hd r hr)
  route := by
    apply h.route.mono
    rintro metadata readAt hevidence y ⟨⟩
    exact hmono _ _ (hevidence r hr)

theorem sourced_read (h : Sourced s) {entries : List (StreamEntry P Id)}
    (hstep : s.read entries = some s') : Sourced s' := by
  obtain ⟨r, hr, rfl⟩ := Option.map_eq_some_iff.mp hstep
  have hmoved := h.move hr (Reader.sound_capture (h.sound r hr)) fun _ _ he => he.mono_capture
  refine ⟨hmoved.sound, fun d hd => ?_, hmoved.route⟩
  rcases List.mem_append.mp hd with hd | hd
  · exact hmoved.inFlight d hd
  · rw [List.mem_singleton] at hd
    subst hd
    rintro y ⟨⟩
    exact ReadEvidence.of_capture (h.sound r hr)

variable {d : Delivery P Id}

/-- A good frame becomes the last processed entry. -/
theorem sourced_acceptFrame (h : Sourced s) (hd : d ∈ s.deliveries) (entry : StreamEntry P Id)
    (frame : NDArrayFrame P) (hnow : 0 < now) :
    Sourced (s.acceptFrame d entry frame now) := by
  refine ⟨h.sound, h.inFlight, ?_⟩
  show RouteOk s.reader _ (s.log ++ [State.processed d entry (some frame) now]).getLast?
  rw [List.getLast?_concat]
  have hok : RouteOk s.reader _ (some (State.processed d entry (some frame) now)) :=
    RouteOk.accept s.sample rfl hnow (h.inFlight d hd)
  exact hok

theorem sourced_rejectFrame (h : Sourced s) (d : Delivery P Id) (entry : StreamEntry P Id)
    (error : String) (now : Nat) : Sourced (s.rejectFrame d entry error now) :=
  ⟨h.sound, h.inFlight, RouteOk.of_invalid rfl⟩

/-- The batch that a delivery label takes, and the turn of the loop it makes. -/
theorem deliver_cases (h : s.deliver i now = some s') :
    ∃ d, s.deliveries[i]? = some d ∧ 0 < now ∧
      (s' = { s with deliveries := s.deliveries.eraseIdx i } ∨
        ∃ entry rest, s' = s.finishTurn i d rest (s.handleEntry d entry now)) := by
  unfold State.deliver at h
  split at h
  · cases h
  · rename_i d hd
    split at h
    · cases h
    · rename_i hnow
      refine ⟨d, hd, Nat.pos_of_ne_zero (by simpa using hnow), ?_⟩
      split at h <;> cases h
      · exact .inl rfl
      · exact .inr ⟨_, _, rfl⟩

theorem sourced_handleEntry (h : Sourced s) (hd : d ∈ s.deliveries) (entry : StreamEntry P Id)
    (hnow : 0 < now) :
    Sourced (s.handleEntry d entry now).1 ∧
      (s.handleEntry d entry now).1.reader = s.reader := by
  unfold State.handleEntry
  split
  · exact ⟨h, rfl⟩
  · split
    · exact ⟨h.of_same rfl (sameEvidence_countStale _) (fun _ hx => hx) rfl, rfl⟩
    · split
      · exact ⟨sourced_acceptFrame h hd entry _ hnow, rfl⟩
      · exact ⟨sourced_rejectFrame h d entry _ now, rfl⟩

theorem sourced_deliver (h : Sourced s) (hstep : s.deliver i now = some s') :
    Sourced s' := by
  obtain ⟨d, hi, hnow, hcases⟩ := deliver_cases hstep
  have hd : d ∈ s.deliveries := List.mem_of_getElem? hi
  rcases hcases with rfl | ⟨entry, rest, rfl⟩
  · exact h.of_same rfl (.refl _) (fun _ hx => List.mem_of_mem_eraseIdx hx) rfl
  · obtain ⟨ht, hreader⟩ := sourced_handleEntry h hd entry hnow
    refine ⟨ht.sound, fun x hx => ?_, ht.route⟩
    show ∀ r, (s.handleEntry d entry now).1.reader = some r → _
    rw [hreader]
    simp only [State.finishTurn] at hx
    split at hx
    · rcases List.mem_or_eq_of_mem_set hx with hx | rfl
      · exact h.inFlight x hx
      · exact h.inFlight d hd
    · exact h.inFlight x (List.mem_of_mem_eraseIdx hx)

theorem sourced_tick (h : Sourced s) (now : Nat) : Sourced (s.sourceHealth now).1 := by
  have hsame := sameEvidence_assess s.sample (handleStatus s.reader) s.config s.fullName
    s.config.read .read s.serving s.probeMs now
  unfold State.sourceHealth
  dsimp only
  split <;> exact h.of_same rfl hsame (fun _ hx => hx) rfl

theorem sourced_start (u : Startup P Id) : Sourced (initializeRuntime u) := by
  unfold initializeRuntime
  dsimp only
  have hsound : ∀ r, some (Reader.subscribed u.status) = some r → r.Sound := by
    rintro r ⟨⟩
    exact Reader.sound_subscribed u.status
  split
  · exact ⟨hsound, (fun _ hd => by cases hd), RouteOk.of_invalid rfl⟩
  · rename_i entry _
    split
    · rename_i frame _
      refine ⟨hsound, (fun _ hd => by cases hd), ?_⟩
      have hok : RouteOk (some (Reader.subscribed u.status)) _
          (some (snapshotSample entry (some frame) u.now)) :=
        RouteOk.accept {} rfl u.now_pos (by
          rintro r ⟨⟩
          exact ReadEvidence.of_snapshot u.status)
      exact hok
    · exact ⟨hsound, (fun _ hd => by cases hd), RouteOk.of_invalid rfl⟩

theorem sourced_step (h : Sourced s) {a : Label P Id} (hstep : step s a = some s') :
    Sourced s' := by
  cases a with
  | prepare config generation publisher =>
    simp only [step, State.prepareReconfigure] at hstep
    split at hstep <;> cases hstep
    exact h.of_same rfl (.refl _) (fun _ hx => hx) rfl
  | commit i =>
    obtain ⟨update, -, rfl⟩ := Option.map_eq_some_iff.mp hstep
    exact h.of_same rfl (.refl _) (fun _ hx => hx) rfl
  | refresh =>
    cases hstep
    unfold State.refresh
    split <;> exact h.of_same rfl (.refl _) (fun _ hx => hx) rfl
  | activate =>
    cases hstep
    unfold State.activate
    split <;> exact h.of_same rfl (.refl _) (fun _ hx => hx) rfl
  | deactivate =>
    cases hstep
    unfold State.deactivate
    split
    · exact h
    · refine ⟨?_, ?_, h.route.mono ?_⟩
      · rintro r ⟨⟩
      · rintro d hd r ⟨⟩
      · rintro metadata readAt hevidence r ⟨⟩
  | reader event =>
    obtain ⟨r, hr, rfl⟩ := Option.map_eq_some_iff.mp hstep
    exact h.move hr (Reader.sound_apply (h.sound r hr) event) fun _ _ he => he.mono event
  | read entries => exact sourced_read h hstep
  | deliver i now => exact sourced_deliver h hstep
  | tick now =>
    cases hstep
    exact sourced_tick h now

theorem sourced_reachable (h : machine.Reachable s) : Sourced s := by
  refine Machine.Reachable.invariant ?_ ?_ h
  · rintro s ⟨u, rfl⟩
    exact sourced_start u
  · intro s a s' hs hstep
    exact sourced_step hs hstep

theorem tick_ready (h : Sourced s) (hready : (s.sourceHealth now).2.ready = true) :
    ∃ r, s.reader = some r ∧
      ReadyRests r s.log.getLast? s.config.sourceHealth.staleAfterMs now := by
  apply h.route.ready
  unfold State.sourceHealth at hready
  dsimp only at hready
  split at hready <;> exact assessSource_ready hready

theorem stale_dropped (hd : s.deliveries[i]? = some d)
    (hepoch : (handleStatus s.reader).epoch ≠ d.metadata.epoch)
    (hstep : step s (.deliver i now) = some s') :
    ∃ n, s' = { s with
      sample := { s.sample with staleCallbacks := n }
      deliveries := s.deliveries.eraseIdx i } := by
  obtain ⟨d', hd', -, hcases⟩ := deliver_cases hstep
  obtain rfl : d = d' := Option.some.inj (hd.symm.trans hd')
  rcases hcases with rfl | ⟨entry, rest, rfl⟩
  · exact ⟨s.sample.staleCallbacks, rfl⟩
  · unfold State.handleEntry
    split
    · exact ⟨s.sample.staleCallbacks, rfl⟩
    · exact ⟨s.sample.staleCallbacks + 1, rfl⟩

/-- Readiness of the image route in one state: see `Typed.ReadySound`. -/
structure ReadySound (s : State P Id) : Prop where
  ready : ∀ now, (s.sourceHealth now).2.ready = true →
    ∃ r, s.reader = some r ∧
      ReadyRests r s.log.getLast? s.config.sourceHealth.staleAfterMs now
  stale : ∀ i now d s', s.deliveries[i]? = some d →
    (handleStatus s.reader).epoch ≠ d.metadata.epoch → step s (.deliver i now) = some s' →
    ∃ n, s' = { s with
      sample := { s.sample with staleCallbacks := n }
      deliveries := s.deliveries.eraseIdx i }

end NDArray

/-- Readiness of the routes of a typed runtime in one state.  `ready`: what a tick calls ready
    rests on a reader and on the last entry processed on that route.  `stale`: an entry whose
    captured epoch is not the reader's changes one counter and drops its batch. -/
structure Typed.ReadySound {V Id : Type} [ValueType V] [LinearOrder Id] (s : Typed.State V Id) :
    Prop where
  ready : ∀ now status, status ∈ (s.sourceHealth now).2 → status.ready = true →
    ∃ route r, (status.role = .confirm ↔ route = .confirm) ∧ s.reader route = some r ∧
      ReadyRests r (lastProcessed route s.log) s.config.sourceHealth.staleAfterMs now
  stale : ∀ i now d s', s.deliveries[i]? = some d → s.sourceEpoch d.route ≠ d.metadata.epoch →
    step s (.deliver i now) = some s' →
    ∃ n, s' = { s.setSample d.route { s.sample d.route with staleCallbacks := n } with
      deliveries := s.deliveries.eraseIdx i }

/-- **Source readiness is sound** under delayed and out-of-epoch callbacks, for every runtime
    and every interleaving of its steps with those of its readers. -/
theorem readiness_sound {V P Id : Type} [ValueType V] [LinearOrder Id] :
    (∀ s : Typed.State V Id, Typed.machine.Reachable s → Typed.ReadySound s) ∧
      (∀ s : NDArray.State P Id, NDArray.machine.Reachable s → NDArray.ReadySound s) := by
  constructor
  · intro s hs
    have h := Typed.sourced_reachable hs
    exact ⟨fun _ _ hstatus hready => Typed.tick_ready h hstatus hready,
      fun _ _ _ _ hd hepoch hstep => Typed.stale_dropped h hd hepoch hstep⟩
  · intro s hs
    have h := NDArray.sourced_reachable hs
    exact ⟨fun _ hready => NDArray.tick_ready h hready,
      fun _ _ _ _ hd hepoch hstep => NDArray.stale_dropped hd hepoch hstep⟩

/-- A reader that is up, and a PV without a snapshot. -/
def quietStartup : Typed.Startup Bool Nat where
  fullName := "NS:PV"
  config := { name := "PV", read := { backend := "default", key := "k" } }
  generation := 1
  maxPayloadBytes := 1024
  readProbeMs := 0
  confirmProbeMs := 0
  fallback := false
  publisher := none
  snapshot := none
  confirmation := none
  readStatus := { active := true, connected := true, streamKind := .stream }
  confirmStatus := {}
  now := 1
  now_pos := Nat.one_pos

/-- A batch is read, a read is rejected, another batch is read; both are delivered late. -/
def lateDeliveries : List (Typed.Label Bool Nat) :=
  [.activate,
   .read .read [{ id := 1, payload := some true, time := some 5 }],
   .reader .read .rejected,
   .read .read [{ id := 2, payload := some false, time := some 6 }],
   .deliver 0 10,
   .deliver 1 11]

/-- After the late deliveries the route is ready again, and soundly so: the second batch was
    read after the rejection. -/
theorem readiness_sound_late :
    ∃ s : Typed.State Bool Nat, Typed.machine.Reachable s ∧
      (s.sourceHealth 20).2.map SourceStatus.ready = [true] ∧ Typed.ReadySound s := by
  have hrun : (Typed.machine.exec (Typed.initializeRuntime quietStartup) lateDeliveries).map
      (fun s => (s.sourceHealth 20).2.map SourceStatus.ready) = some [true] := by
    decide
  obtain ⟨s, hs, hready⟩ := Option.map_eq_some_iff.mp hrun
  have hr : Typed.machine.Reachable s := ⟨_, _, ⟨quietStartup, rfl⟩, hs⟩
  exact ⟨s, hr, hready, (readiness_sound (P := Unit)).1 s hr⟩

end RedisPvxsIoc.Runtime
