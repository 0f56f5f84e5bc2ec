import RedisPvxsIoc.Runtime.Confirmation

/-!
# The Outcome of a Confirmed Write

Four writers may decide a pending put before its waiter reads it: an entry of the confirmation
route, a health tick that finds another epoch, a reload that changes the transform, and the
retirement of the runtime.  The first two leave a decided put alone.  The last two go through
`failPendingLocked`, which does not look: it also overturns a put that its readback has
confirmed.

`PendingStep` says what each step does to the pending puts, and `State.failing` names the steps
that overturn.

## Main results

- `outcome_decided_once_iff`: a decided outcome stays as it is exactly along the runs without
  an overturning step
- `confirmed_write_overturned`: the operator is told that a confirmed write has failed
-/

namespace RedisPvxsIoc.Runtime.Typed

open Config Foundations

set_option linter.unusedSectionVars false

variable {V Id : Type} [ValueType V] [LinearOrder Id] {s s' : State V Id} {p : PutId}
  {put : Put V Id}

/-! ## What a step does to the pending puts -/

/-- The reason that a step hands to `failPendingLocked`, if it calls it. -/
def State.failing (s : State V Id) : Label V Id → Option String
  | .commit i => (s.updates[i]?).bind fun update =>
    if s.config.transform ≠ update.config.transform then
      some "write transform changed during reload"
    else none
  | .retire => s.retiring.map Retirement.reason
  | _ => none

/-- A writer that leaves decided puts alone. -/
def Respects (f : PendingPut V Id → PendingPut V Id) : Prop :=
  ∀ pending, pending.done = true → (f pending).done = true ∧ (f pending).error = pending.error

inductive PendingStep (s : State V Id) (a : Label V Id) (s' : State V Id) : Prop where
  | kept (hnot : s.failing a = none) (hpending : s'.pendingPuts = s.pendingPuts)
      (hnext : s'.nextPendingId = s.nextPendingId)
  | decided (hnot : s.failing a = none) (f : PendingPut V Id → PendingPut V Id)
      (hf : Respects f) (hpending : s'.pendingPuts = s.pendingPuts.mapValues f)
      (hnext : s'.nextPendingId = s.nextPendingId)
  | failed (reason : String) (hfailing : s.failing a = some reason)
      (hpending : s'.pendingPuts = s.pendingPuts.mapValues fun pending => pending.fail reason)
      (hnext : s'.nextPendingId = s.nextPendingId)
  | registered (hnot : s.failing a = none) (pending : PendingPut V Id)
      (hpending : s'.pendingPuts = s.pendingPuts.insert (s.nextPendingId + 1) pending)
      (hnext : s'.nextPendingId = s.nextPendingId + 1)
  | erased (hnot : s.failing a = none) (id : Nat)
      (hpending : s'.pendingPuts = s.pendingPuts.erase id)
      (hnext : s'.nextPendingId = s.nextPendingId)

theorem respects_observe (o : Processed V Id) (raw : V) :
    Respects (fun pending : PendingPut V Id => pending.observe o raw) := by
  intro pending hdone
  simp [PendingPut.observe, hdone]

theorem respects_expire (e : Nat) :
    Respects (fun pending : PendingPut V Id => pending.expire e) := by
  intro pending hdone
  simp [PendingPut.expire, hdone]

/-! ### Steps of a put -/

variable {a : Label V Id}

/-- A write that throws or fails takes the put out of the map again. -/
theorem writeToRedis_pendingStep (hnot : s.failing a = none) (epoch : Nat) (l : Locals V Id)
    (id : Option Nat) (result : WriteResult) :
    PendingStep s a (s.writeToRedis p epoch l id result) := by
  cases id with
  | none => cases result <;> exact .kept hnot rfl rfl
  | some id =>
    cases result with
    | threw | failed => exact .erased hnot id rfl rfl
    | ok time => exact .kept hnot rfl rfl

theorem dispatchPut_pendingStep (hnot : s.failing a = none) {epoch : Nat} {answer : Answer Id}
    {stage : Stage V Id} (h : PutStep s p put epoch answer stage s') :
    PendingStep s a s' := by
  cases h with
  | registered => exact .registered hnot _ rfl rfl
  | wrote l id => exact writeToRedis_pendingStep hnot epoch l id answer.write
  | woken => exact .erased hnot _ rfl rfl
  | _ => exact .kept hnot rfl rfl

/-! ### All steps -/

theorem delivered_pendingStep {d : Delivery V Id} {entry : StreamEntry V Id} {i now : Nat}
    {rest : List (StreamEntry V Id)} {turn : State V Id × Bool}
    (hturn : Delivered s d entry now turn) :
    PendingStep s (.deliver i now) (s.finishTurn i d rest turn) := by
  cases hturn with
  | stale hepoch => exact .kept rfl rfl rfl
  | accepted raw timestamp view pendingPuts hepoch hpayload htime hview hpending =>
    by_cases hcan : canConfirm s d.route = true
    · rw [if_pos hcan] at hpending
      exact .decided rfl _ (respects_observe _ raw) hpending rfl
    · rw [if_neg hcan] at hpending
      exact .kept rfl hpending rfl
  | rejected view error hepoch hview => exact .kept rfl rfl rfl

/-- **What a step does to the pending puts**: nothing, a decision that respects earlier ones,
    `failPendingLocked`, a registration under a new number, or a removal. -/
theorem step_pendingStep (h : Sourced s) (hstep : step s a = some s') :
    PendingStep s a s' := by
  cases step_cases hstep with
  | handled _ _ _ hadmission => cases hadmission <;> exact .kept rfl rfl rfl
  | dispatched _ _ hput => exact dispatchPut_pendingStep rfl hput
  | arrived | started | dropped | stopped | prepared | refreshed | ignored | activated
  | deactivated | returned | moved | read | skipped => exact .kept rfl rfl rfl
  | @committed i update hfree hupdate =>
    by_cases hchanged : s.config.transform ≠ update.config.transform
    · have hfailing : s.failing (.commit i) = some "write transform changed during reload" := by
        simp only [State.failing, hupdate, Option.bind_some, if_pos hchanged]
      exact .failed _ hfailing (if_pos hchanged) rfl
    · have hnot : s.failing (.commit i) = none := by
        simp only [State.failing, hupdate, Option.bind_some, if_neg hchanged]
      exact .kept hnot (if_neg hchanged) rfl
  | @retired cause _ hretiring =>
    have hfailing : s.failing .retire = some cause.reason := by
      simp only [State.failing, hretiring, Option.map_some]
    exact .failed _ hfailing rfl rfl
  | delivered now entry hd _ _ _ halive =>
    have hpos := (h.inFlight _ (List.mem_of_getElem? hd)).1
    exact delivered_pendingStep (handleEntry_delivered entry now halive hpos)
  | ticked _ _ hframe =>
    have hnext : s'.nextPendingId = s.nextPendingId := by
      obtain ⟨_, _, _, hrest⟩ := hframe.rest
      rw [hrest]
    rcases hframe.pending with hpending | ⟨e, hpending⟩
    · exact .kept rfl hpending hnext
    · exact .decided rfl _ (respects_expire e) hpending hnext

/-! ## Numbers are never used again -/

/-- Pending puts are registered under numbers that were given out. -/
def Numbered (s : State V Id) : Prop :=
  ∀ id pending, s.pendingPuts.find? id = some pending → id ≤ s.nextPendingId

theorem numbered_step (h : Numbered s) (hstep : PendingStep s a s') :
    Numbered s' := by
  intro id pending hfind
  cases hstep with
  | kept hnot hpending hnext =>
    rw [hpending] at hfind
    exact hnext ▸ h id pending hfind
  | decided hnot f hf hpending hnext =>
    rw [hpending, FinMap.find?_mapValues] at hfind
    obtain ⟨old, hold, -⟩ := Option.map_eq_some_iff.mp hfind
    exact hnext ▸ h id old hold
  | failed reason hfailing hpending hnext =>
    rw [hpending, FinMap.find?_mapValues] at hfind
    obtain ⟨old, hold, -⟩ := Option.map_eq_some_iff.mp hfind
    exact hnext ▸ h id old hold
  | registered hnot new hpending hnext =>
    rw [hpending, FinMap.find?_insert] at hfind
    rw [hnext]
    split at hfind
    · omega
    · have hold := h id pending hfind
      omega
  | erased hnot gone hpending hnext =>
    rw [hpending, FinMap.find?_erase] at hfind
    split at hfind
    · cases hfind
    · exact hnext ▸ h id pending hfind

theorem PendingStep.next_le (hstep : PendingStep s a s') :
    s.nextPendingId ≤ s'.nextPendingId := by
  cases hstep <;> omega

theorem numbered_reachable (h : machine.Reachable s) : Numbered s := by
  refine Machine.Reachable.invariant_with (fun _ hr => sourced_reachable hr) ?_ ?_ h
  · rintro s ⟨u, rfl⟩
    intro id pending hfind
    cases hfind
  · intro s a s' hsourced _ hnumbered hstep
    exact numbered_step hnumbered (step_pendingStep hsourced hstep)

/-! ## A decided outcome -/

/-- As far as put `id` is still registered, it is decided with `error`. -/
def Decided (id : Nat) (error : Option String) (s : State V Id) : Prop :=
  ∀ pending, s.pendingPuts.find? id = some pending →
    pending.done = true ∧ pending.error = error

/-- The step gives another reason to put `id`, which is decided with `error` and still
    registered. -/
def State.overturns (id : Nat) (error : Option String) (s : State V Id) (a : Label V Id) : Bool :=
  s.pendingPuts.contains id && (s.failing a).any fun reason => error != some reason

variable {id : Nat} {error : Option String}

theorem not_overturns (hnot : s.failing a = none) : s.overturns id error a = false := by
  simp [State.overturns, hnot]

/-- One step keeps a decided outcome, unless it overturns it. -/
theorem decided_step (hid : id ≤ s.nextPendingId) (h : Decided id error s)
    (hstep : PendingStep s a s') :
    Decided id error s' ↔ s.overturns id error a = false := by
  cases hstep with
  | kept hnot hpending hnext =>
    refine iff_of_true ?_ (not_overturns hnot)
    intro pending hfind
    exact h pending (hpending ▸ hfind)
  | decided hnot f hf hpending hnext =>
    refine iff_of_true ?_ (not_overturns hnot)
    intro pending hfind
    rw [hpending, FinMap.find?_mapValues] at hfind
    obtain ⟨old, hold, rfl⟩ := Option.map_eq_some_iff.mp hfind
    obtain ⟨hdone, herror⟩ := h old hold
    obtain ⟨hdone', herror'⟩ := hf old hdone
    exact ⟨hdone', herror'.trans herror⟩
  | failed reason hfailing hpending hnext =>
    -- the new reason is harmless only where it is the old one, or where the waiter is gone
    unfold Decided State.overturns FinMap.contains
    rw [hpending, hfailing]
    simp only [FinMap.find?_mapValues, Option.any_some]
    cases s.pendingPuts.find? id with
    | none => simp
    | some old => simp [PendingPut.fail, @eq_comm _ error]
  | registered hnot new hpending hnext =>
    refine iff_of_true ?_ (not_overturns hnot)
    intro pending hfind
    rw [hpending, FinMap.find?_insert_ne _ _ (by omega)] at hfind
    exact h pending hfind
  | erased hnot gone hpending hnext =>
    refine iff_of_true ?_ (not_overturns hnot)
    intro pending hfind
    rw [hpending, FinMap.find?_erase] at hfind
    split at hfind
    · cases hfind
    · exact h pending hfind

/-- The outcome of put `id` that stands in `s` is the outcome in every state of the run in which
    the put is registered, and the one that its waiter reads. -/
structure DecidedOnce (s : State V Id) (as : List (Label V Id)) (id : Nat)
    (error : Option String) : Prop where
  decided : ∀ u ∈ machine.states s as, Decided id error u
  read : ∀ u ∈ machine.states s as, ∀ p answer u', RunningAt u p (.waiting id) →
    step u (.dispatch p answer) = some u' →
      ∃ confirmedBy, RunningAt u' p (.woken error true confirmedBy)

/-- The waiter of a decided put reads what was decided. -/
theorem woken_of_decided (h : Decided id error s) (hrun : RunningAt s p (.waiting id))
    {answer : Answer Id} (hstep : step s (.dispatch p answer) = some s') :
    ∃ confirmedBy, RunningAt s' p (.woken error true confirmedBy) := by
  obtain ⟨put, epoch, hput, hphase⟩ := hrun
  obtain ⟨put', epoch', stage, hput', hphase', hdispatch⟩ := dispatch_cases hstep
  obtain rfl : put = put' := Option.some.inj (hput.symm.trans hput')
  cases hphase.symm.trans hphase'
  cases hdispatch with
  | moved hmove => cases hmove
  | left hreturns | failed hreturns => cases hreturns
  | dropped hlocked | refused hlocked => cases hlocked
  | replied hreply => rcases hreply with ⟨heq, -⟩ | heq <;> cases heq
  | @woken _ pending completed hfind hcompleted =>
    obtain ⟨hdone, herror⟩ := h pending hfind
    have hread : (completed && pending.done) = true := by simp [hdone, hcompleted hdone]
    rw [hread, herror]
    exact ⟨pending.confirmedBy, _, epoch, getElem?_modify_self hput, rfl⟩

/-- **A decided outcome is final exactly without an overturning step**: from any reachable
    state in which a registered put is decided, along any run, the outcome stays and is the
    one the waiter reads, if and only if no reload that changes the transform and no
    retirement gives the put another reason while it is registered. -/
theorem outcome_decided_once_iff (hs : machine.Reachable s) {id : Nat}
    {pending : PendingPut V Id} (hfind : s.pendingPuts.find? id = some pending)
    (hdone : pending.done = true) {as : List (Label V Id)} {t : State V Id}
    (hrun : machine.exec s as = some t) :
    DecidedOnce s as id pending.error ↔
      machine.Guarded (fun u a => u.overturns id pending.error a = false) s as := by
  have hstart : Decided id pending.error s := by
    intro other hother
    cases hfind.symm.trans hother
    exact ⟨hdone, rfl⟩
  have hiff : (∀ u ∈ machine.states s as, Decided id pending.error u) ↔
      machine.Guarded (fun u a => u.overturns id pending.error a = false) s as := by
    refine machine.forall_states_iff_guarded
      (I := fun u => machine.Reachable u ∧ id ≤ u.nextPendingId) ?_ ?_
      ⟨hs, numbered_reachable hs id pending hfind⟩ hstart hrun
    · rintro u a u' ⟨hu, hid⟩ hstep
      refine ⟨hu.step hstep, le_trans hid ?_⟩
      exact (step_pendingStep (sourced_reachable hu) hstep).next_le
    · rintro u a u' ⟨hu, hid⟩ hdecided hstep
      exact decided_step hid hdecided (step_pendingStep (sourced_reachable hu) hstep)
  rw [← hiff]
  refine ⟨fun h => h.decided, fun h => ⟨h, ?_⟩⟩
  intro u hu p answer u' hwaiting hstep
  exact woken_of_decided (h u hu) hwaiting hstep

/-- A scaled setpoint with a readback stream of its own. -/
def scaledStartup : Startup Binary64 Nat where
  fullName := "NS:PV"
  config := { name := "PV", read := { backend := "default", key := "k" }
              write := some { backend := "default", key := "k:set" }
              confirm := some { backend := "default", key := "k:rb", timeoutMs := 100 }
              transform := some { scale := 2, offset := 0 } }
  generation := 1
  maxPayloadBytes := 64
  readProbeMs := 0
  confirmProbeMs := 0
  fallback := Floating.finite 0
  publisher := none
  snapshot := none
  confirmation := none
  readStatus := { active := true, connected := true, streamKind := .stream }
  confirmStatus := { active := true, connected := true, streamKind := .stream }
  now := 1
  now_pos := Nat.one_pos

/-- The same PV after a reload with another scale. -/
def rescaled : PVConfig := { scaledStartup.config with transform := some { scale := 4, offset := 0 } }

/-- A client writes 6, the raw value 3 is sent, and its readback arrives. -/
def confirmedReadback : List (Label Binary64 Nat) :=
  [.activate, .arrive (some (Floating.finite 6)), .handlePut 0 none, .handlePut 0 none,
   .startPut 0] ++
  List.replicate 12 (.dispatch 0 { snapshot := some 3, write := .ok 7 }) ++
  [.read .confirm [{ id := 4, payload := some (Floating.finite 3), time := some 8 }],
   .deliver 0 10]

/-- What is known about the first put: its record while it is registered, whether an entry has
    confirmed it, and what its client was told. -/
structure Verdict where
  record : Option (Bool × Option String) := none
  confirmed : Bool := false
  told : Option Outcome := none
  deriving DecidableEq

def State.verdict (s : State V Id) : Verdict where
  record := (s.pendingPuts.find? 1).map fun pending => (pending.done, pending.error)
  confirmed := (s.pendingPuts.find? 1).any fun pending => pending.confirmedBy.isSome
  told := (s.puts[0]?).bind fun put => put.request.outcome

/-- **A confirmed write is reported as failed**: the readback has confirmed the put without an
    error; a reload with another scale, and likewise the retirement of the runtime, comes
    before its waiter, and the client is told that the write has failed. -/
theorem confirmed_write_overturned :
    ∃ s : State Binary64 Nat, machine.Reachable s ∧
      s.verdict = { record := some (true, none), confirmed := true } ∧
      (machine.exec s [.dispatch 0 {}, .dispatch 0 {}]).map State.verdict =
        some { told := some .reply } ∧
      (machine.exec s [.prepare rescaled 2 none, .commit 0, .dispatch 0 {}, .dispatch 0 {}]).map
          State.verdict =
        some { told := some (.error "write transform changed during reload") } ∧
      (machine.exec s [.deactivate .generationRetired, .retire, .dispatch 0 {},
          .dispatch 0 {}]).map State.verdict =
        some { told := some (.error "generation retired") } := by
  have hrun : (machine.exec (initializeRuntime scaledStartup) confirmedReadback).map (fun s =>
      (s.verdict,
        (machine.exec s [.dispatch 0 {}, .dispatch 0 {}]).map State.verdict,
        (machine.exec s [.prepare rescaled 2 none, .commit 0, .dispatch 0 {},
          .dispatch 0 {}]).map State.verdict,
        (machine.exec s [.deactivate .generationRetired, .retire, .dispatch 0 {},
          .dispatch 0 {}]).map State.verdict)) =
      some ({ record := some (true, none), confirmed := true }, some { told := some .reply },
        some { told := some (.error "write transform changed during reload") },
        some { told := some (.error "generation retired") }) := by
    decide +kernel
  obtain ⟨s, hs, hfacts⟩ := Option.map_eq_some_iff.mp hrun
  rw [Prod.mk.injEq, Prod.mk.injEq, Prod.mk.injEq] at hfacts
  exact ⟨s, ⟨_, _, ⟨scaledStartup, rfl⟩, hs⟩, hfacts⟩

/-- A reload that keeps the scale, another entry of the readback stream, a tick, the waiter. -/
def quietRest : List (Label Binary64 Nat) :=
  [.prepare scaledStartup.config 2 none, .commit 0, .refresh,
   .read .confirm [{ id := 5, payload := some (Floating.finite 9), time := some 9 }],
   .deliver 0 11, .tick 12, .dispatch 0 {}]

/-- After the readback none of these overturns the outcome. -/
theorem outcome_decided_once_quiet :
    ∃ (s : State Binary64 Nat) (pending : PendingPut Binary64 Nat), machine.Reachable s ∧
      s.pendingPuts.find? 1 = some pending ∧ pending.done = true ∧ pending.error = none ∧
      DecidedOnce s quietRest 1 pending.error := by
  have hrun : (machine.exec (initializeRuntime scaledStartup) confirmedReadback).map (fun s =>
      (((s.pendingPuts.find? 1).map fun pending => (pending.done, pending.error)),
        (machine.exec s quietRest).isSome,
        decide (machine.Guarded (fun u a => u.overturns 1 none a = false) s quietRest))) =
      some (some (true, none), true, true) := by
    decide +kernel
  obtain ⟨s, hs, hfacts⟩ := Option.map_eq_some_iff.mp hrun
  simp only [Prod.mk.injEq, decide_eq_true_eq] at hfacts
  obtain ⟨hrecord, hrest, hguard⟩ := hfacts
  obtain ⟨pending, hfind, hpending⟩ := Option.map_eq_some_iff.mp hrecord
  obtain ⟨t, ht⟩ := Option.isSome_iff_exists.mp hrest
  simp only [Prod.mk.injEq] at hpending
  obtain ⟨hdone, herror⟩ := hpending
  have hr : machine.Reachable s := ⟨_, _, ⟨scaledStartup, rfl⟩, hs⟩
  refine ⟨s, pending, hr, hfind, hdone, herror, ?_⟩
  exact (outcome_decided_once_iff hr hfind hdone ht).mpr (herror ▸ hguard)

end RedisPvxsIoc.Runtime.Typed
