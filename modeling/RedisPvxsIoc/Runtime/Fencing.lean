import RedisPvxsIoc.Foundations.Trace
import RedisPvxsIoc.Runtime.Readiness

/-!
# Writes Are Fenced

`dispatchPut` copies the configuration in one locked section and writes in another, with a
network round trip in between.  What makes the copy usable is the command epoch: a commit
that changes the transform and a retirement both advance it under the lock, and a put writes
only while the epoch is the one of its admission.

`Fenced` follows each put through its stages: which events of it are in the log, how its copy
relates to `config_`, and who holds the lock.

## Main results

- `fenced_step`, `fenced_reachable`
- `writes_fenced`
-/

namespace RedisPvxsIoc.Runtime.Typed

open Config Foundations

set_option linter.unusedSectionVars false

variable {V Id : Type} [ValueType V] [LinearOrder Id]

/-! ## The events of one put -/

/-- The events of put `p`, oldest first. -/
def putEvents (p : PutId) (log : List (Event V Id)) : List (PutEvent V Id) :=
  log.filterMap fun event =>
    match event with
    | .put q e => if q = p then some e else none
    | _ => none

def admissions (p : PutId) (log : List (Event V Id)) : List Nat :=
  (putEvents p log).filterMap fun event =>
    match event with
    | .admitted epoch => some epoch
    | _ => none

/-- What the last check of the locked section read, for each time it was made. -/
def lastChecks (p : PutId) (log : List (Event V Id)) : List Bool :=
  (putEvents p log).filterMap fun event =>
    match event with
    | .lastCheck stopped => some stopped
    | _ => none

/-- The calls of `writeToRedis` for put `p`. -/
def writes (p : PutId) (log : List (Event V Id)) : List (Write V) :=
  (putEvents p log).filterMap fun event =>
    match event with
    | .written write => some write
    | _ => none

variable {log log' : List (Event V Id)} {p q : PutId}

theorem putEvents_append (log log' : List (Event V Id)) :
    putEvents p (log ++ log') = putEvents p log ++ putEvents p log' := by
  simp [putEvents]

@[simp] theorem putEvents_put_self (event : PutEvent V Id) :
    putEvents p (log ++ [.put p event]) = putEvents p log ++ [event] := by
  simp [putEvents]

theorem putEvents_put_ne (h : q ≠ p) (event : PutEvent V Id) :
    putEvents p (log ++ [.put q event]) = putEvents p log := by
  simp [putEvents, h]

@[simp] theorem putEvents_processed (route : Route) (o : Processed V Id) (keys : List Nat) :
    putEvents p (log ++ [.processed route o keys]) = putEvents p log := by
  simp [putEvents]

@[simp] theorem putEvents_deactivated :
    putEvents p (log ++ [.deactivated]) = putEvents p log := by
  simp [putEvents]

theorem lastCheck_mem {stopped : Bool} (h : stopped ∈ lastChecks p log) :
    .lastCheck stopped ∈ putEvents p log := by
  obtain ⟨event, hmem, hevent⟩ := List.mem_filterMap.mp h
  split at hevent
  · cases hevent
    exact hmem
  · cases hevent

/-! ## What is known of a put at each stage -/

namespace Stage

/-- The stages after the last check of the request and before the write. -/
def passed : Stage V Id → Bool
  | .cleared _ | .registered _ _ => true
  | _ => false

/-- The stages before the write. -/
def unwritten : Stage V Id → Bool
  | .written _ _ _ | .echoing _ _ | .concluding | .waiting _ | .woken _ _ _ => false
  | _ => true

/-- The copy of the configuration that a stage before the write holds. -/
def copy : Stage V Id → Option PVConfig
  | .copied current | .sampling current _ | .asking current _ _ => some current
  | .prepared l | .fenced l | .checked l | .authorized l | .cleared l | .registered l _ =>
    some l.current
  | _ => none

/-- The raw value that a stage before the write has computed, with the copy it used. -/
def computed : Stage V Id → Option (PVConfig × V)
  | .sampling current raw | .asking current raw _ => some (current, raw)
  | .prepared l | .fenced l | .checked l | .authorized l | .cleared l | .registered l _ =>
    some (l.current, l.raw)
  | _ => none

end Stage

/-- A copy made at command epoch `epoch`, seen when the command epoch is `now`: the routes are
    those of `config_`, and so is the transform as long as the command epoch has not moved. -/
structure Copied (config : PVConfig) (now epoch : Nat) (copy : PVConfig) : Prop where
  topology : SameTopology copy config
  transform : now = epoch → copy.transform = config.transform

/-- The stage of a put with the client's value `value` that was admitted at `epoch`. -/
structure StageOk (log : List (Event V Id)) (config : PVConfig) (now : Nat) (p : PutId)
    (value : Option V) (epoch : Nat) (stage : Stage V Id) : Prop where
  unwritten : stage.unwritten = true → writes p log = [] ∧
    lastChecks p log = if stage.passed then [false] else []
  copy : ∀ c, stage.copy = some c → Copied config now epoch c
  computed : ∀ c raw, stage.computed = some (c, raw) →
    ∃ v, value = some v ∧ raw = ValueType.inverse c.transform v
  locked : stage.locked = true → now = epoch

def PhaseOk (log : List (Event V Id)) (config : PVConfig) (now : Nat) (p : PutId)
    (value : Option V) : Phase V Id → Prop
  | .arriving | .arrived => putEvents p log = []
  | .queued epoch => putEvents p log = [.admitted epoch] ∧ epoch ≤ now
  | .running epoch stage =>
    admissions p log = [epoch] ∧ epoch ≤ now ∧ StageOk log config now p value epoch stage
  | .finished => True

/-- A write that went out as it should: the put was admitted once, at the command epoch of the
    write; the raw value and the key are those of `config_` at the write; and the last check of
    the locked section, made once and before the write, found the request not stopped. -/
structure WriteOk (log : List (Event V Id)) (p : PutId) (value : Option V) (w : Write V) :
    Prop where
  epoch : admissions p log = [w.commandEpoch]
  raw : ∃ v, value = some v ∧ w.raw = ValueType.inverse w.config.transform v
  key : w.key = w.config.write.map RouteConfig.key
  check : lastChecks p log = [false]
  checkedFirst : Before (putEvents p log) (.lastCheck false) (.written w)

structure PutOk (log : List (Event V Id)) (config : PVConfig) (now : Nat) (p : PutId)
    (put : Put V Id) : Prop where
  once : (writes p log).length ≤ 1
  sound : ∀ w ∈ writes p log, WriteOk log p put.value w
  phase : PhaseOk log config now p put.value put.phase

def Phase.locked : Phase V Id → Bool
  | .running _ stage => stage.locked
  | _ => false

@[simp] theorem Phase.locked_running (epoch : Nat) (stage : Stage V Id) :
    (Phase.running epoch stage).locked = stage.locked := rfl

@[simp] theorem Phase.locked_finished : (Phase.finished : Phase V Id).locked = false := rfl

/-- The lock belongs to the put whose stage says so, retirement ends with the lock free, and
    every put is where its events say. -/
structure Fenced (s : State V Id) : Prop where
  retiring : s.retiring.isSome = true → s.alive = false
  free : s.alive = false → s.retiring = none → s.mutex = none
  ended : Event.deactivated ∈ s.log → s.alive = false ∧ s.retiring = none
  silent : ∀ p w, ¬Before s.log .deactivated (.put p (.written w))
  updates : ∀ u ∈ s.updates, SameTopology s.config u.config
  lock : ∀ p, s.mutex = some p ↔ ∃ put, s.puts[p]? = some put ∧ put.phase.locked = true
  fresh : ∀ p, s.puts.length ≤ p → putEvents p s.log = []
  puts : ∀ p put, s.puts[p]? = some put → PutOk s.log s.config s.commandEpoch p put

variable {s s' : State V Id} {put put' : Put V Id} {config : PVConfig} {now : Nat}

/-! ## Frames -/

/-- A put only looks at its own events. -/
theorem PutOk.congr (h : PutOk log config now p put)
    (hlog : putEvents p log' = putEvents p log) : PutOk log' config now p put := by
  have hwrites : writes p log' = writes p log := by rw [writes, hlog, ← writes]
  have hchecks : lastChecks p log' = lastChecks p log := by rw [lastChecks, hlog, ← lastChecks]
  have hadmissions : admissions p log' = admissions p log := by
    rw [admissions, hlog, ← admissions]
  refine ⟨hwrites ▸ h.once, ?_, ?_⟩
  · intro w hw
    have hok := h.sound w (hwrites ▸ hw)
    exact ⟨hadmissions.trans hok.epoch, hok.raw, hok.key, hchecks.trans hok.check,
      hlog ▸ hok.checkedFirst⟩
  · have hphase := h.phase
    cases hp : put.phase with
    | arriving =>
      rw [hp] at hphase
      exact hlog.trans hphase
    | arrived =>
      rw [hp] at hphase
      exact hlog.trans hphase
    | queued epoch =>
      rw [hp] at hphase
      exact ⟨hlog.trans hphase.1, hphase.2⟩
    | running epoch stage =>
      rw [hp] at hphase
      obtain ⟨hadmitted, hle, hstage⟩ := hphase
      refine ⟨hadmissions.trans hadmitted, hle, ?_, hstage.copy, hstage.computed, hstage.locked⟩
      rw [hwrites, hchecks]
      exact hstage.unwritten
    | finished => trivial

/-- An event that belongs to no put. -/
def Event.ofNoPut : Event V Id → Prop
  | .put _ _ => False
  | _ => True

theorem putEvents_ofNoPut {event : Event V Id} (h : event.ofNoPut) :
    putEvents p (log ++ [event]) = putEvents p log := by
  cases event with
  | put q e => exact h.elim
  | processed route o keys => exact putEvents_processed route o keys
  | deactivated => exact putEvents_deactivated

/-- Steps of other threads: they move no put and do not touch the lock. -/
theorem Fenced.other_step (h : Fenced s) (hmutex : s'.mutex = s.mutex) (hputs : s'.puts = s.puts)
    (hlog : s'.log = s.log ∨ ∃ event, event.ofNoPut ∧ s'.log = s.log ++ [event])
    (hretiring : s'.retiring.isSome = true → s'.alive = false)
    (hfree : s'.alive = false → s'.retiring = none → s.mutex = none)
    (hover : Event.deactivated ∈ s'.log → s'.alive = false ∧ s'.retiring = none)
    (hupdates : ∀ u ∈ s'.updates, SameTopology s'.config u.config)
    (hok : ∀ p put, s.puts[p]? = some put → PutOk s.log s.config s.commandEpoch p put →
      PutOk s.log s'.config s'.commandEpoch p put) : Fenced s' := by
  have hevents : ∀ p, putEvents p s'.log = putEvents p s.log := by
    intro p
    rcases hlog with hlog | ⟨event, hevent, hlog⟩ <;> rw [hlog]
    exact putEvents_ofNoPut hevent
  refine ⟨hretiring, hmutex ▸ hfree, hover, ?_, hupdates, ?_, ?_, ?_⟩
  · intro p w hbefore
    rcases hlog with hlog | ⟨event, hevent, hlog⟩
    · exact h.silent p w (hlog ▸ hbefore)
    · rw [hlog] at hbefore
      rcases before_concat_iff.mp hbefore with hbefore | ⟨-, heq⟩
      · exact h.silent p w hbefore
      · subst heq
        exact hevent
  · rw [hmutex, hputs]
    exact h.lock
  · intro p hp
    rw [hevents]
    exact h.fresh p (hputs ▸ hp)
  · intro p put hput
    rw [hputs] at hput
    exact (hok p put hput (h.puts p put hput)).congr (hevents p)

/-- Steps that touch neither puts nor what a put relies on. -/
theorem Fenced.of_same (h : Fenced s) (hconfig : s'.config = s.config)
    (hepoch : s'.commandEpoch = s.commandEpoch) (halive : s'.alive = s.alive)
    (hretiring : s'.retiring = s.retiring) (hmutex : s'.mutex = s.mutex)
    (hupdates : s'.updates = s.updates) (hputs : s'.puts = s.puts)
    (hlog : s'.log = s.log ∨ ∃ route o keys, s'.log = s.log ++ [.processed route o keys]) :
    Fenced s' := by
  apply h.other_step hmutex hputs
  · rcases hlog with hlog | ⟨route, o, keys, hlog⟩
    · exact .inl hlog
    · exact .inr ⟨.processed route o keys, trivial, hlog⟩
  · rw [hretiring, halive]
    exact h.retiring
  · rw [hretiring, halive]
    exact h.free
  · rw [hretiring, halive]
    rcases hlog with hlog | ⟨route, o, keys, hlog⟩ <;> rw [hlog]
    · exact h.ended
    · intro hmem
      exact h.ended (by simpa using hmem)
  · rw [hupdates, hconfig]
    exact h.updates
  · intro p put _ hok
    rw [hconfig, hepoch]
    exact hok

/-- What a put without the lock relies on survives a new configuration of the same topology,
    as long as a new transform comes with a new command epoch. -/
theorem PutOk.reconfigure {config' : PVConfig} {now' : Nat} (h : PutOk log config now p put)
    (hunlocked : put.phase.locked = false) (htopology : SameTopology config config')
    (hnow : now ≤ now') (htransform : now' = now → config.transform = config'.transform) :
    PutOk log config' now' p put := by
  refine ⟨h.once, h.sound, ?_⟩
  have hphase := h.phase
  cases hp : put.phase with
  | arriving =>
    rw [hp] at hphase
    exact hphase
  | arrived =>
    rw [hp] at hphase
    exact hphase
  | queued epoch =>
    rw [hp] at hphase
    exact ⟨hphase.1, hphase.2.trans hnow⟩
  | running epoch stage =>
    rw [hp] at hphase hunlocked
    obtain ⟨hadmitted, hle, hstage⟩ := hphase
    refine ⟨hadmitted, hle.trans hnow, hstage.unwritten, ?_, hstage.computed, ?_⟩
    · intro c hc
      have hcopy := hstage.copy c hc
      refine ⟨hcopy.topology.trans htopology, ?_⟩
      intro hepoch
      -- the epoch cannot have come back to the one of the admission
      have hsame : now = epoch := Nat.le_antisymm (hepoch ▸ hnow) hle
      exact (hcopy.transform hsame).trans (htransform (hepoch.trans hsame.symm))
    · intro hl
      rw [Phase.locked_running] at hunlocked
      rw [hunlocked] at hl
      cases hl
  | finished => trivial

/-- With the lock free no put is in a locked stage. -/
theorem Fenced.unlocked (h : Fenced s) (hfree : s.mutex = none) (hput : s.puts[p]? = some put) :
    put.phase.locked = false := by
  cases hl : put.phase.locked with
  | false => rfl
  | true =>
    have hheld := (h.lock p).mpr ⟨put, hput, hl⟩
    rw [hfree] at hheld
    cases hheld

/-! ## Steps of a put -/

theorem getElem?_modify_self {α : Type*} {l : List α} {i : Nat} {x : α} {f : α → α}
    (h : l[i]? = some x) : (l.modify i f)[i]? = some (f x) := by
  simp [h]

/-- A put moves: what has to be shown is where it is now and what became of the lock. -/
theorem Fenced.put_step (h : Fenced s) (hf : PutFrame s p s') (hput : s'.puts[p]? = some put')
    (hok : PutOk s'.log s'.config s'.commandEpoch p put') (hown : s'.mutex = some p ↔ put'.phase.locked = true)
    (hothers : ∀ q, q ≠ p → (s'.mutex = some q ↔ s.mutex = some q))
    (hacquire : put'.phase.locked = true → s.mutex = some p ∨ s.alive = true)
    (hwrite : ∀ w, s'.log = s.log ++ [.put p (.written w)] → s.mutex = some p) : Fenced s' := by
  obtain ⟨f, hputs⟩ := hf.puts
  have hevents : ∀ q, q ≠ p → putEvents q s'.log = putEvents q s.log := by
    intro q hq
    rcases hf.log with hlog | ⟨event, hlog⟩
    · rw [hlog]
    · rw [hlog, putEvents_put_ne (Ne.symm hq)]
  have hdead : Event.deactivated ∈ s'.log → Event.deactivated ∈ s.log := by
    rcases hf.log with hlog | ⟨event, hlog⟩ <;> rw [hlog]
    · exact id
    · intro hmem
      simpa using hmem
  refine ⟨?_, ?_, ?_, ?_, ?_, ?_, ?_, ?_⟩
  · rw [hf.retiring, hf.alive]
    exact h.retiring
  · -- the lock can only have been taken by this put, and then on a live runtime
    rw [hf.retiring, hf.alive]
    intro halive hretiring
    have hfree := h.free halive hretiring
    cases hm : s'.mutex with
    | none => rfl
    | some q =>
      by_cases hq : q = p
      · subst hq
        rcases hacquire (hown.mp hm) with hheld | hlive
        · rw [hfree] at hheld
          cases hheld
        · rw [halive] at hlive
          cases hlive
      · rw [(hothers q hq).mp hm] at hfree
        cases hfree
  · rw [hf.retiring, hf.alive]
    exact fun hmem => h.ended (hdead hmem)
  · intro q w hbefore
    rcases hf.log with hlog | ⟨event, hlog⟩
    · exact h.silent q w (hlog ▸ hbefore)
    · rw [hlog] at hbefore
      rcases before_concat_iff.mp hbefore with hbefore | ⟨hmem, heq⟩
      · exact h.silent q w hbefore
      · -- a write happens under the lock, which is free once retirement is over
        cases heq
        obtain ⟨halive, hretiring⟩ := h.ended hmem
        have hheld := hwrite w hlog
        rw [h.free halive hretiring] at hheld
        cases hheld
  · rw [hf.updates, hf.config]
    exact h.updates
  · intro q
    by_cases hq : q = p
    · subst hq
      rw [hown]
      constructor
      · exact fun hl => ⟨put', hput, hl⟩
      · rintro ⟨put, hsome, hl⟩
        rw [hput] at hsome
        cases hsome
        exact hl
    · rw [hothers q hq, hf.other hq]
      exact h.lock q
  · intro q hq
    rw [hputs, List.length_modify] at hq
    have hne : q ≠ p := by
      rintro rfl
      rw [hputs, List.getElem?_modify, List.getElem?_eq_none hq] at hput
      simp at hput
    rw [hevents q hne]
    exact h.fresh q hq
  · intro q put hq
    by_cases hne : q = p
    · subst hne
      rw [hput] at hq
      cases hq
      exact hok
    · rw [hf.other hne] at hq
      rw [hf.config, hf.commandEpoch]
      exact (h.puts q put hq).congr (hevents q hne)

/-- The same, with the lock described by the stages before and after the step. -/
theorem Fenced.put_move (h : Fenced s) (hput : s.puts[p]? = some put) (hf : PutFrame s p s')
    (hput' : s'.puts[p]? = some put') (hok : PutOk s'.log s'.config s'.commandEpoch p put')
    (hmutex : s'.mutex = if put'.phase.locked then some p
      else if put.phase.locked then none else s.mutex)
    (hacquire : put'.phase.locked = true → put.phase.locked = true ∨
      (s.mutex = none ∧ s.alive = true))
    (hwrite : ∀ w, s'.log = s.log ++ [.put p (.written w)] → put.phase.locked = true) :
    Fenced s' := by
  have hheld : s.mutex = some p ↔ put.phase.locked = true := by
    rw [h.lock p, hput]
    simp
  apply h.put_step hf hput' hok
  · rw [hmutex]
    cases hl' : put'.phase.locked <;> cases hl : put.phase.locked <;> simp [hheld, hl]
  · intro q hq
    rw [hmutex]
    have hpq : ¬p = q := Ne.symm hq
    cases hl : put.phase.locked with
    | true =>
      rw [hheld.mpr hl]
      cases put'.phase.locked <;> simp [hpq]
    | false =>
      cases hl' : put'.phase.locked with
      | true =>
        rcases hacquire hl' with hl'' | ⟨hnone, -⟩
        · rw [hl] at hl''
          cases hl''
        · simp [hnone, hpq]
      | false => simp
  · intro hl'
    rcases hacquire hl' with hl | ⟨-, halive⟩
    · exact .inl (hheld.mpr hl)
    · exact .inr halive
  · intro w hlog
    exact hheld.mpr (hwrite w hlog)

/-! ### Steps that write nothing -/

/-- The log has grown by nothing that the facts about put `p` depend on. -/
structure SameFacts (p : PutId) (log log' : List (Event V Id)) : Prop where
  admissions : admissions p log' = admissions p log
  lastChecks : lastChecks p log' = lastChecks p log
  writes : writes p log' = writes p log
  events : ∃ more, putEvents p log' = putEvents p log ++ more
  no_write : ∀ w, log' ≠ log ++ [.put p (.written w)]

theorem SameFacts.refl (p : PutId) (log : List (Event V Id)) : SameFacts p log log :=
  ⟨rfl, rfl, rfl, ⟨[], (List.append_nil _).symm⟩, fun w => by simp⟩

theorem SameFacts.sourceEpoch (epoch : Nat) :
    SameFacts p log (log ++ [.put p (.sourceEpoch epoch)]) := by
  constructor <;> simp [Typed.admissions, Typed.lastChecks, Typed.writes]

theorem SameFacts.snapshot (id : Id) : SameFacts p log (log ++ [.put p (.snapshot id)]) := by
  constructor <;> simp [Typed.admissions, Typed.lastChecks, Typed.writes]

theorem SameFacts.registered (id : Nat) : SameFacts p log (log ++ [.put p (.registered id)]) := by
  constructor <;> simp [Typed.admissions, Typed.lastChecks, Typed.writes]

theorem SameFacts.replied (confirmedBy : Option (Processed V Id)) :
    SameFacts p log (log ++ [.put p (.replied confirmedBy)]) := by
  constructor <;> simp [Typed.admissions, Typed.lastChecks, Typed.writes]

theorem PutOk.step (h : PutOk log config now p put) (hvalue : put'.value = put.value)
    (hfacts : SameFacts p log log')
    (hphase : PhaseOk log' config now p put'.value put'.phase) : PutOk log' config now p put' := by
  refine ⟨hfacts.writes ▸ h.once, ?_, hphase⟩
  intro w hw
  have hok := h.sound w (hfacts.writes ▸ hw)
  obtain ⟨more, hevents⟩ := hfacts.events
  exact ⟨hfacts.admissions.trans hok.epoch, hvalue ▸ hok.raw, hok.key,
    hfacts.lastChecks.trans hok.check, hevents ▸ hok.checkedFirst.mono more⟩

theorem PutOk.of_unwritten (hwrites : writes p log = [])
    (hphase : PhaseOk log config now p put.value put.phase) : PutOk log config now p put :=
  ⟨by simp [hwrites], by simp [hwrites], hphase⟩

section Dispatch

variable {epoch : Nat} {stage stage' : Stage V Id}

variable {value : Option V}

theorem StageOk.step (h : StageOk log config now p value epoch stage)
    (hfacts : SameFacts p log log') : StageOk log' config now p value epoch stage := by
  refine ⟨?_, h.copy, h.computed, h.locked⟩
  rw [hfacts.writes, hfacts.lastChecks]
  exact h.unwritten

/-- Nothing is asked of the stages after the write. -/
theorem StageOk.of_written (hunwritten : stage.unwritten = false) :
    StageOk log config now p value epoch stage := by
  have hbare : stage.copy = none ∧ stage.computed = none ∧ stage.locked = false := by
    cases stage <;> first
      | exact ⟨rfl, rfl, rfl⟩
      | cases hunwritten
  obtain ⟨hcopy, hcomputed, hlocked⟩ := hbare
  constructor
  · simp [hunwritten]
  · simp [hcopy]
  · simp [hcomputed]
  · simp [hlocked]

/-- A put takes a step of `dispatchPut` that only it notices. -/
theorem Fenced.advance (h : Fenced s) (hput : s.puts[p]? = some put)
    (hphase : put.phase = .running epoch stage) (hf : PutFrame s p s')
    (hput' : s'.puts[p]? = some { put with phase := .running epoch stage' })
    (hfacts : SameFacts p s.log s'.log) (hlocked : stage'.locked = stage.locked)
    (hmutex : s'.mutex = s.mutex)
    (hstage : StageOk s.log s.config s.commandEpoch p put.value epoch stage →
      StageOk s.log s.config s.commandEpoch p put.value epoch stage') : Fenced s' := by
  have hok := h.puts p put hput
  have hrun := hok.phase
  rw [hphase] at hrun
  obtain ⟨hadmitted, hle, hold⟩ := hrun
  apply h.put_move hput hf hput'
  · rw [hf.config, hf.commandEpoch]
    exact hok.step rfl hfacts
      ⟨hfacts.admissions.trans hadmitted, hle, (hstage hold).step hfacts⟩
  · rw [hphase, hmutex]
    simp only [Phase.locked_running, hlocked]
    by_cases hl : stage.locked = true
    · have hheld := (h.lock p).mpr ⟨put, hput, by rw [hphase]; exact hl⟩
      simp [hl, hheld]
    · simp [hl]
  · intro hl
    left
    rw [hphase]
    exact hlocked.symm.trans hl
  · exact fun w hw => absurd hw (hfacts.no_write w)

/-- A put ends, releasing the lock if it had it. -/
theorem Fenced.finish (h : Fenced s) (hput : s.puts[p]? = some put) (hf : PutFrame s p s')
    (hput' : s'.puts[p]? = some put') (hvalue : put'.value = put.value)
    (hfinished : put'.phase = .finished) (hfacts : SameFacts p s.log s'.log)
    (hmutex : s'.mutex = if put.phase.locked then none else s.mutex) : Fenced s' := by
  apply h.put_move hput hf hput'
  · rw [hf.config, hf.commandEpoch]
    exact (h.puts p put hput).step hvalue hfacts (by rw [hfinished]; trivial)
  · simp [hfinished, hmutex]
  · simp [hfinished]
  · exact fun w hw => absurd hw (hfacts.no_write w)

theorem fenced_leave (h : Fenced s) (hput : s.puts[p]? = some put)
    (hunlocked : put.phase.locked = false) : Fenced (s.leave p) :=
  h.finish hput frame_leave (getElem?_modify_self hput) rfl rfl (.refl _ _)
    (by rw [hunlocked]; rfl)

theorem fenced_fail (h : Fenced s) (hput : s.puts[p]? = some put)
    (hunlocked : put.phase.locked = false) (message : String) : Fenced (s.fail p message) :=
  h.finish hput (frame_fail message) (getElem?_modify_self hput) rfl rfl (.refl _ _)
    (by rw [hunlocked]; rfl)

theorem fenced_leave_unlock (h : Fenced s) (hput : s.puts[p]? = some put)
    (hlocked : put.phase.locked = true) : Fenced (s.leave p).unlock :=
  h.finish hput (.quiet _ _ _ _ _) (getElem?_modify_self hput) rfl rfl (.refl _ _)
    (by rw [hlocked]; rfl)

theorem fenced_fail_unlock (h : Fenced s) (hput : s.puts[p]? = some put)
    (hlocked : put.phase.locked = true) (message : String) : Fenced (s.fail p message).unlock :=
  h.finish hput (.quiet _ _ _ _ _) (getElem?_modify_self hput) rfl rfl (.refl _ _)
    (by rw [hlocked]; rfl)

/-! ### The last check, the registration and the write -/

theorem writes_lastCheck (stopped : Bool) :
    writes p (log ++ [.put p (.lastCheck stopped)]) = writes p log := by
  simp [writes]

theorem lastChecks_lastCheck (stopped : Bool) :
    lastChecks p (log ++ [.put p (.lastCheck stopped)]) = lastChecks p log ++ [stopped] := by
  simp [lastChecks]

theorem admissions_lastCheck (stopped : Bool) :
    admissions p (log ++ [.put p (.lastCheck stopped)]) = admissions p log := by
  simp [admissions]

variable {l : Locals V Id}

/-- The last check ends the put. -/
theorem fenced_stopped (h : Fenced s) (hput : s.puts[p]? = some put)
    (hphase : put.phase = .running epoch (.authorized l)) :
    Fenced ((s.record (.put p (.lastCheck true))).leave p).unlock := by
  have hrun := (h.puts p put hput).phase
  rw [hphase] at hrun
  have hlocked : put.phase.locked = true := by rw [hphase]; rfl
  apply h.put_move hput (.noted _ _ _ _ _ _) (getElem?_modify_self hput)
  · exact .of_unwritten ((writes_lastCheck _).trans (hrun.2.2.unwritten rfl).1) trivial
  · rw [hlocked]
    rfl
  · exact fun _ => .inl hlocked
  · exact fun _ _ => hlocked

/-- The last check clears the put for its write. -/
theorem fenced_cleared (h : Fenced s) (hput : s.puts[p]? = some put)
    (hphase : put.phase = .running epoch (.authorized l)) :
    Fenced ((s.record (.put p (.lastCheck false))).toPhase p (.running epoch (.cleared l))) := by
  have hrun := (h.puts p put hput).phase
  rw [hphase] at hrun
  obtain ⟨hadmitted, hle, hold⟩ := hrun
  obtain ⟨hwrites, hchecks⟩ := hold.unwritten rfl
  have hlocked : put.phase.locked = true := by rw [hphase]; rfl
  apply h.put_move hput (.noted _ _ _ _ _ _) (getElem?_modify_self hput)
  · refine .of_unwritten ((writes_lastCheck _).trans hwrites)
      ⟨(admissions_lastCheck _).trans hadmitted, hle, ?_, hold.copy, hold.computed, hold.locked⟩
    intro _
    refine ⟨(writes_lastCheck _).trans hwrites, (lastChecks_lastCheck _).trans ?_⟩
    rw [hchecks]
    rfl
  · exact (h.lock p).mpr ⟨put, hput, hlocked⟩
  · exact fun _ => .inl hlocked
  · exact fun _ _ => hlocked

/-- The write that a registered put makes. -/
def State.writeOf (s : State V Id) (l : Locals V Id) : Write V :=
  { raw := l.raw
    key := l.current.write.map RouteConfig.key
    commandEpoch := s.commandEpoch
    config := s.config }

/-- The log after the write of put `p`. -/
def State.loggedWrite (s : State V Id) (p : PutId) (l : Locals V Id) : List (Event V Id) :=
  s.log ++ [.put p (.written (s.writeOf l))]

variable {id : Option Nat}

/-- A registered put writes what it should: the command epoch has not moved since its
    admission, so its copy has the transform and the key of `config_`. -/
theorem registered_write_ok (hadmitted : admissions p s.log = [epoch])
    (h : StageOk s.log s.config s.commandEpoch p value epoch (.registered l id)) :
    WriteOk (s.loggedWrite p l) p value (s.writeOf l) := by
  have hepoch : s.commandEpoch = epoch := h.locked rfl
  have hcopy := h.copy l.current rfl
  obtain ⟨v, hvalue, hraw⟩ := h.computed l.current l.raw rfl
  constructor
  · simpa [admissions, State.loggedWrite, State.writeOf, hepoch] using hadmitted
  · refine ⟨v, hvalue, ?_⟩
    show l.raw = ValueType.inverse s.config.transform v
    rw [hraw, hcopy.transform hepoch]
  · show l.current.write.map RouteConfig.key = s.config.write.map RouteConfig.key
    rw [hcopy.topology.write]
  · have hchecks : lastChecks p s.log = [false] := (h.unwritten rfl).2
    simpa [lastChecks, State.loggedWrite] using hchecks
  · have hchecks : lastChecks p s.log = [false] := (h.unwritten rfl).2
    rw [State.loggedWrite, putEvents_put_self]
    exact before_concat (lastCheck_mem (by rw [hchecks]; exact List.mem_singleton_self _)) _

/-- After its write the put goes on without the lock, or it is over. -/
theorem Fenced.write_move (h : Fenced s) (hput : s.puts[p]? = some put)
    (hphase : put.phase = .running epoch (.registered l id)) {f : Put V Id → Put V Id}
    (hvalue : (f put).value = put.value) (hnext : (f put).phase = .finished ∨
      ∃ time, (f put).phase = .running epoch (.written l id time))
    (pendingPuts : FinMap Nat (PendingPut V Id)) :
    Fenced { s with
      puts := s.puts.modify p f, mutex := none, pendingPuts := pendingPuts
      log := s.loggedWrite p l } := by
  have hrun := (h.puts p put hput).phase
  rw [hphase] at hrun
  obtain ⟨hadmitted, hle, hold⟩ := hrun
  have hlocked : put.phase.locked = true := by rw [hphase]; rfl
  have hok := registered_write_ok hadmitted hold
  have hwrites : writes p (s.loggedWrite p l) = [s.writeOf l] := by
    have hnone := (hold.unwritten rfl).1
    simp only [writes, State.loggedWrite, putEvents_put_self, List.filterMap_append] at hnone ⊢
    rw [hnone]
    rfl
  have hunlocked : (f put).phase.locked = false := by
    rcases hnext with hnext | ⟨time, hnext⟩ <;> rw [hnext] <;> rfl
  apply h.put_move hput (.noted _ _ _ _ _ _) (getElem?_modify_self hput)
  · show PutOk (s.loggedWrite p l) s.config s.commandEpoch p (f put)
    refine ⟨by rw [hwrites]; rfl, ?_, ?_⟩
    · intro w hw
      rw [hwrites, List.mem_singleton] at hw
      rw [hw, hvalue]
      exact hok
    · rcases hnext with hnext | ⟨time, hnext⟩ <;> rw [hnext]
      · trivial
      · have hepoch : (s.writeOf l).commandEpoch = epoch := hold.locked rfl
        exact ⟨hok.epoch.trans (by rw [hepoch]), hle, .of_written rfl⟩
  · simp [hunlocked, hlocked]
  · simp [hunlocked]
  · exact fun _ _ => hlocked

theorem fenced_writeToRedis (h : Fenced s) (hput : s.puts[p]? = some put)
    (hphase : put.phase = .running epoch (.registered l id)) (result : WriteResult) :
    Fenced (s.writeToRedis p epoch l id result) := by
  cases result with
  | threw => cases id <;> exact h.write_move hput hphase rfl (.inl rfl) _
  | failed => cases id <;> exact h.write_move hput hphase rfl (.inr ⟨none, rfl⟩) _
  | ok time => exact h.write_move hput hphase rfl (.inr ⟨some time, rfl⟩) _

/-! ### All stages -/

/-- The put takes the lock on a live runtime whose command epoch is the one of its
    admission. -/
theorem Fenced.acquire (h : Fenced s) (hput : s.puts[p]? = some put)
    (hphase : put.phase = .running epoch (.prepared l)) (hfree : s.mutex = none)
    (halive : s.alive = true) (hepoch : s.commandEpoch = epoch) :
    Fenced { s.toPhase p (.running epoch (.fenced l)) with mutex := some p } := by
  have hok := h.puts p put hput
  have hrun := hok.phase
  rw [hphase] at hrun
  obtain ⟨hadmitted, hle, hold⟩ := hrun
  apply h.put_move hput (.quiet _ _ _ _ _) (getElem?_modify_self hput)
  · exact hok.step rfl (.refl _ _)
      ⟨hadmitted, hle, hold.unwritten, hold.copy, hold.computed, fun _ => hepoch⟩
  · rfl
  · exact fun _ => .inr ⟨hfree, halive⟩
  · exact fun w hw => absurd hw ((SameFacts.refl p s.log).no_write w)

/-- A stage that follows without an event keeps what is known. -/
theorem StageMove.stageOk (hmove : StageMove s put stage stage')
    (h : StageOk s.log s.config s.commandEpoch p put.value epoch stage) :
    StageOk s.log s.config s.commandEpoch p put.value epoch stage' := by
  cases hmove with
  | entered => exact ⟨h.unwritten, by simp [Stage.copy], by simp [Stage.computed], h.locked⟩
  | copied =>
    refine ⟨h.unwritten, ?_, by simp [Stage.computed], h.locked⟩
    rintro _ ⟨⟩
    exact ⟨.refl _, fun _ => rfl⟩
  | unconfirmed hvalue | confirmed hvalue =>
    -- the raw value is computed from the copy
    refine ⟨h.unwritten, h.copy, ?_, h.locked⟩
    rintro _ _ ⟨⟩
    exact ⟨_, hvalue, rfl⟩
  | checked | authorized | unregistered => exact ⟨h.unwritten, h.copy, h.computed, h.locked⟩
  | echoing | concluding | waiting => exact .of_written rfl

theorem fenced_dispatchPut (h : Fenced s) (hput : s.puts[p]? = some put)
    (hphase : put.phase = .running epoch stage) {a : Answer Id}
    (hstep : PutStep s p put epoch a stage s') : Fenced s' := by
  have hlocked : put.phase.locked = stage.locked := by rw [hphase]; rfl
  have hput' : ∀ {f : Put V Id → Put V Id}, (s.puts.modify p f)[p]? = some (f put) :=
    getElem?_modify_self hput
  cases hstep with
  | moved hmove =>
    exact h.advance hput hphase (frame_toPhase _) hput' (.refl _ _) hmove.locked rfl hmove.stageOk
  | left hreturns =>
    exact fenced_leave h hput (hlocked.trans (Stage.unlocked_of_returns hreturns))
  | failed hreturns =>
    exact fenced_fail h hput (hlocked.trans (Stage.unlocked_of_returns hreturns)) _
  | dropped hheld => exact fenced_leave_unlock h hput (hlocked.trans hheld)
  | refused hheld => exact fenced_fail_unlock h hput (hlocked.trans hheld) _
  | sampled =>
    exact h.advance hput hphase (.noted _ _ _ _ _ _) hput' (.sourceEpoch _) rfl rfl
      fun hold => ⟨hold.unwritten, hold.copy, hold.computed, hold.locked⟩
  | snapshotted =>
    exact h.advance hput hphase (.noted _ _ _ _ _ _) hput' (.snapshot _) rfl rfl
      fun hold => ⟨hold.unwritten, hold.copy, hold.computed, hold.locked⟩
  | acquired hfree halive hepoch => exact h.acquire hput hphase hfree halive hepoch
  | stopped => exact fenced_stopped h hput hphase
  | cleared => exact fenced_cleared h hput hphase
  | registered =>
    exact h.advance hput hphase (.noted _ _ _ _ _ _) hput' (.registered _) rfl rfl
      fun hold => ⟨hold.unwritten, hold.copy, hold.computed, hold.locked⟩
  | wrote => exact fenced_writeToRedis h hput hphase a.write
  | echoed | woken =>
    exact h.advance hput hphase (.quiet _ _ _ _ _) hput' (.refl _ _) rfl rfl
      fun _ => .of_written rfl
  | replied hreply =>
    have hfree : stage.locked = false := by rcases hreply with ⟨rfl, -⟩ | rfl <;> rfl
    exact h.finish hput (.noted _ _ _ _ _ _) hput' rfl rfl (.replied _)
      (by rw [hlocked, hfree]; rfl)

end Dispatch

/-! ### The other steps of a put -/

theorem fenced_handled (h : Fenced s) (hput : s.puts[p]? = some put) {phase : Phase V Id}
    (hp : put.phase = phase) (hadmission : Admission s p phase s') : Fenced s' := by
  have hphase := (h.puts p put hput).phase
  rw [hp] at hphase
  have hunlocked : put.phase.locked = false := by
    rw [hp]
    cases hadmission with
    | passed | queued => rfl
    | refused message hphase => rcases hphase with rfl | rfl <;> rfl
  cases hadmission with
  | passed =>
    apply h.put_move hput (frame_toPhase _) (getElem?_modify_self hput)
    · exact .of_unwritten (by show writes p s.log = []; rw [writes, hphase]; rfl) hphase
    · rw [hunlocked]
      rfl
    · exact fun hl => Bool.noConfusion hl
    · exact fun w hw => absurd hw ((SameFacts.refl p s.log).no_write w)
  | refused message => exact fenced_fail h hput hunlocked message
  | queued =>
    have hevents : putEvents p (s.log ++ [.put p (.admitted s.commandEpoch)]) =
        [.admitted s.commandEpoch] := by
      rw [putEvents_put_self, hphase]
      rfl
    apply h.put_move hput (.noted _ _ _ _ _ _) (getElem?_modify_self hput)
    · exact .of_unwritten (by rw [writes]; exact hevents ▸ rfl) ⟨hevents, Nat.le_refl _⟩
    · rw [hunlocked]
      rfl
    · exact fun hl => Bool.noConfusion hl
    · intro w hw
      have hlast := List.append_cancel_left hw
      cases hlast

theorem fenced_started (h : Fenced s) (hput : s.puts[p]? = some put) {epoch : Nat}
    (hqueued : put.phase = .queued epoch) :
    Fenced (s.toPhase p (.running epoch .entered)) := by
  have hphase := (h.puts p put hput).phase
  rw [hqueued] at hphase
  obtain ⟨hevents, hle⟩ := hphase
  have hwrites : writes p s.log = [] := by rw [writes, hevents]; rfl
  apply h.put_move hput (frame_toPhase _) (getElem?_modify_self hput)
  · refine .of_unwritten hwrites ⟨by rw [admissions]; exact hevents ▸ rfl, hle, ?_, ?_, ?_, ?_⟩
    · exact fun _ => ⟨hwrites, by rw [lastChecks]; exact hevents ▸ rfl⟩
    · simp [Stage.copy]
    · simp [Stage.computed]
    · simp [Stage.locked]
  · rw [hqueued]
    rfl
  · exact fun hl => Bool.noConfusion hl
  · exact fun w hw => absurd hw ((SameFacts.refl p s.log).no_write w)

/-- Stopping a request moves no put. -/
theorem fenced_stopPut (h : Fenced s) (message : Option String) :
    Fenced (s.stopPut p message) := by
  cases hput : s.puts[p]? with
  | none =>
    have hputs : (s.stopPut p message).puts = s.puts :=
      List.modify_eq_self (List.getElem?_eq_none_iff.mp hput)
    exact h.of_same rfl rfl rfl rfl rfl rfl hputs (.inl rfl)
  | some put =>
    have hok := h.puts p put hput
    apply h.put_move hput (stopPut_frame message) (getElem?_modify_self hput)
    · exact hok.step rfl (.refl _ _) hok.phase
    · cases hl : put.phase.locked with
      | true => exact (h.lock p).mpr ⟨put, hput, hl⟩
      | false => rfl
    · exact fun hl => .inl hl
    · exact fun w hw => absurd hw ((SameFacts.refl p s.log).no_write w)

/-- A new put has no events and no lock. -/
theorem Fenced.arrival (h : Fenced s) {new : Put V Id}
    (hnew : new.phase = .arriving ∨ new.phase = .finished) :
    Fenced { s with puts := s.puts ++ [new] } := by
  have hevents : putEvents s.puts.length s.log = [] := h.fresh _ (Nat.le_refl _)
  have hunlocked : new.phase.locked = false := by
    rcases hnew with hnew | hnew <;> rw [hnew] <;> rfl
  have hsplit : ∀ {p put}, (s.puts ++ [new])[p]? = some put →
      s.puts[p]? = some put ∨ (p = s.puts.length ∧ put = new) := by
    intro p put hput
    rw [List.getElem?_append] at hput
    split at hput
    · exact .inl hput
    · rename_i hp
      right
      obtain ⟨hzero, hget⟩ := List.getElem?_eq_some_iff.mp hput
      simp only [List.length_singleton, Nat.lt_one_iff] at hzero
      refine ⟨by omega, ?_⟩
      simpa [hzero] using hget.symm
  refine ⟨h.retiring, h.free, h.ended, h.silent, h.updates, ?_, ?_, ?_⟩
  · intro p
    rw [h.lock p]
    constructor
    · rintro ⟨put, hput, hl⟩
      have hp := (List.getElem?_eq_some_iff.mp hput).1
      exact ⟨put, by rw [List.getElem?_append_left hp]; exact hput, hl⟩
    · rintro ⟨put, hput, hl⟩
      rcases hsplit hput with hput | ⟨-, rfl⟩
      · exact ⟨put, hput, hl⟩
      · rw [hunlocked] at hl
        cases hl
  · intro p hp
    rw [List.length_append] at hp
    exact h.fresh p (by omega)
  · intro p put hput
    rcases hsplit hput with hput | ⟨rfl, rfl⟩
    · exact h.puts p put hput
    · apply PutOk.of_unwritten
      · rw [writes, hevents]
        rfl
      · rcases hnew with hnew | hnew <;> rw [hnew]
        · exact hevents
        · trivial

/-! ## Reload and retirement -/

/-- A commit under the free lock: a changed transform comes with a new command epoch. -/
theorem fenced_commit (h : Fenced s) (hfree : s.mutex = none) {i : Nat} {update : Update}
    (hupdate : s.updates[i]? = some update) :
    Fenced { s.commit update with updates := s.updates.eraseIdx i } := by
  have htopology := h.updates update (List.mem_of_getElem? hupdate)
  refine h.other_step rfl rfl (.inl rfl) h.retiring h.free h.ended ?_ ?_
  · intro u hu
    exact htopology.symm.trans (h.updates u (List.mem_of_mem_eraseIdx hu))
  · intro p put hput hok
    apply hok.reconfigure (h.unlocked hfree hput) htopology
    · show s.commandEpoch ≤ if _ then _ else _
      split
      · exact Nat.le_succ _
      · exact Nat.le_refl _
    · show (if _ then _ else _) = s.commandEpoch → s.config.transform = update.config.transform
      split
      · intro heq
        exact absurd heq (Nat.succ_ne_self _)
      · rename_i hsame
        intro _
        exact not_not.mp hsame

theorem fenced_retire (h : Fenced s) (hfree : s.mutex = none) {cause : Retirement}
    (hretiring : s.retiring = some cause) : Fenced (s.retire cause) := by
  have hdead : s.alive = false := h.retiring (by rw [hretiring]; rfl)
  refine h.other_step rfl rfl (.inr ⟨.deactivated, trivial, rfl⟩) (fun _ => hdead) (fun _ _ => hfree)
    (fun _ => ⟨hdead, rfl⟩) h.updates ?_
  intro p put hput hok
  apply hok.reconfigure (h.unlocked hfree hput) (.refl _) (Nat.le_succ _)
  intro heq
  exact absurd heq (Nat.succ_ne_self _)

/-! ## Deliveries and ticks -/

theorem fenced_delivered (h : Fenced s) {d : Delivery V Id} {entry : StreamEntry V Id} {now : Nat}
    {turn : State V Id × Bool} (hturn : Delivered s d entry now turn) : Fenced turn.1 := by
  cases hturn with
  | stale hepoch => exact h.of_same rfl rfl rfl rfl rfl rfl rfl (.inl rfl)
  | accepted raw timestamp view pendingPuts hepoch hpayload htime hview hpending =>
    exact h.of_same rfl rfl rfl rfl rfl rfl rfl (.inr ⟨_, _, _, rfl⟩)
  | rejected view error hepoch hview =>
    exact h.of_same rfl rfl rfl rfl rfl rfl rfl (.inr ⟨_, _, _, rfl⟩)

/-! ## Every run -/

theorem putEvents_startSample {route : Route} {entry : Option (StreamEntry V Id)}
    {reason : String} : putEvents p (startSample route entry reason now).2 = [] := by
  unfold startSample
  split
  · rfl
  · split <;> rfl

theorem not_deactivated_startSample {route : Route} {entry : Option (StreamEntry V Id)}
    {reason : String} : Event.deactivated ∉ (startSample route entry reason now).2 := by
  unfold startSample
  split
  · simp
  · split <;> simp

theorem fenced_start (u : Startup V Id) : Fenced (initializeRuntime u) := by
  have hevents : ∀ p, putEvents p (initializeRuntime u).log = [] := by
    intro p
    show putEvents p (_ ++ _) = []
    rw [putEvents_append, startRoute, startRoute, putEvents_startSample, putEvents_startSample]
    rfl
  have hnone : Event.deactivated ∉ (initializeRuntime u).log := by
    intro hmem
    rcases List.mem_append.mp hmem with hmem | hmem
    · exact not_deactivated_startSample hmem
    · exact not_deactivated_startSample hmem
  refine ⟨?_, ?_, fun h => absurd h hnone, ?_, ?_, ?_, ?_, ?_⟩
  · intro h
    cases h
  · intro h
    cases h
  · intro p w hbefore
    exact hnone (hbefore.subset (List.mem_cons_self ..))
  · intro u hu
    cases hu
  · intro p
    simp [initializeRuntime]
  · exact fun p _ => hevents p
  · intro p put hput
    simp [initializeRuntime] at hput

/-- One step keeps the writes fenced. -/
theorem fenced_step (h : Fenced s) (hpos : ∀ d ∈ s.deliveries, 0 < d.metadata.epoch)
    {a : Label V Id} (hstep : step s a = some s') : Fenced s' := by
  cases step_cases hstep with
  | arrived _ hnew => exact h.arrival hnew
  | handled _ hput hphase hadmission => exact fenced_handled h hput hphase hadmission
  | started hput hqueued => exact fenced_started h hput hqueued
  | dropped hput hqueued => exact fenced_leave h hput (by rw [hqueued]; rfl)
  | stopped p message => exact fenced_stopPut h message
  | dispatched hput hphase hdispatch => exact fenced_dispatchPut h hput hphase hdispatch
  | prepared _ _ _ htopology =>
    refine h.other_step rfl rfl (.inl rfl) h.retiring h.free h.ended ?_ (fun _ _ _ hok => hok)
    intro u hu
    rcases List.mem_append.mp hu with hu | hu
    · exact h.updates u hu
    · rw [List.mem_singleton.mp hu]
      exact (sameReaderTopology_iff _ _).mp htopology
  | committed hfree hupdate => exact fenced_commit h hfree hupdate
  | ignored => exact h
  | refreshed | activated | moved | read | skipped =>
    exact h.of_same rfl rfl rfl rfl rfl rfl rfl (.inl rfl)
  | deactivated cause halive =>
    refine h.other_step rfl rfl (.inl rfl) (fun _ => rfl) (fun _ hnone => absurd hnone (by simp)) ?_
      h.updates (fun _ _ _ hok => hok)
    -- nobody has returned from `deactivate` while the runtime was alive
    intro hmem
    have hdead := (h.ended hmem).1
    rw [halive] at hdead
    cases hdead
  | returned cause hdead hnot =>
    exact h.other_step rfl rfl (.inr ⟨.deactivated, trivial, rfl⟩) h.retiring h.free
      (fun _ => ⟨hdead, hnot⟩) h.updates (fun _ _ _ hok => hok)
  | retired hfree hretiring => exact fenced_retire h hfree hretiring
  | delivered now entry hd _ _ _ halive =>
    have hturn := handleEntry_delivered entry now halive (hpos _ (List.mem_of_getElem? hd))
    exact (fenced_delivered h hturn).of_same rfl rfl rfl rfl rfl rfl rfl (.inl rfl)
  | ticked _ _ hframe =>
    obtain ⟨_, _, _, rfl⟩ := hframe.rest
    exact h.of_same rfl rfl rfl rfl rfl rfl rfl (.inl rfl)

theorem fenced_reachable (h : machine.Reachable s) : Fenced s := by
  refine Machine.Reachable.invariant_with (fun s => sourced_reachable) ?_ ?_ h
  · rintro s ⟨u, rfl⟩
    exact fenced_start u
  · intro s a s' hsourced _ hfenced hstep
    exact fenced_step hfenced (fun d hd => (hsourced.inFlight d hd).1) hstep

/-- The writes of a run so far.  `once`: no put is written twice.  `sound`: every write belongs
    to a put and went out as it should.  `retired`: no write follows the return of
    `deactivate`. -/
structure WritesFenced (s : State V Id) : Prop where
  once : ∀ p, (writes p s.log).length ≤ 1
  sound : ∀ p, ∀ w ∈ writes p s.log, ∃ put, s.puts[p]? = some put ∧ WriteOk s.log p put.value w
  retired : ∀ p w, ¬Before s.log .deactivated (.put p (.written w))

theorem Fenced.writesFenced (h : Fenced s) : WritesFenced s := by
  have hnone : ∀ p, s.puts[p]? = none → writes p s.log = [] := by
    intro p hput
    rw [writes, h.fresh p (List.getElem?_eq_none_iff.mp hput)]
    rfl
  refine ⟨?_, ?_, h.silent⟩
  · intro p
    cases hput : s.puts[p]? with
    | none =>
      rw [hnone p hput]
      exact Nat.zero_le 1
    | some put => exact (h.puts p put hput).once
  · intro p w hw
    cases hput : s.puts[p]? with
    | none =>
      rw [hnone p hput] at hw
      cases hw
    | some put => exact ⟨put, rfl, (h.puts p put hput).sound w hw⟩

/-- **Writes are fenced by generation and never replayed**, for every interleaving of puts,
    commits, cancellations and retirement on one runtime. -/
theorem writes_fenced (hs : machine.Reachable s) : WritesFenced s :=
  (fenced_reachable hs).writesFenced

/-- A writable PV without a confirmation. -/
def writableStartup : Startup Bool Nat :=
  { quietStartup with
    config := { name := "PV", read := { backend := "default", key := "k" }
                write := some { backend := "default", key := "k:set" } } }

/-- Two puts are admitted and the first is written; a reload then changes the transform, and
    the second, already running, is turned away; the runtime is retired at the end. -/
def reloadBetweenPuts : List (Label Bool Nat) :=
  [.activate,
   .arrive (some true), .handlePut 0 none, .handlePut 0 none,
   .arrive (some false), .handlePut 1 none, .handlePut 1 none,
   .startPut 0] ++
  List.replicate 3 (.dispatch 0 {}) ++
  [.prepare { writableStartup.config with transform := some { scale := 2 } } 2 none] ++
  List.replicate 6 (.dispatch 0 { write := .ok 7 }) ++
  [.dispatch 0 {}, .dispatch 0 {},
   .startPut 1, .dispatch 1 {}, .dispatch 1 {}, .dispatch 1 {},
   .commit 0, .dispatch 1 {},
   .deactivate .generationRetired, .retire]

theorem writes_fenced_reload :
    ∃ s : State Bool Nat, machine.Reachable s ∧ (writes 0 s.log).length = 1 ∧
      admissions 1 s.log = [0] ∧ writes 1 s.log = [] ∧ WritesFenced s := by
  have hrun : (machine.exec (initializeRuntime writableStartup) reloadBetweenPuts).map (fun s =>
      ((writes 0 s.log).length, admissions 1 s.log, writes 1 s.log)) = some (1, [0], []) := by
    decide
  obtain ⟨s, hs, hlog⟩ := Option.map_eq_some_iff.mp hrun
  have hr : machine.Reachable s := ⟨_, _, ⟨writableStartup, rfl⟩, hs⟩
  simp only [Prod.mk.injEq] at hlog
  exact ⟨s, hr, hlog.1, hlog.2.1, hlog.2.2, writes_fenced hr⟩

end RedisPvxsIoc.Runtime.Typed
