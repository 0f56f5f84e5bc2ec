import RedisPvxsIoc.PVRegistry.Publication

/-!
# Channels and Retirement

The second half of `src/pv_registry.cpp`: what `onCreate` does for a channel, what `finish`
does for the registrations that a publication has retired, and the fences in the callbacks
of the tracked channel.  Neither of the two takes the other's lock, so the machine of this
file runs them in single sections next to the sections of the registry:

- `load`, `track`, `wrap`, `attach`, `check`: the five steps of `onCreate`
- `finish`, `drain`, `close`, `finished`: the loops of `finish`, where `drain` is the swap
  under the mutex of one registration
- `start`, `dispatch`: an operation arrives at a callback, and the callback decides

A control is referred to by `onCreate` until it returns and by the handlers of the owner
until the channel is gone; the list of a registration refers to it weakly, and `alive` says
whether the weak pointer can still be locked.

## Main results

- `custody_reachable`: where a channel that is still open is kept
- `channels_fenced`: no channel escapes retirement, and nothing passes a fence that starts
  after it
-/

namespace RedisPvxsIoc.PVRegistry

open Foundations

/-! ## What a publication has retired -/

/-- Publication `p` has been committed, and it retires `r`. -/
def Impl.hasRetired (s : Impl) (p : PrepId) (r : RegId) : Prop :=
  p ∈ s.published ∧ ∃ pr, s.prepared[p]? = some pr ∧ r ∈ pr.retiring

/-- A retired registration has been current and is so no longer, and it was retired by one
    publication only. -/
structure Retirement (s : Impl) : Prop where
  gone : ∀ p r, s.hasRetired p r → s.everPublished r ∧ ¬ s.isCurrent r
  unique : ∀ p q r, s.hasRetired p r → s.hasRetired q r → p = q

variable {p : PrepId} {r : RegId}

/-- Who is newly retired by a step: what the publisher had to clear, if the step stores. -/
theorem hasRetired_step {s s' : Impl} {a : Label} (hs : Consistent s) (h : step s a = some s')
    (hr : s'.hasRetired p r) : s.hasRetired p r ∨
      s.isCurrent r ∧ ¬ s'.isCurrent r ∧ s'.published = s.published ++ [p] := by
  obtain ⟨hp, pr, hpr, hmem⟩ := hr
  cases step_cases hs h with
  | prepared _ _ _ _ _ hbuilt =>
    obtain ⟨pr', hpr', -⟩ := hs.known p hp
    cases (afterPrepare_prepared_old hpr').symm.trans hpr
    exact .inl ⟨hp, pr, hpr', hmem⟩
  | stored q done qr hq hqr =>
    rcases List.mem_append.mp hp with hold | hnew
    · exact .inl ⟨hold, pr, hpr, hmem⟩
    · obtain rfl := List.mem_singleton.mp hnew
      obtain ⟨pr', hpr', -, hretiring⟩ := hs.committing p done [] hq
      cases hpr'.symm.trans hqr
      cases hpr.symm.trans hqr
      have hdone : r ∈ done := by simpa [hretiring] using hmem
      have hcurrent := hs.retiring_current hq (List.mem_append_left [] hdone)
      refine .inr ⟨hcurrent, ?_, rfl⟩
      intro hstays
      exact ((hs.stays hq hqr ⟨_, hs.here, hcurrent⟩).mp hstays).2 hdone
  | _ => exact .inl ⟨hp, pr, hpr, hmem⟩

theorem retirement_reachable {s : Impl} (hs : machine.Reachable s) : Retirement s := by
  refine Machine.Reachable.invariant_with (fun s => consistent_reachable) ?_ ?_ hs
  · rintro s rfl
    constructor <;> simp [Impl.hasRetired]
  · intro s a s' hok hok' hret h
    have hgone : ∀ p r, s'.hasRetired p r → s'.everPublished r ∧ ¬ s'.isCurrent r := by
      intro p r hr
      rcases hasRetired_step hok h hr with hold | ⟨hcurrent, hnot, -⟩
      · obtain ⟨hever, hnot⟩ := hret.gone p r hold
        exact ⟨(grows_step hok h).everPublished hok hever,
          fun hcur => hnot (isCurrent_of_step hok h hever hcur)⟩
      · exact ⟨(grows_step hok h).everPublished hok ⟨_, hok.here, hcurrent⟩, hnot⟩
    refine ⟨hgone, ?_⟩
    intro p q r hp hq
    rcases hasRetired_step hok h hp with hp | ⟨hcurrent, -, hpublished⟩
    · rcases hasRetired_step hok h hq with hq | ⟨hcurrent, -, -⟩
      · exact hret.unique p q r hp hq
      · exact absurd hcurrent (hret.gone p r hp).2
    · rcases hasRetired_step hok h hq with hq | ⟨-, -, hpublished'⟩
      · exact absurd hcurrent (hret.gone q r hq).2
      · rw [hpublished] at hpublished'
        simpa using hpublished'

/-- The flag of a retired registration is clear. -/
theorem inactive_of_retired {s : Impl} (hs : machine.Reachable s) (hr : s.hasRetired p r) :
    (s.registrations r).active = false := by
  obtain ⟨hever, hnot⟩ := (retirement_reachable hs).gone p r hr
  have hflags := (consistent_reachable hs).flags r hever
  cases hactive : (s.registrations r).active with
  | false => rfl
  | true => exact absurd (hflags.mp hactive).1 hnot

/-! ## Data -/

abbrev ChanId := Nat

/-- How far `onCreate` is with a channel.  When the wrapper throws, the call ends with the
    control destroyed and never attached. -/
inductive Creation where
  | loaded | tracked | wrapped | attached | returned | thrown
  deriving DecidableEq, Repr

structure Control where
  registration : RegId
  creation : Creation := .loaded
  closed : Bool := false
  alive : Bool := true
  deriving DecidableEq, Repr

/-- What the wrapper of a registration does: it passes the channel on, closes it and
    returns nothing because its owner is gone, or throws. -/
inductive Wrapping where
  | passes | refuses | throws
  deriving DecidableEq, Repr

/-- The call of `finish` for a publication: the registrations whose list has been taken,
    those to come, and the channels of the list that is being closed. -/
inductive Finish where
  | waiting
  | running (done rest : List RegId) (draining : List ChanId)
  | finished (done : List RegId)
  deriving DecidableEq, Repr

namespace Finish

def done : Finish → List RegId
  | .waiting => []
  | .running done _ _ => done
  | .finished done => done

def rest : Finish → List RegId
  | .running _ rest _ => rest
  | _ => []

def draining : Finish → List ChanId
  | .running _ _ draining => draining
  | _ => []

end Finish

/-! ## The fences -/

/-- What a callback hands on to the owner. -/
inductive Handed where
  | op | trackedConnect | trackedExec
  deriving DecidableEq, Repr

inductive Verdict where
  | refused (message : String)
  | denied
  | passed (handed : Handed)
  deriving DecidableEq, Repr

namespace Registration

/-- The test at the head of every callback. -/
def fence (registration : Registration) (handed : Handed) : Verdict :=
  if !registration.active then .refused "endpoint retired" else .passed handed

def onOp (registration : Registration) : Verdict := registration.fence .trackedConnect

def onGet (registration : Registration) : Verdict := registration.fence .op

def onPut (registration : Registration) : Verdict := registration.fence .trackedExec

def onRPC (registration : Registration) : Verdict := registration.fence .trackedExec

def onSubscribe (registration : Registration) : Verdict := registration.fence .op

/-- `TrackedExec::authorized`, for a write that is about to be dispatched from the queue;
    `target` is the answer of the operation it wraps. -/
def authorized (registration : Registration) (target : Bool) : Verdict :=
  if registration.active && target then .passed .op else .denied

end Registration

inductive OpKind where
  | connect | get | put | rpc | subscribe | authorize
  deriving DecidableEq, Repr

def Registration.verdict (registration : Registration) (target : Bool) : OpKind → Verdict
  | .connect => registration.onOp
  | .get => registration.onGet
  | .put => registration.onPut
  | .rpc => registration.onRPC
  | .subscribe => registration.onSubscribe
  | .authorize => registration.authorized target

/-- Nothing is let through by an inactive registration. -/
theorem verdict_inactive {registration : Registration} (h : registration.active = false)
    (target : Bool) (kind : OpKind) (handed : Handed) :
    registration.verdict target kind ≠ .passed handed := by
  cases kind <;> simp [Registration.verdict, Registration.onOp, Registration.onGet,
    Registration.onPut, Registration.onRPC, Registration.onSubscribe, Registration.authorized,
    Registration.fence, h]

structure Operation where
  registration : RegId
  kind : OpKind
  /-- Ghost: the flag at the time the operation arrived. -/
  startedActive : Bool
  verdict : Option Verdict := none
  deriving DecidableEq, Repr

/-! ## The machine -/

/-- The registry, the lists of its registrations and the channels. -/
structure Endpoints where
  registry : Impl := {}
  channels : RegId → List ChanId := fun _ => []
  controls : ChanId → Option Control := fun _ => none
  nextChan : ChanId := 0
  finishes : PrepId → Finish := fun _ => .waiting
  operations : List Operation := []

namespace Endpoints

def isActive (s : Endpoints) (r : RegId) : Bool := (s.registry.registrations r).active

def setControl (s : Endpoints) (c : ChanId) (control : Control) : Endpoints :=
  { s with controls := Function.update s.controls c (some control) }

def setFinish (s : Endpoints) (p : PrepId) (finish : Finish) : Endpoints :=
  { s with finishes := Function.update s.finishes p finish }

/-- A weak pointer to the control can still be locked. -/
def isAlive (s : Endpoints) (c : ChanId) : Bool := (s.controls c).any Control.alive

/-- `control->close()` -/
def closeControl (s : Endpoints) (c : ChanId) : Endpoints :=
  match s.controls c with
  | some control => s.setControl c { control with closed := true }
  | none => s

/-- `onCreate` up to the look-up; a name that is not served is left to other sources. -/
def load (s : Endpoints) (name : String) : Endpoints :=
  match (s.registry.snapshots s.registry.current).entries.find? name with
  | some r => { s.setControl s.nextChan { registration := r } with nextChan := s.nextChan + 1 }
  | none => s

/-- `Registration::track` -/
def track (s : Endpoints) (c : ChanId) : Option Endpoints := do
  let control ← s.controls c
  if control.creation = .loaded then
    let r := control.registration
    some { s.setControl c { control with creation := .tracked } with
      channels := Function.update s.channels r ((s.channels r).filter s.isAlive ++ [c]) }
  else none

def wrap (s : Endpoints) (c : ChanId) (wrapping : Wrapping) : Option Endpoints := do
  let control ← s.controls c
  if control.creation = .tracked then
    match wrapping, (s.registry.registrations control.registration).wrapper with
    | .passes, _ => some (s.setControl c { control with creation := .wrapped })
    | .refuses, some _ =>
      some (s.setControl c { control with creation := .returned, closed := true, alive := false })
    | .throws, some _ => some (s.setControl c { control with creation := .thrown, alive := false })
    | _, none => none
  else none

def attach (s : Endpoints) (c : ChanId) : Option Endpoints := do
  let control ← s.controls c
  if control.creation = .wrapped then
    some (s.setControl c { control with creation := .attached })
  else none

/-- The test at the end of `onCreate`. -/
def check (s : Endpoints) (c : ChanId) : Option Endpoints := do
  let control ← s.controls c
  if control.creation = .attached then
    some (s.setControl c { control with
      creation := .returned
      closed := control.closed || !s.isActive control.registration })
  else none

/-- The server drops a channel that is closed. -/
def release (s : Endpoints) (c : ChanId) : Option Endpoints := do
  let control ← s.controls c
  if control.creation = .returned ∧ control.closed then
    some (s.setControl c { control with alive := false })
  else none

/-- `finish`, called once after its publication has been committed. -/
def finish (s : Endpoints) (p : PrepId) : Option Endpoints := do
  let prepared ← s.registry.prepared[p]?
  if p ∈ s.registry.published ∧ s.finishes p = .waiting then
    some (s.setFinish p (.running [] prepared.retiring []))
  else none

/-- The swap in `Registration::close`. -/
def drain (s : Endpoints) (p : PrepId) : Option Endpoints :=
  match s.finishes p with
  | .running done (r :: rest) [] =>
    some { s.setFinish p (.running (done ++ [r]) rest (s.channels r)) with
      channels := Function.update s.channels r [] }
  | _ => none

/-- One turn of the loop in `Registration::close`. -/
def close (s : Endpoints) (p : PrepId) : Option Endpoints :=
  match s.finishes p with
  | .running done rest (c :: draining) =>
    let s := if s.isAlive c then s.closeControl c else s
    some (s.setFinish p (.running done rest draining))
  | _ => none

def finished (s : Endpoints) (p : PrepId) : Option Endpoints :=
  match s.finishes p with
  | .running done [] [] => some (s.setFinish p (.finished done))
  | _ => none

/-- The handlers of a channel are there from the call of `attach` on. -/
def start (s : Endpoints) (c : ChanId) (kind : OpKind) : Option Endpoints := do
  let control ← s.controls c
  if control.creation ∈ [.wrapped, .attached, .returned] then
    some { s with operations := s.operations ++ [{
      registration := control.registration
      kind := kind
      startedActive := s.isActive control.registration }] }
  else none

def dispatch (s : Endpoints) (i : Nat) (target : Bool) : Option Endpoints := do
  let operation ← s.operations[i]?
  if operation.verdict.isNone then
    let registration := s.registry.registrations operation.registration
    some { s with operations := s.operations.set i { operation with
      verdict := some (registration.verdict target operation.kind) } }
  else none

end Endpoints

inductive ChannelLabel where
  | registry (a : Label)
  | load (name : String)
  | track (c : ChanId)
  | wrap (c : ChanId) (wrapping : Wrapping)
  | attach (c : ChanId)
  | check (c : ChanId)
  /-- The client goes away, or the server closes the channel for a reason of its own. -/
  | disconnect (c : ChanId)
  | release (c : ChanId)
  | finish (p : PrepId)
  | drain (p : PrepId)
  | close (p : PrepId)
  | finished (p : PrepId)
  | start (c : ChanId) (kind : OpKind)
  | dispatch (i : Nat) (target : Bool)

def channelStep (s : Endpoints) : ChannelLabel → Option Endpoints
  | .registry a => (step s.registry a).map fun registry => { s with registry := registry }
  | .load name => some (s.load name)
  | .track c => s.track c
  | .wrap c wrapping => s.wrap c wrapping
  | .attach c => s.attach c
  | .check c => s.check c
  | .disconnect c => some (s.closeControl c)
  | .release c => s.release c
  | .finish p => s.finish p
  | .drain p => s.drain p
  | .close p => s.close p
  | .finished p => s.finished p
  | .start c kind => s.start c kind
  | .dispatch i target => s.dispatch i target

def channelMachine : Machine Endpoints ChannelLabel where
  start s := s = {}
  step := channelStep

/-! ## What a step does -/

/-- What the steps do that concern one control only.  `active` is the flag of its
    registration. -/
inductive ControlStep (active : Bool) (control : Control) : Control → Prop where
  | wrapped (h : control.creation = .tracked) :
      ControlStep active control { control with creation := .wrapped }
  | refused (h : control.creation = .tracked) :
      ControlStep active control
        { control with creation := .returned, closed := true, alive := false }
  | thrown (h : control.creation = .tracked) :
      ControlStep active control { control with creation := .thrown, alive := false }
  | attached (h : control.creation = .wrapped) :
      ControlStep active control { control with creation := .attached }
  | checked (h : control.creation = .attached) :
      ControlStep active control
        { control with creation := .returned, closed := control.closed || !active }
  | closed : ControlStep active control { control with closed := true }
  | released (h : control.closed = true) (h' : control.creation = .returned) :
      ControlStep active control { control with alive := false }

inductive ChannelStep (s s' : Endpoints) : Prop where
  | registry (a : Label) (registry : Impl) (h : step s.registry a = some registry)
      (after : s' = { s with registry := registry })
  | stay (after : s' = s)
  | load (name : String) (r : RegId)
      (h : (s.registry.snapshots s.registry.current).entries.find? name = some r)
      (after : s' = { s.setControl s.nextChan { registration := r } with
        nextChan := s.nextChan + 1 })
  | track (c : ChanId) (control : Control) (h : s.controls c = some control)
      (loaded : control.creation = .loaded)
      (after : s' = { s.setControl c { control with creation := .tracked } with
        channels := Function.update s.channels control.registration
          ((s.channels control.registration).filter s.isAlive ++ [c]) })
  | control (c : ChanId) (control control' : Control) (h : s.controls c = some control)
      (move : ControlStep (s.isActive control.registration) control control')
      (after : s' = s.setControl c control')
  | finish (p : PrepId) (pr : Prepared) (hp : p ∈ s.registry.published)
      (hpr : s.registry.prepared[p]? = some pr) (h : s.finishes p = .waiting)
      (after : s' = s.setFinish p (.running [] pr.retiring []))
  | drain (p : PrepId) (done rest : List RegId) (r : RegId)
      (h : s.finishes p = .running done (r :: rest) [])
      (after : s' = { s.setFinish p (.running (done ++ [r]) rest (s.channels r)) with
        channels := Function.update s.channels r [] })
  | close (p : PrepId) (done rest : List RegId) (c : ChanId) (draining : List ChanId)
      (h : s.finishes p = .running done rest (c :: draining))
      (after : s' = (if s.isAlive c then s.closeControl c else s).setFinish p
        (.running done rest draining))
  | finished (p : PrepId) (done : List RegId) (h : s.finishes p = .running done [] [])
      (after : s' = s.setFinish p (.finished done))
  | start (c : ChanId) (control : Control) (kind : OpKind) (h : s.controls c = some control)
      (after : s' = { s with operations := s.operations ++ [{
        registration := control.registration
        kind := kind
        startedActive := s.isActive control.registration }] })
  | dispatch (i : Nat) (target : Bool) (operation : Operation)
      (h : s.operations[i]? = some operation)
      (after : s' = { s with operations := s.operations.set i { operation with
        verdict := some ((s.registry.registrations operation.registration).verdict target
          operation.kind) } })

theorem closeControl_cases (s : Endpoints) (c : ChanId) :
    (∃ control, s.controls c = some control ∧
      s.closeControl c = s.setControl c { control with closed := true }) ∨
    s.closeControl c = s := by
  unfold Endpoints.closeControl
  cases hcontrol : s.controls c with
  | some control => exact .inl ⟨control, rfl, rfl⟩
  | none => exact .inr rfl

variable {s s' : Endpoints} {a : ChannelLabel} {c : ChanId} {control : Control}

/-- The sections of one channel look its control up and test it. -/
theorem control_of_some {test : Control → Prop} [DecidablePred test] {after : Control → Endpoints}
    (h : ((s.controls c).bind fun control =>
      if test control then some (after control) else none) = some s') :
    ∃ control, s.controls c = some control ∧ test control ∧ s' = after control := by
  obtain ⟨control, hcontrol, ht⟩ := Option.bind_eq_some_iff.mp h
  obtain ⟨htest, heq⟩ := Option.ite_none_right_eq_some.mp ht
  exact ⟨control, hcontrol, htest, (Option.some.inj heq).symm⟩

theorem step_channelStep (h : channelStep s a = some s') :
    ChannelStep s s' := by
  cases a with
  | registry b =>
    obtain ⟨registry, hstep, rfl⟩ := Option.map_eq_some_iff.mp h
    exact .registry b registry hstep rfl
  | load name =>
    cases h
    unfold Endpoints.load
    split
    · rename_i r hr
      exact .load name r hr rfl
    · exact .stay rfl
  | track c =>
    obtain ⟨control, hcontrol, hloaded, hafter⟩ := control_of_some h
    exact .track c control hcontrol hloaded hafter
  | wrap c wrapping =>
    obtain ⟨control, hcontrol, ht⟩ := Option.bind_eq_some_iff.mp h
    split at ht
    · rename_i htracked
      split at ht <;> cases ht
      · exact .control c control _ hcontrol (.wrapped htracked) rfl
      · exact .control c control _ hcontrol (.refused htracked) rfl
      · exact .control c control _ hcontrol (.thrown htracked) rfl
    · cases ht
  | attach c =>
    obtain ⟨control, hcontrol, hwrapped, hafter⟩ := control_of_some h
    exact .control c control _ hcontrol (.attached hwrapped) hafter
  | check c =>
    obtain ⟨control, hcontrol, hattached, hafter⟩ := control_of_some h
    exact .control c control _ hcontrol (.checked hattached) hafter
  | disconnect c =>
    cases h
    rcases closeControl_cases s c with ⟨control, hcontrol, heq⟩ | heq
    · exact .control c control _ hcontrol .closed heq
    · exact .stay heq
  | release c =>
    obtain ⟨control, hcontrol, hclosed, hafter⟩ := control_of_some h
    exact .control c control _ hcontrol (.released hclosed.2 hclosed.1) hafter
  | finish p =>
    obtain ⟨pr, hpr, ht⟩ := Option.bind_eq_some_iff.mp h
    split at ht <;> cases ht
    rename_i hready
    exact .finish p pr hready.1 hpr hready.2 rfl
  | drain p =>
    simp only [channelStep, Endpoints.drain] at h
    split at h <;> cases h
    rename_i done r rest hp
    exact .drain p done rest r hp rfl
  | close p =>
    simp only [channelStep, Endpoints.close] at h
    split at h <;> cases h
    rename_i done rest c draining hp
    exact .close p done rest c draining hp rfl
  | finished p =>
    simp only [channelStep, Endpoints.finished] at h
    split at h <;> cases h
    rename_i done hp
    exact .finished p done hp rfl
  | start c kind =>
    obtain ⟨control, hcontrol, -, hafter⟩ := control_of_some h
    exact .start c control kind hcontrol hafter
  | dispatch i target =>
    obtain ⟨operation, hop, ht⟩ := Option.bind_eq_some_iff.mp h
    split at ht <;> cases ht
    exact .dispatch i target operation hop rfl

@[simp] theorem closeControl_registry (s : Endpoints) (c : ChanId) :
    (s.closeControl c).registry = s.registry := by
  rcases closeControl_cases s c with ⟨control, -, heq⟩ | heq <;> rw [heq]
  rfl

theorem ChannelStep.registry_step (h : ChannelStep s s') :
    s'.registry = s.registry ∨ ∃ a, step s.registry a = some s'.registry := by
  cases h
  case registry a registry hstep hafter =>
    rw [hafter]
    exact .inr ⟨a, hstep⟩
  all_goals
    subst_vars
    left
  case close => split <;> simp [Endpoints.setFinish]
  all_goals rfl

/-- The entries of the two maps after one of them has been replaced. -/
theorem controls_setControl {c' : ChanId} {control' : Control}
    (h : (s.setControl c control).controls c' = some control') :
    c' = c ∧ control' = control ∨ s.controls c' = some control' := by
  by_cases heq : c' = c
  · subst heq
    simp only [Endpoints.setControl, Function.update_self, Option.some.injEq] at h
    exact .inl ⟨rfl, h.symm⟩
  · simp only [Endpoints.setControl, Function.update_of_ne heq] at h
    exact .inr h

@[simp] theorem finishes_setFinish (s : Endpoints) (p q : PrepId) (finish : Finish) :
    (s.setFinish p finish).finishes q = if q = p then finish else s.finishes q :=
  Function.update_apply ..

/-- The registry of this machine runs as the registry alone does. -/
theorem registry_reachable (hs : channelMachine.Reachable s) :
    machine.Reachable s.registry := by
  refine hs.invariant (P := fun s => machine.Reachable s.registry) ?_ ?_
  · rintro s rfl
    exact Machine.Reachable.of_start rfl
  · intro s a s' hreach h
    rcases (step_channelStep h).registry_step with hsame | ⟨b, hstep⟩
    · rw [hsame]
      exact hreach
    · exact hreach.step hstep

/-- An inactive registration stays inactive. -/
theorem inactive_step (hs : channelMachine.Reachable s) (h : channelMachine.step s a = some s')
    (hr : r < s.registry.nextReg) (hinactive : s.isActive r = false) :
    r < s'.registry.nextReg ∧ s'.isActive r = false := by
  unfold Endpoints.isActive at hinactive ⊢
  rcases (step_channelStep h).registry_step with hsame | ⟨b, hstep⟩
  · rw [hsame]
    exact ⟨hr, hinactive⟩
  · have hgrows := grows_step (consistent_reachable (registry_reachable hs)) hstep
    refine ⟨lt_of_lt_of_le hr hgrows.nextReg, ?_⟩
    rw [Bool.eq_false_iff] at hinactive ⊢
    exact fun hnow => hinactive (hgrows.active r hr hnow)

/-! ## Where an open channel is kept -/

/-- An open channel is in the list of its registration, which nobody has taken yet, or in
    the hands of the `finish` that took the list. -/
def Kept (s : Endpoints) (c : ChanId) (r : RegId) : Prop :=
  (c ∈ s.channels r ∧ ∀ p, r ∉ (s.finishes p).done) ∨
  ∃ p, r ∈ (s.finishes p).done ∧ c ∈ (s.finishes p).draining

/-- What is known about one control.  While `onCreate` is under way, a channel may have
    missed the list only if its registration is retired: the final test will find out. -/
structure ControlOk (s : Endpoints) (c : ChanId) (control : Control) : Prop where
  known : control.registration < s.registry.nextReg
  held : control.creation ∈ [.loaded, .tracked, .wrapped, .attached] → control.alive = true
  creating : control.creation ∈ [.tracked, .wrapped, .attached] →
    s.isActive control.registration = true → control.closed = true ∨
      c ∈ s.channels control.registration
  returned : control.creation = .returned → control.closed = false →
    control.alive = true ∧ Kept s c control.registration

/-- A `finish` is under way only for a committed publication, and for what it retires. -/
def FinishOk (s : Endpoints) (p : PrepId) : Prop :=
  s.finishes p = .waiting ∨ p ∈ s.registry.published ∧
    ∃ pr, s.registry.prepared[p]? = some pr ∧
      pr.retiring = (s.finishes p).done ++ (s.finishes p).rest

/-- An operation that arrived at a retired registration is not let through. -/
structure OperationOk (s : Endpoints) (operation : Operation) : Prop where
  known : operation.registration < s.registry.nextReg
  late : operation.startedActive = false → s.isActive operation.registration = false
  fenced : operation.startedActive = false → ∀ handed, operation.verdict ≠ some (.passed handed)

structure Custody (s : Endpoints) : Prop where
  controls : ∀ c control, s.controls c = some control → ControlOk s c control
  finishes : ∀ p, FinishOk s p
  operations : ∀ operation ∈ s.operations, OperationOk s operation

/-- A list that has been taken belongs to a retired registration. -/
theorem Custody.hasRetired (hs : Custody s) (hr : r ∈ (s.finishes p).done) :
    s.registry.hasRetired p r := by
  rcases hs.finishes p with hwaiting | ⟨hp, pr, hpr, hretiring⟩
  · rw [hwaiting] at hr
    cases hr
  · refine ⟨hp, pr, hpr, ?_⟩
    rw [hretiring]
    exact List.mem_append_left _ hr

/-- What is known about a control reads the registry, the lists and the two ends of every
    `finish`, and no other control. -/
theorem ControlOk.frame (h : ControlOk s c control) (hregistry : s'.registry = s.registry)
    (hlist : control.alive = true → s.isActive control.registration = true →
      c ∈ s.channels control.registration → c ∈ s'.channels control.registration)
    (hkept : control.alive = true → control.closed = false →
      Kept s c control.registration → Kept s' c control.registration) : ControlOk s' c control := by
  refine ⟨hregistry ▸ h.known, h.held, ?_, ?_⟩
  · unfold Endpoints.isActive
    rw [hregistry]
    intro hunder hactive
    have halive := h.held (List.mem_cons_of_mem _ hunder)
    exact (h.creating hunder hactive).imp id (hlist halive hactive)
  · intro hret hopen
    obtain ⟨halive, hold⟩ := h.returned hret hopen
    exact ⟨halive, hkept halive hopen hold⟩

theorem OperationOk.congr {operation : Operation} (h : OperationOk s operation)
    (hregistry : s'.registry = s.registry) : OperationOk s' operation := by
  refine ⟨hregistry ▸ h.known, ?_, h.fenced⟩
  unfold Endpoints.isActive
  rw [hregistry]
  exact h.late

/-- A control is replaced by one that is in order. -/
theorem Custody.setControl (hs : Custody s) (h : ControlOk s c control) :
    Custody (s.setControl c control) := by
  refine ⟨?_, hs.finishes, fun operation hop => (hs.operations operation hop).congr rfl⟩
  intro c' control' hcontrol'
  rcases controls_setControl hcontrol' with ⟨rfl, rfl⟩ | hold
  · exact h.frame rfl (fun _ _ => id) fun _ _ => id
  · exact (hs.controls c' control' hold).frame rfl (fun _ _ => id) fun _ _ => id

theorem FinishOk.setFinish {q : PrepId} {finish : Finish} (h : FinishOk s q)
    (hok : FinishOk (s.setFinish p finish) p) : FinishOk (s.setFinish p finish) q := by
  by_cases heq : q = p
  · exact heq ▸ hok
  · rw [FinishOk, finishes_setFinish, if_neg heq]
    exact h

/-- A `finish` moves on without taking a list or letting go of a channel. -/
theorem Custody.setFinish (hs : Custody s) {finish : Finish}
    (hdone : finish.done = (s.finishes p).done)
    (hdraining : finish.draining = (s.finishes p).draining)
    (hok : FinishOk (s.setFinish p finish) p) : Custody (s.setFinish p finish) := by
  refine ⟨?_, fun q => (hs.finishes q).setFinish hok,
    fun operation hop => (hs.operations operation hop).congr rfl⟩
  intro c control hcontrol
  refine (hs.controls c control hcontrol).frame rfl (fun _ _ => id) fun _ _ hkept => ?_
  have hends : ∀ q, ((s.setFinish p finish).finishes q).done = (s.finishes q).done ∧
      ((s.setFinish p finish).finishes q).draining = (s.finishes q).draining := by
    intro q
    rw [finishes_setFinish]
    split
    · subst q
      exact ⟨hdone, hdraining⟩
    · exact ⟨rfl, rfl⟩
  simp only [Kept, (hends _).1, (hends _).2]
  exact hkept

/-! ## The steps -/

/-- A section of the registry: flags are only cleared, and what was committed stays so. -/
theorem custody_registry (hs : Custody s) (hreg : Consistent s.registry) {a : Label}
    {registry : Impl} (h : step s.registry a = some registry) :
    Custody { s with registry := registry } := by
  have hgrows := grows_step hreg h
  refine ⟨?_, ?_, ?_⟩
  · intro c control hcontrol
    have hok := hs.controls c control hcontrol
    exact ⟨lt_of_lt_of_le hok.known hgrows.nextReg, hok.held,
      fun hcreating ha => hok.creating hcreating (hgrows.active _ hok.known ha), hok.returned⟩
  · intro p
    rcases hs.finishes p with hwaiting | ⟨hp, pr, hpr, hretiring⟩
    · exact .inl hwaiting
    · exact .inr ⟨hgrows.published hp, pr, hgrows.prepared p pr hpr, hretiring⟩
  · intro operation hop
    obtain ⟨hknown, hlate, hfenced⟩ := hs.operations operation hop
    refine ⟨lt_of_lt_of_le hknown hgrows.nextReg, fun hstart => ?_, hfenced⟩
    have hbefore := hlate hstart
    unfold Endpoints.isActive at hbefore ⊢
    rw [Bool.eq_false_iff] at hbefore ⊢
    exact fun hnow => hbefore (hgrows.active _ hknown hnow)

theorem custody_load (hs : Custody s) (hreg : Consistent s.registry) {name : String}
    (hr : (s.registry.snapshots s.registry.current).entries.find? name = some r) :
    Custody { s.setControl s.nextChan { registration := r } with nextChan := s.nextChan + 1 } := by
  have hnew : ControlOk s s.nextChan { registration := r } :=
    ⟨(hreg.range _ name r hr).2, fun _ => rfl, by simp, by simp⟩
  obtain ⟨hcontrols, hfinishes, hoperations⟩ := hs.setControl hnew
  refine ⟨?_, hfinishes, fun operation hop => (hoperations operation hop).congr rfl⟩
  intro c control hcontrol
  exact (hcontrols c control hcontrol).frame rfl (fun _ _ => id) fun _ _ => id

/-- Entries that have expired are dropped from the list: nobody waits for them. -/
theorem custody_track (hs : Custody s) (hcontrol : s.controls c = some control)
    (hloaded : control.creation = .loaded) :
    Custody { s.setControl c { control with creation := .tracked } with
      channels := Function.update s.channels control.registration
        ((s.channels control.registration).filter s.isAlive ++ [c]) } := by
  have hok := hs.controls c control hcontrol
  refine ⟨?_, hs.finishes, fun operation hop => (hs.operations operation hop).congr rfl⟩
  intro c' control' hcontrol'
  rcases controls_setControl hcontrol' with ⟨rfl, rfl⟩ | hold
  · exact ⟨hok.known, fun _ => hok.held (by simp [hloaded]), fun _ _ => .inr (by simp), by simp⟩
  · -- an open channel whose control lives is still in its list
    have hstays : control'.alive = true → c' ∈ s.channels control'.registration →
        c' ∈ Function.update s.channels control.registration
          ((s.channels control.registration).filter s.isAlive ++ [c]) control'.registration := by
      intro halive hmem
      by_cases hsame : control'.registration = control.registration
      · rw [hsame, Function.update_self]
        refine List.mem_append_left _ (List.mem_filter.mpr ⟨hsame ▸ hmem, ?_⟩)
        simp [Endpoints.isAlive, hold, halive]
      · rwa [Function.update_of_ne hsame]
    refine (hs.controls c' control' hold).frame rfl (fun halive _ => hstays halive) ?_
    intro halive _ hkept
    exact hkept.imp (fun hlist => ⟨hstays halive hlist.1, hlist.2⟩) id

/-- The steps of one control.  At the final test an active registration means that nobody
    has taken its list. -/
theorem controlOk_step (hs : Custody s) (hreg : machine.Reachable s.registry) {control' : Control}
    (hcontrol : s.controls c = some control)
    (h : ControlStep (s.isActive control.registration) control control') :
    ControlOk s c control' := by
  obtain ⟨hknown, hheld, hcreating, hreturned⟩ := hs.controls c control hcontrol
  cases h with
  | wrapped htracked =>
    exact ⟨hknown, fun _ => hheld (by simp [htracked]), fun _ => hcreating (by simp [htracked]),
      by simp⟩
  | refused htracked => exact ⟨hknown, by simp, by simp, by simp⟩
  | thrown htracked => exact ⟨hknown, by simp, by simp, by simp⟩
  | attached hwrapped =>
    exact ⟨hknown, fun _ => hheld (by simp [hwrapped]), fun _ => hcreating (by simp [hwrapped]),
      by simp⟩
  | checked hattached =>
    refine ⟨hknown, by simp, by simp, ?_⟩
    intro _ hopen
    simp only [Bool.or_eq_false_iff, Bool.not_eq_false'] at hopen
    refine ⟨hheld (by simp [hattached]), .inl ⟨?_, ?_⟩⟩
    · rcases hcreating (by simp [hattached]) hopen.2 with hclosed | hmem
      · rw [hopen.1] at hclosed
        cases hclosed
      · exact hmem
    · intro p hdone
      have hinactive := inactive_of_retired hreg (hs.hasRetired hdone)
      rw [show (s.registry.registrations control.registration).active = true from hopen.2]
        at hinactive
      cases hinactive
  | closed => exact ⟨hknown, hheld, fun _ _ => .inl rfl, by simp⟩
  | released hclosed hret =>
    exact ⟨hknown, by simp [hret], by simp [hret], by simp [hclosed]⟩

/-- A `finish` that is under way: its publication, and what it retires. -/
theorem Custody.running (hs : Custody s) {done rest : List RegId} {draining : List ChanId}
    (hp : s.finishes p = .running done rest draining) : p ∈ s.registry.published ∧
      ∃ pr, s.registry.prepared[p]? = some pr ∧ pr.retiring = done ++ rest := by
  rcases hs.finishes p with hwaiting | hrunning
  · rw [hp] at hwaiting
    cases hwaiting
  · rwa [hp] at hrunning

theorem custody_drain (hs : Custody s) (hreg : machine.Reachable s.registry)
    {done rest : List RegId} (hp : s.finishes p = .running done (r :: rest) []) :
    Custody { s.setFinish p (.running (done ++ [r]) rest (s.channels r)) with
      channels := Function.update s.channels r [] } := by
  obtain ⟨hpub, pr, hpr, hretiring⟩ := hs.running hp
  have hinactive : s.isActive r = false :=
    inactive_of_retired hreg ⟨hpub, pr, hpr, by simp [hretiring]⟩
  refine ⟨?_, fun q => (hs.finishes q).setFinish ?_,
    fun operation hop => (hs.operations operation hop).congr rfl⟩
  · intro c control hcontrol
    refine (hs.controls c control hcontrol).frame rfl ?_ ?_
    · intro _ hactive hmem
      have hne : control.registration ≠ r := by
        rintro heq
        rw [heq, hinactive] at hactive
        cases hactive
      simpa [Function.update_of_ne hne] using hmem
    · rintro - - (⟨hmem, hnone⟩ | ⟨q, hdone, hdraining⟩)
      · by_cases heq : control.registration = r
        · exact .inr ⟨p, by simp [Finish.done, heq], by simpa [Finish.draining] using heq ▸ hmem⟩
        · refine .inl ⟨by simpa [Function.update_of_ne heq] using hmem, fun q => ?_⟩
          have hnot := hnone q
          simp only [finishes_setFinish]
          split
          · subst q
            rw [hp] at hnot
            simpa [Finish.done, heq] using hnot
          · exact hnot
      · have hq : q ≠ p := by
          rintro rfl
          rw [hp] at hdraining
          cases hdraining
        exact .inr ⟨q, by simpa [hq] using hdone, by simpa [hq] using hdraining⟩
  · exact .inr ⟨hpub, pr, hpr, by simp [Finish.done, Finish.rest, hretiring]⟩

/-- A channel that is closed, or whose control is gone, may be let go of. -/
theorem Custody.pop (hs : Custody s) {done rest : List RegId} {draining : List ChanId}
    (hp : s.finishes p = .running done rest (c :: draining))
    (hc : ∀ control, s.controls c = some control → control.closed = true ∨ control.alive = false) :
    Custody (s.setFinish p (.running done rest draining)) := by
  obtain ⟨hpub, pr, hpr, hretiring⟩ := hs.running hp
  refine ⟨?_, fun q => (hs.finishes q).setFinish ?_,
    fun operation hop => (hs.operations operation hop).congr rfl⟩
  · intro c' control hcontrol
    refine (hs.controls c' control hcontrol).frame rfl (fun _ _ => id) ?_
    intro halive hopen hkept
    have hne : c' ≠ c := by
      rintro rfl
      simpa [halive, hopen] using hc control hcontrol
    have hdone : ∀ q, ((s.setFinish p (.running done rest draining)).finishes q).done =
        (s.finishes q).done := by
      intro q
      rw [finishes_setFinish]
      split
      · subst q
        rw [hp]
        rfl
      · rfl
    refine hkept.imp (fun hlist => ⟨hlist.1, fun q => ?_⟩) ?_
    · rw [hdone]
      exact hlist.2 q
    · rintro ⟨q, hq, hdraining⟩
      refine ⟨q, by rwa [hdone], ?_⟩
      rw [finishes_setFinish]
      split
      · subst q
        rw [hp] at hdraining
        exact (List.mem_cons.mp hdraining).resolve_left hne
      · exact hdraining
  · exact .inr ⟨hpub, pr, hpr, by simp [Finish.done, Finish.rest, hretiring]⟩

theorem custody_close (hs : Custody s) (hreg : machine.Reachable s.registry)
    {done rest : List RegId} {draining : List ChanId}
    (hp : s.finishes p = .running done rest (c :: draining)) :
    Custody ((if s.isAlive c then s.closeControl c else s).setFinish p
      (.running done rest draining)) := by
  split
  · unfold Endpoints.closeControl
    cases hcontrol : s.controls c with
    | some control =>
      refine (hs.setControl (controlOk_step hs hreg hcontrol .closed)).pop hp ?_
      intro control' hcontrol'
      simp only [Endpoints.setControl, Function.update_self, Option.some.injEq] at hcontrol'
      exact .inl (hcontrol' ▸ rfl)
    | none =>
      refine hs.pop hp fun control hsome => ?_
      rw [hcontrol] at hsome
      cases hsome
  · rename_i hdead
    refine hs.pop hp fun control hcontrol => .inr ?_
    simpa [Endpoints.isAlive, hcontrol] using hdead

theorem custody_step (hreg : machine.Reachable s.registry) (hs : Custody s)
    (h : channelMachine.step s a = some s') : Custody s' := by
  have hok := consistent_reachable hreg
  have hcontrols : ∀ operations c control, s.controls c = some control →
      ControlOk { s with operations := operations } c control :=
    fun _ c control hcontrol =>
      (hs.controls c control hcontrol).frame rfl (fun _ _ => id) fun _ _ => id
  cases step_channelStep h <;> subst_vars
  case registry b registry hstep => exact custody_registry hs hok hstep
  case stay => exact hs
  case load name r hr => exact custody_load hs hok hr
  case track c control hcontrol hloaded => exact custody_track hs hcontrol hloaded
  case control c control control' hcontrol hmove =>
    exact hs.setControl (controlOk_step hs hreg hcontrol hmove)
  case finish p pr hp hpr hwaiting =>
    refine hs.setFinish (by rw [hwaiting]; rfl) (by rw [hwaiting]; rfl) (.inr ⟨hp, pr, hpr, ?_⟩)
    simp [Finish.done, Finish.rest]
  case drain p done rest r hp => exact custody_drain hs hreg hp
  case close p done rest c draining hp => exact custody_close hs hreg hp
  case finished p done hp =>
    refine hs.setFinish (by rw [hp]; rfl) (by rw [hp]; rfl) (.inr ?_)
    simpa [Endpoints.setFinish, Finish.done, Finish.rest] using hs.running hp
  case start c control kind hcontrol =>
    refine ⟨hcontrols _, hs.finishes, List.forall_mem_append.mpr ⟨?_, ?_⟩⟩
    · exact fun operation hop => (hs.operations operation hop).congr rfl
    · rw [List.forall_mem_singleton]
      exact ⟨(hs.controls c control hcontrol).known, id, by simp⟩
  case dispatch i target operation hop =>
    refine ⟨hcontrols _, hs.finishes, fun operation' hop' => ?_⟩
    rcases List.mem_or_eq_of_mem_set hop' with hold | rfl
    · exact (hs.operations operation' hold).congr rfl
    · obtain ⟨hknown, hlate, -⟩ := hs.operations operation (List.mem_of_getElem? hop)
      refine ⟨hknown, hlate, fun hstart handed hpassed => ?_⟩
      exact verdict_inactive (hlate hstart) target operation.kind handed (Option.some.inj hpassed)

theorem custody_reachable (hs : channelMachine.Reachable s) : Custody s := by
  refine Machine.Reachable.invariant_with (fun s => registry_reachable) ?_
    (fun s a s' hreg _ hcustody h => custody_step hreg hcustody h) hs
  rintro s rfl
  exact ⟨by simp, fun p => .inl rfl, by simp⟩

/-! ## No channel escapes -/

structure ChannelsFenced (s : Endpoints) : Prop where
  /-- Both have completed: `onCreate` for the channel, and the publication that retires its
      registration together with its `finish`. -/
  closed : ∀ c control p done, s.controls c = some control → control.creation = .returned →
    s.registry.hasRetired p control.registration → s.finishes p = .finished done →
    control.closed = true
  /-- An operation that starts at an inactive registration is not let through. -/
  fenced : ∀ operation ∈ s.operations, operation.startedActive = false →
    ∀ handed, operation.verdict ≠ some (.passed handed)
  /-- Inactive means inactive for good. -/
  final : ∀ as t, channelMachine.exec s as = some t → ∀ r, r < s.registry.nextReg →
    s.isActive r = false → t.isActive r = false

/-- **No channel escapes retirement**, in every state of every run. -/
theorem channels_fenced {s : Endpoints} (hs : channelMachine.Reachable s) : ChannelsFenced s := by
  have hreg := registry_reachable hs
  have hcustody := custody_reachable hs
  refine ⟨?_, ?_, ?_⟩
  · intro c control p done hcontrol hret hretired hfinished
    by_contra hopen
    rw [Bool.not_eq_true] at hopen
    obtain ⟨-, hkept⟩ := (hcustody.controls c control hcontrol).returned hret hopen
    have hdone : control.registration ∈ (s.finishes p).done := by
      rcases hcustody.finishes p with hwaiting | ⟨-, pr, hpr, hretiring⟩
      · rw [hfinished] at hwaiting
        cases hwaiting
      · obtain ⟨-, pr', hpr', hmem⟩ := hretired
        cases hpr.symm.trans hpr'
        rw [hretiring, hfinished] at hmem
        rw [hfinished]
        simpa [Finish.done, Finish.rest] using hmem
    rcases hkept with ⟨-, hnone⟩ | ⟨q, hq, hdraining⟩
    · exact hnone p hdone
    · -- only one publication retires a registration, and its `finish` holds nothing any more
      have hsame := (retirement_reachable hreg).unique q p _ (hcustody.hasRetired hq) hretired
      rw [hsame, hfinished] at hdraining
      cases hdraining
  · intro operation hop
    exact (hcustody.operations operation hop).fenced
  · intro as t hrun r hr hinactive
    have hend := channelMachine.exec_invariant
      (P := fun t => channelMachine.Reachable t ∧ r < t.registry.nextReg ∧ t.isActive r = false)
      (fun t a t' ht hstep => ⟨ht.1.step hstep, inactive_step ht.1 hstep ht.2.1 ht.2.2⟩)
      ⟨hs, hr, hinactive⟩ hrun
    exact hend.2.2

/-- A channel is looked up before its registration is retired and tracked after the list
    has been drained.  A `GET` on it is refused, and the final test closes it. -/
theorem channels_fenced_late : ∃ s control, channelMachine.Reachable s ∧
    s.controls 0 = some control ∧ control.creation = .returned ∧
    s.finishes 1 = .finished [0] ∧ s.operations.map Operation.verdict =
      [some (.refused "endpoint retired")] ∧ ChannelsFenced s := by
  let run : List ChannelLabel := [
    .registry (.prepare (FinMap.ofList [("pv", { pv := some 7, owner := some 1 })]) ∅),
    .registry (.enter 0), .registry (.answer true), .registry .store, .load "pv",
    .registry .clearPrepare, .registry (.enter 1), .registry (.answer true), .registry .retire,
    .registry .store, .finish 1, .drain 1, .finished 1, .track 0, .wrap 0 .passes, .attach 0,
    .start 0 .get, .dispatch 0 true, .check 0]
  have hrun : (channelMachine.exec {} run).map (fun s =>
      ((s.controls 0).map Control.creation, s.finishes 1, s.operations.map Operation.verdict)) =
      some (some .returned, .finished [0], [some (.refused "endpoint retired")]) := by
    decide +kernel
  obtain ⟨s, hs, hend⟩ := Option.map_eq_some_iff.mp hrun
  simp only [Prod.mk.injEq, Option.map_eq_some_iff] at hend
  obtain ⟨⟨control, hcontrol, hret⟩, hfinished, hverdict⟩ := hend
  have hreach : channelMachine.Reachable s := ⟨{}, run, rfl, hs⟩
  exact ⟨s, control, hreach, hcontrol, hret, hfinished, hverdict, channels_fenced hreach⟩

end RedisPvxsIoc.PVRegistry
