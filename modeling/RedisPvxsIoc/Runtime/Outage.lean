import RedisPvxsIoc.Runtime.ServedAlarm

/-!
# The Alarm of a Sample after an Outage

A numeric alarm is evaluated with hysteresis: the status that is served now decides which
thresholds count.  There is no other memory, and a tick that finds the source unready
overwrites it with `UDF`.  So after an outage the alarm of the retained sample is the one that
the rules give without a memory, whatever was served before.

## Main results

- `Typed.recovered_alarm`: what is served once the source is ready again
- `Typed.alarm_survives_outage_iff`: the alarm is the one from before the outage exactly when
  the rules give it without a memory
-/

namespace RedisPvxsIoc.Runtime

open Config Foundations
open Alarm (AlarmState)

set_option linter.unusedSectionVars false

/-- The states of a source that a tick reports with an error. -/
def SourceState.isOutage : SourceState → Bool
  | .inactive | .ready => false
  | _ => true

theorem sourceState_outage {Id : Type} {sample : SourceSampleState Id} {reader : ReaderStatus}
    {active valid stale : Bool} (hsample : sample.valid = true ∨ sample.error ≠ "")
    (hvalid : valid = (sample.valid && sample.epoch == reader.epoch))
    (h : (sourceState sample reader active valid stale).1.isOutage = true) :
    (sourceState sample reader active valid stale).2 ≠ "" := by
  have hactive : active = true ∧ reader.active = true := by
    by_contra hnot
    have hinactive : (!active || !reader.active) = true := by
      cases active <;> cases hreader : reader.active <;> simp_all
    rw [sourceState, if_pos hinactive] at h
    cases h
  obtain ⟨rfl, hreader⟩ := hactive
  intro herror
  rw [(sourceState_error stale hreader hsample hvalid).mp herror] at h
  cases h

namespace Typed

variable {V Id : Type} [ValueType V] [LinearOrder Id] {s s' : State V Id}

/-! ## Steps that bring nothing new -/

/-- Nothing new to present: no sample, no echo, no change of the configuration and no refresh.
    Ticks, reader events, and puts up to their echo are such steps. -/
def State.nothingNew (s : State V Id) : Label V Id → Bool
  | .tick _ => true
  | .commit _ => false
  | a => !s.posts a

variable {a : Label V Id}

/-- A step that brings nothing new shows another health error, or moves only the alarm
    registration. -/
theorem nothingNew_view (h : Sourced s) (hstep : step s a = some s')
    (hnew : s.nothingNew a = true) :
    (∃ error, error ≠ s.view.healthError ∧
      s'.view = { s.view with healthError := error }.present s.config s.serving) ∨
    ∃ link, s'.view = { s.view with alarm := link } := by
  by_cases htick : ∃ now, a = .tick now
  · obtain ⟨now, rfl⟩ := htick
    have hview := (sourceHealth_tickRead s now).1
    rw [tickRead_view] at hview
    rw [step_tick hstep, hview]
    split
    · rename_i hposts
      rw [posts_tick, Bool.and_eq_true, bne_iff_ne] at hposts
      exact .inl ⟨_, hposts.2, rfl⟩
    · exact .inr ⟨s.view.alarm, rfl⟩
  · have hquiet : s.posts a = false := by
      cases a with
      | tick now => exact absurd ⟨now, rfl⟩ htick
      | commit i => exact Bool.noConfusion hnew
      | _ => simpa [State.nothingNew] using hnew
    cases step_viewStep h hstep with
    | kept hposts hlabel hkept => exact .inr ⟨s.view.alarm, hkept.view⟩
    | posted hposts v hposted => exact absurd (hquiet.symm.trans hposts) (by decide)
    | linked hposts link hview hsample hlink => exact .inr ⟨link, hview⟩

/-! ## The memory of the alarm -/

/-- The alarm that the rules give to the retained sample when the status served before is not
    one of a threshold. -/
def State.memorylessAlarm (s : State V Id) : AlarmState :=
  match ValueType.alarmValue (ValueType.forward s.config.transform s.view.lastRaw) with
  | some value => evaluateNumericAlarm s.config value epicsAlarmUDF
  | none => noAlarm

theorem present_alarm (v : View V) (config : PVConfig) (serving : Bool) :
    (v.present config serving).pv.alarm = v.alarmFor config
      (ValueType.forward config.transform v.lastRaw) v.pv.alarm.status := rfl

/-- A health error that is shown has overwritten the status. -/
theorem status_of_healthError (h : Truthful s) (herror : s.view.healthError ≠ "") :
    s.view.pv.alarm.status = epicsAlarmUDF := by
  obtain ⟨config, prior, halarm⟩ := h.shown
  rw [halarm, View.alarmFor, if_pos herror]
  rfl

/-- `u` holds the sample and the configuration of `s`. -/
structure SameSample (s u : State V Id) : Prop where
  config : u.config = s.config
  lastRaw : u.view.lastRaw = s.view.lastRaw

theorem sameSample_step {u u' : State V Id} (h : SameSample s u) (hsourced : Sourced u)
    (hstep : step u a = some u') (hnew : u.nothingNew a = true) :
    SameSample s u' := by
  have hcommit : ∀ i, a ≠ .commit i := by
    rintro i rfl
    cases hnew
  have hframe := step_frame (fun d hd => (hsourced.inFlight d hd).1) hstep
  refine ⟨(hframe.config hcommit).trans h.config, ?_⟩
  rcases nothingNew_view hsourced hstep hnew with ⟨error, -, hview⟩ | ⟨link, hview⟩
  · rw [hview]
    exact h.lastRaw
  · rw [hview]
    exact h.lastRaw

/-- After an outage: as soon as a valid sample is shown as healthy, its alarm is the
    memoryless one. -/
structure Forgotten (s u : State V Id) : Prop where
  sample : SameSample s u
  alarm : u.view.healthError = "" → u.view.sourceValid = true →
    u.view.pv.alarm = s.memorylessAlarm

theorem forgotten_step {u u' : State V Id} (h : Forgotten s u) (hsourced : Sourced u)
    (htruthful : Truthful u) (hstep : step u a = some u') (hnew : u.nothingNew a = true) :
    Forgotten s u' := by
  refine ⟨sameSample_step h.sample hsourced hstep hnew, ?_⟩
  rcases nothingNew_view hsourced hstep hnew with ⟨error, hchange, hview⟩ | ⟨link, hview⟩
  · rw [hview]
    -- the error that goes away has left its status behind
    rintro rfl hvalid
    have hprior := status_of_healthError htruthful (Ne.symm hchange)
    have hvalid : u.view.sourceValid = true := hvalid
    rw [present_alarm]
    dsimp only
    rw [hprior, h.sample.config, h.sample.lastRaw]
    simp only [View.alarmFor, hvalid, ne_eq, not_true_eq_false, if_false, Bool.not_true,
      Bool.false_eq_true]
    rfl
  · rw [hview]
    exact h.alarm

/-! ## Outages -/

/-- From `s` to `t` nothing new arrives, a tick finds the source in an outage, and the last
    tick finds it ready again. -/
inductive Outage (s : State V Id) : State V Id → Prop where
  | intro (before between : List (Label V Id)) (n₁ n₂ : Nat) (u v w t : State V Id)
      (hbefore : machine.exec s before = some u)
      (hbefore_new : machine.Guarded (fun x a => x.nothingNew a = true) s before)
      (hout : machine.step u (.tick n₁) = some v)
      (hunready : (u.assessRead n₁).1.state.isOutage = true)
      (hbetween : machine.exec v between = some w)
      (hbetween_new : machine.Guarded (fun x a => x.nothingNew a = true) v between)
      (hback : machine.step w (.tick n₂) = some t)
      (hready : (w.assessRead n₂).1.ready = true) : Outage s t

theorem assessRead_inactive (hserving : s.serving = false) (n : Nat) :
    (s.assessRead n).1.state = .inactive ∧ (s.assessRead n).1.ready = false := by
  simp [State.assessRead, State.assess, assessSource, sourceState, hserving]

/-- A tick that finds an outage shows its error. -/
theorem outage_shown {n : Nat} (h : Truthful s) (hstep : machine.step s (.tick n) = some s')
    (hunready : (s.assessRead n).1.state.isOutage = true) : s'.view.healthError ≠ "" := by
  obtain rfl := step_tick hstep
  have hserving : s.serving = true := by
    by_contra hnot
    rw [(assessRead_inactive (by simpa using hnot) n).1] at hunready
    cases hunready
  rw [(tick_view s n).1 hserving]
  refine sourceState_outage ?_ rfl hunready
  cases hvalid : (s.sample .read).valid with
  | true => exact .inl rfl
  | false => exact .inr (h.agree.error hvalid)

/-- A tick that finds the source ready shows no error, and the sample is valid. -/
theorem ready_shown {n : Nat} (h : Truthful s) (hstep : machine.step s (.tick n) = some s')
    (hready : (s.assessRead n).1.ready = true) :
    s'.view.healthError = "" ∧ s'.view.sourceValid = true := by
  obtain rfl := step_tick hstep
  have hat := assessSource_ready hready
  have hserving : s.serving = true := by
    by_contra hnot
    exact absurd hready (by simp [assessRead_inactive (by simpa using hnot) n])
  obtain ⟨hhealth, hsource, -⟩ := tick_view s n
  have hsample : (s.sample .read).valid = true ∨ (s.sample .read).error ≠ "" := .inl hat.valid
  have herror : (s.assessRead n).1.error = "" := by
    unfold State.assessRead State.assess at hready ⊢
    rw [hserving] at hready ⊢
    exact (assessSource_error hat.active hsample).mpr hready
  exact ⟨(hhealth hserving).trans herror, hsource.trans (h.agree.valid hat.valid)⟩

/-- **What is served after an outage** is the memoryless alarm of the retained sample. -/
theorem recovered_alarm {t : State V Id} (hs : machine.Reachable s) (h : Outage s t) :
    t.view.pv.alarm = s.memorylessAlarm := by
  obtain ⟨before, between, n₁, n₂, u, v, w, t, hbefore, hbefore_new, hout, hunready, hbetween,
    hbetween_new, hback, hready⟩ := h
  have hu : machine.Reachable u ∧ SameSample s u := by
    refine machine.exec_guarded_invariant (P := fun x => machine.Reachable x ∧ SameSample s x) ?_
      ⟨hs, rfl, rfl⟩ hbefore_new hbefore
    rintro x a x' ⟨hx, hsame⟩ hnew hstep
    exact ⟨hx.step hstep, sameSample_step hsame (sourced_reachable hx) hstep hnew⟩
  have hv : machine.Reachable v ∧ Forgotten s v := by
    refine ⟨hu.1.step hout, sameSample_step (a := .tick n₁) hu.2 (sourced_reachable hu.1) hout rfl, ?_⟩
    intro hhealthy
    exact absurd hhealthy (outage_shown (truthful_reachable hu.1) hout hunready)
  have hw : machine.Reachable w ∧ Forgotten s w := by
    refine machine.exec_guarded_invariant (P := fun x => machine.Reachable x ∧ Forgotten s x) ?_
      hv hbetween_new hbetween
    rintro x a x' ⟨hx, hforgotten⟩ hnew hstep
    exact ⟨hx.step hstep, forgotten_step hforgotten (sourced_reachable hx)
      (truthful_reachable hx) hstep hnew⟩
  have ht := forgotten_step (a := .tick n₂) hw.2 (sourced_reachable hw.1)
    (truthful_reachable hw.1) hback rfl
  obtain ⟨hhealthy, hvalid⟩ := ready_shown (truthful_reachable hw.1) hback hready
  exact ht.alarm hhealthy hvalid

/-- **When an outage leaves the alarm alone**: severity and status after it are those from
    before exactly when the rules give them to the retained sample without a memory. -/
theorem alarm_survives_outage_iff {t : State V Id} (hs : machine.Reachable s)
    (h : Outage s t) :
    (t.view.pv.alarm.severity = s.view.pv.alarm.severity ∧
        t.view.pv.alarm.status = s.view.pv.alarm.status) ↔
      (s.memorylessAlarm.severity = s.view.pv.alarm.severity ∧
        s.memorylessAlarm.status = s.view.pv.alarm.status) := by
  rw [recovered_alarm hs h]

/-- A number with a high alarm at 10 that is kept down to 8. -/
def bandedStartup : Startup Binary64 Nat where
  fullName := "NS:PV"
  config := { name := "PV", read := { backend := "default", key := "k" }
              alarms := { highAlarm := some 10, hysteresis := 2 } }
  generation := 1
  maxPayloadBytes := 64
  readProbeMs := 0
  confirmProbeMs := 0
  fallback := Floating.finite 0
  publisher := none
  snapshot := none
  confirmation := none
  readStatus := { active := true, connected := true, streamKind := .stream }
  confirmStatus := {}
  now := 1
  now_pos := Nat.one_pos

/-- The number rises to 11 and goes on to `x`; a tick finds the source ready. -/
def risen (x : Rat) : List (Label Binary64 Nat) :=
  [.activate,
   .read .read [{ id := 1, payload := some (Floating.finite 11), time := some 5 },
                { id := 2, payload := some (Floating.finite x), time := some 6 }],
   .deliver 0 10, .deliver 0 10, .tick 11]

/-- The reader loses its connection, a tick reports it, the connection is back. -/
def lostConnection : List (Label Binary64 Nat) :=
  [.reader .read (.connected false)] ++
    ([.tick 12, .reader .read (.connected true)] ++ [.tick 13])

/-- That a state is hit by this outage can be computed. -/
theorem outage_of_lostConnection {s : State Binary64 Nat}
    (h : (machine.exec s [.reader .read (.connected false)]).any (fun u =>
        (u.assessRead 12).1.state.isOutage && (machine.exec u [.tick 12,
          .reader .read (.connected true)]).any fun w =>
            (w.assessRead 13).1.ready && (machine.step w (.tick 13)).isSome) = true) :
    ∃ t, Outage s t ∧ machine.exec s lostConnection = some t := by
  simp only [Option.any_eq_true, Bool.and_eq_true] at h
  obtain ⟨u, hu, hout, w, hw, hready, hlast⟩ := h
  obtain ⟨t, ht⟩ := Option.isSome_iff_exists.mp hlast
  obtain ⟨v, hv, hrest⟩ := machine.exec_cons_iff.mp hw
  refine ⟨t, .intro _ _ 12 13 u v w t hu ⟨rfl, fun _ _ => trivial⟩ hv hout hrest
    ⟨rfl, fun _ _ => trivial⟩ ht hready, ?_⟩
  exact machine.exec_append hu (machine.exec_append hw (machine.exec_cons_iff.mpr ⟨t, ht, rfl⟩))

/-- What a run of this outage shows: severity and status before and after it, and the ones
    that need no memory. -/
structure AroundOutage where
  ready : Bool
  hit : Bool
  before : Int × Int
  after : Option (Int × Int)
  memoryless : Int × Int
  deriving DecidableEq

def State.aroundOutage (s : State Binary64 Nat) : AroundOutage where
  ready := (s.assessRead 11).1.ready
  hit := (machine.exec s [.reader .read (.connected false)]).any fun u =>
    (u.assessRead 12).1.state.isOutage && (machine.exec u [.tick 12,
      .reader .read (.connected true)]).any fun w =>
        (w.assessRead 13).1.ready && (machine.step w (.tick 13)).isSome
  before := (s.view.pv.alarm.severity, s.view.pv.alarm.status)
  after := (machine.exec s lostConnection).map fun t =>
    (t.view.pv.alarm.severity, t.view.pv.alarm.status)
  memoryless := (s.memorylessAlarm.severity, s.memorylessAlarm.status)

/-- **The alarm is gone after an outage**: the number 9 is in the band of the high alarm, which
    is major before the connection is lost; the same sample has no alarm after it. -/
theorem alarm_lost_in_outage :
    ∃ s t : State Binary64 Nat, machine.Reachable s ∧ (s.assessRead 11).1.ready = true ∧
      Outage s t ∧
      s.view.pv.alarm.severity = epicsSevMajor ∧ s.view.pv.alarm.status = epicsAlarmHiHi ∧
      t.view.pv.alarm.severity = epicsSevNone ∧ t.view.pv.alarm.status = epicsAlarmNone := by
  have hrun : (machine.exec (initializeRuntime bandedStartup) (risen 9)).map State.aroundOutage =
      some { ready := true, hit := true, before := (epicsSevMajor, epicsAlarmHiHi)
             after := some (epicsSevNone, epicsAlarmNone)
             memoryless := (epicsSevNone, epicsAlarmNone) } := by
    decide +kernel
  obtain ⟨s, hs, hfacts⟩ := Option.map_eq_some_iff.mp hrun
  simp only [State.aroundOutage, AroundOutage.mk.injEq, Prod.mk.injEq] at hfacts
  obtain ⟨hready, hhit, ⟨hseverity, hstatus⟩, hafter, -⟩ := hfacts
  obtain ⟨t, hout, ht⟩ := outage_of_lostConnection hhit
  rw [ht, Option.map_some, Option.some.injEq, Prod.mk.injEq] at hafter
  exact ⟨s, t, ⟨_, _, ⟨bandedStartup, rfl⟩, hs⟩, hready, hout, hseverity, hstatus, hafter⟩

/-- The alarm of the number 12 survives: it does not need its memory. -/
theorem alarm_survives_outage_high :
    ∃ s t : State Binary64 Nat, machine.Reachable s ∧ Outage s t ∧
      s.view.pv.alarm.severity = epicsSevMajor ∧
      t.view.pv.alarm.severity = s.view.pv.alarm.severity ∧
      t.view.pv.alarm.status = s.view.pv.alarm.status := by
  have hrun : (machine.exec (initializeRuntime bandedStartup) (risen 12)).map State.aroundOutage =
      some { ready := true, hit := true, before := (epicsSevMajor, epicsAlarmHiHi)
             after := some (epicsSevMajor, epicsAlarmHiHi)
             memoryless := (epicsSevMajor, epicsAlarmHiHi) } := by
    decide +kernel
  obtain ⟨s, hs, hfacts⟩ := Option.map_eq_some_iff.mp hrun
  simp only [State.aroundOutage, AroundOutage.mk.injEq, Prod.mk.injEq] at hfacts
  obtain ⟨-, hhit, ⟨hseverity, hstatus⟩, -, hmemoryless⟩ := hfacts
  obtain ⟨t, hout, -⟩ := outage_of_lostConnection hhit
  have hr : machine.Reachable s := ⟨_, _, ⟨bandedStartup, rfl⟩, hs⟩
  refine ⟨s, t, hr, hout, hseverity, (alarm_survives_outage_iff hr hout).mpr ⟨?_, ?_⟩⟩
  · rw [hmemoryless.1, hseverity]
  · rw [hmemoryless.2, hstatus]

end Typed

end RedisPvxsIoc.Runtime
