import RedisPvxsIoc.Runtime.Presentation

/-!
# The Served Alarm Tells the Truth

A health tick posts only when the error it computed differs from the one that is shown, and
the shown error is also set, cleared or left alone by samples, malformed entries and write
echoes.  Between ticks the served alarm is therefore a function of what the runtime
remembers (`Typed.View.Shown`, `NDArray.Shown`); a tick brings that memory up to date.

An image runtime does not show the error of a reader that went away and came back, so its
runs are those whose ticks found the reader active.

## Main results

- `Typed.truthful_reachable`, `NDArray.shown_exec`
- `served_alarm_truthful`
- `Typed.sample_presented`
-/

namespace RedisPvxsIoc.Runtime

open Config Foundations
open Alarm (AlarmState)

set_option linter.unusedSectionVars false

/-! ## The error text of an assessment -/

/-- While the reader is active, the empty error text means that the route is ready, unless an
    invalid sample has no text of its own. -/
theorem sourceState_error {Id : Type} {sample : SourceSampleState Id} {reader : ReaderStatus}
    {valid : Bool} (stale : Bool) (hreader : reader.active = true)
    (hsample : sample.valid = true ∨ sample.error ≠ "")
    (hvalid : valid = (sample.valid && sample.epoch == reader.epoch)) :
    (sourceState sample reader true valid stale).2 = "" ↔
      (sourceState sample reader true valid stale).1 = .ready := by
  unfold sourceState
  rw [hreader]
  simp only [Bool.not_true, Bool.or_self, Bool.false_eq_true, if_false]
  split
  · simp
  split
  · simp
  split
  · simp
  split
  · simp
  split
  · -- an entry of this epoch was rejected: its own text is shown
    rename_i hinvalid
    have hnot : sample.valid = false := by simpa using (Bool.and_eq_true_iff.mp hinvalid).1
    simp [hsample.resolve_left (by simp [hnot])]
  split
  · simp
  rename_i hepoch
  split
  · rename_i hnot
    have hnot : sample.valid = false := by
      simpa [hvalid, not_not.mp hepoch] using hnot
    simp [hsample.resolve_left (by simp [hnot])]
  split <;> simp

variable {now : Nat}

theorem assessSource_error {Id : Type} {sample : SourceSampleState Id} {reader : ReaderStatus}
    {config : PVConfig} {name : String} {route : RouteConfig} {role : Role} {probeMs : Nat}
    (hreader : reader.active = true) (hsample : sample.valid = true ∨ sample.error ≠ "") :
    (assessSource sample reader config name route role true probeMs now).1.error = "" ↔
      (assessSource sample reader config name route role true probeMs now).1.ready = true := by
  have h := sourceState_error (sample.valid && sample.epoch == reader.epoch &&
    config.sourceHealth.staleAfterMs ≠ 0 &&
      decide ((config.sourceHealth.staleAfterMs : Int) ≤ lastValidAgeMs sample now))
    hreader hsample rfl
  simpa [assessSource] using h

/-! ## The severity of an alarm -/

theorem evaluateRules_severity (alarms : AlarmConfig) (value : Rat) (prior : Int) :
    (evaluateRules alarms value prior).severity ≠ epicsSevInvalid := by
  unfold evaluateRules
  dsimp only
  repeat' split
  all_goals decide

theorem evaluateNumericAlarm_severity (config : PVConfig) (value : Floating) (prior : Int) :
    (evaluateNumericAlarm config value prior).severity = epicsSevInvalid ↔
      value.isFinite = false := by
  cases value with
  | finite q =>
    have hrules := evaluateRules_severity config.alarms q prior
    unfold evaluateNumericAlarm
    dsimp only
    split
    · simp [hrules, Floating.isFinite]
    · simp [noAlarm, epicsSevNone, epicsSevInvalid, Floating.isFinite]
  | posInf | negInf | nan => exact ⟨fun _ => rfl, fun _ => rfl⟩

namespace Typed

variable {V Id : Type} [ValueType V] [LinearOrder Id] {s s' : State V Id}

/-- What makes a served value INVALID: the health of its source, the sample itself, or a
    number that is not finite. -/
theorem alarmFor_severity (v : View V) (config : PVConfig) (payload : V) (prior : Int) :
    (v.alarmFor config payload prior).severity = epicsSevInvalid ↔
      v.healthError ≠ "" ∨ v.sourceValid = false ∨
        ∃ x, ValueType.alarmValue payload = some x ∧ x.isFinite = false := by
  unfold View.alarmFor
  split
  · rename_i herror
    exact ⟨fun _ => .inl herror, fun _ => rfl⟩
  rename_i hhealthy
  split
  · rename_i hinvalid
    exact ⟨fun _ => .inr (.inl (by simpa using hinvalid)), fun _ => rfl⟩
  rename_i hvalid
  have hvalid : v.sourceValid = true := by simpa using hvalid
  cases hvalue : ValueType.alarmValue payload with
  | none => simpa [hvalid, hhealthy] using (by decide : noAlarm.severity ≠ epicsSevInvalid)
  | some x => simp [hvalid, hhealthy, evaluateNumericAlarm_severity]

theorem alarmFor_none (v : View V) (config : PVConfig) {payload : V} (prior : Int)
    (hvalue : ValueType.alarmValue payload = none)
    (hsevere : (v.alarmFor config payload prior).severity ≠ epicsSevInvalid) :
    (v.alarmFor config payload prior).severity = epicsSevNone := by
  have hclear := mt (alarmFor_severity v config payload prior).mpr hsevere
  push Not at hclear
  obtain ⟨hhealth, hvalid, -⟩ := hclear
  simp [View.alarmFor, hhealth, hvalid, hvalue, noAlarm]

/-! ## The invariant of a typed runtime -/

/-- The served alarm is the one of the remembered health and validity, under the
    configuration of the last post. -/
def View.Shown (v : View V) : Prop :=
  ∃ config prior, v.pv.alarm = v.alarmFor config v.pv.payload prior

structure Truthful (s : State V Id) : Prop where
  shown : s.view.Shown
  agree : Agree (s.sample .read) s.view.sourceValid

theorem present_shown (v : View V) (config : PVConfig) (serving : Bool) :
    (v.present config serving).Shown :=
  ⟨config, v.pv.alarm.status, rfl⟩

theorem truthful_viewStep {a : Label V Id} (h : Truthful s) (hstep : ViewStep s a s') :
    Truthful s' := by
  cases hstep with
  | kept hposts hlabel hk => exact ⟨hk.view ▸ h.shown, hk.view ▸ h.agree.congr hk.valid hk.error⟩
  | posted hposts v hp =>
    refine ⟨hp.view ▸ present_shown v _ _, ?_⟩
    rw [hp.view]
    exact hp.agree h.agree
  | linked hposts link hview hsample hl =>
    -- the registration is no part of what is shown
    refine ⟨?_, ?_⟩
    · rw [hview]
      exact h.shown
    · rw [hview, hsample]
      exact h.agree

theorem truthful_start (u : Startup V Id) : Truthful (initializeRuntime u) := by
  refine ⟨⟨u.config, epicsAlarmNone, rfl⟩, ?_⟩
  show Agree (startSample .read u.snapshot "Invalid Redis snapshot" u.now).1
    (startValue u.fallback u.snapshot).2.2.1
  unfold startSample startValue
  cases u.snapshot with
  | none => exact .of_invalid rfl (show "No valid source data" ≠ "" by decide)
  | some entry =>
    have hreason : "Invalid Redis snapshot" ≠ "" := by decide
    dsimp only
    cases entry.payload with
    | none => exact .of_invalid rfl hreason
    | some raw =>
      cases entry.time with
      | none => exact .of_invalid rfl hreason
      | some timestamp => exact .of_valid rfl

theorem truthful_reachable (h : machine.Reachable s) : Truthful s := by
  refine Machine.Reachable.invariant_with (fun _ hr => sourced_reachable hr) ?_ ?_ h
  · rintro s ⟨u, rfl⟩
    exact truthful_start u
  · intro s a s' hsourced _ htruthful hstep
    exact truthful_viewStep htruthful (step_viewStep hsourced hstep)

/-! ## Ticks of a typed runtime -/

/-- A tick of a serving runtime leaves the error it found as the one that is shown, and the
    retained sample alone. -/
theorem tick_view (s : State V Id) (now : Nat) :
    (s.serving = true → (s.sourceHealth now).1.view.healthError = (s.assessRead now).1.error) ∧
      (s.sourceHealth now).1.view.sourceValid = s.view.sourceValid ∧
      (s.sourceHealth now).1.view.lastRaw = s.view.lastRaw ∧
      (s.sourceHealth now).1.view.lastTimestampNs = s.view.lastTimestampNs := by
  rw [(sourceHealth_tickRead s now).1, tickRead_view]
  split
  · exact ⟨fun _ => rfl, rfl, rfl, rfl⟩
  · rename_i hquiet
    refine ⟨fun hserving => ?_, rfl, rfl, rfl⟩
    rw [posts_tick, hserving, Bool.true_and, bne_iff_ne, ne_eq, not_not] at hquiet
    exact hquiet.symm

theorem step_tick (h : step s (.tick now) = some s') : s' = (s.sourceHealth now).1 := by
  simp only [step] at h
  split at h <;> cases h
  rfl

/-- The served alarm and the retained sample around a tick in one state. -/
structure AlarmTruthful (s : State V Id) : Prop where
  tick : ∀ now r s', s.alive = true → s.committed = true → s.reader .read = some r →
    r.status.active = true → step s (.tick now) = some s' →
    ∃ status rest, (s.sourceHealth now).2 = status :: rest ∧ status.role ≠ .confirm ∧
      (s'.view.pv.alarm.severity = epicsSevInvalid ↔ status.ready = false ∨
        ∃ x, ValueType.alarmValue s'.view.pv.payload = some x ∧ x.isFinite = false) ∧
      (ValueType.alarmValue s'.view.pv.payload = none →
        s'.view.pv.alarm.severity ≠ epicsSevInvalid → s'.view.pv.alarm.severity = epicsSevNone)
  retained : ∀ now s', step s (.tick now) = some s' →
    s'.view.lastRaw = s.view.lastRaw ∧ s'.view.lastTimestampNs = s.view.lastTimestampNs

theorem tick_truthful (h : Truthful s) {r : Reader} (hserving : s.serving = true)
    (hr : s.reader .read = some r) (hactive : r.status.active = true)
    (h' : Truthful (s.sourceHealth now).1) :
    (s.sourceHealth now).1.view.pv.alarm.severity = epicsSevInvalid ↔
      (s.assessRead now).1.ready = false ∨
        ∃ x, ValueType.alarmValue (s.sourceHealth now).1.view.pv.payload = some x ∧
          x.isFinite = false := by
  obtain ⟨hhealth, hsource, -⟩ := tick_view s now
  obtain ⟨config, prior, halarm⟩ := h'.shown
  have hstatus : handleStatus (s.reader .read) = r.status := by rw [hr]; rfl
  -- no error text means ready, and ready means that the sample is valid
  have hready : (s.assessRead now).1.error = "" ↔ (s.assessRead now).1.ready = true := by
    unfold State.assessRead State.assess
    rw [hserving, hstatus]
    apply assessSource_error hactive
    cases hvalid : (s.sample .read).valid with
    | true => exact .inl rfl
    | false => exact .inr (h.agree.error hvalid)
  have hvalid : (s.assessRead now).1.ready = true → s.view.sourceValid = true := fun hr =>
    h.agree.valid (assessSource_ready hr).valid
  rw [halarm, alarmFor_severity, hhealth hserving, hsource]
  cases hcase : (s.assessRead now).1.ready with
  | false =>
    have herror : (s.assessRead now).1.error ≠ "" := by
      rw [ne_eq, hready, hcase]
      decide
    simp [herror]
  | true => simp [hready.mpr hcase, hvalid hcase]

theorem alarmTruthful (h : machine.Reachable s) : AlarmTruthful s where
  tick := by
    intro now r s' halive hcommitted hr hactive hstep
    have h' := truthful_reachable (h.step (a := .tick now) hstep)
    obtain rfl := step_tick hstep
    obtain ⟨rest, hstatuses⟩ := (sourceHealth_tickRead s now).2.2
    refine ⟨(s.assessRead now).1, rest, hstatuses, ?_, ?_, ?_⟩
    · show State.readRole s.config ≠ .confirm
      unfold State.readRole
      split <;> decide
    · exact tick_truthful (truthful_reachable h) (by simp [State.serving, halive, hcommitted])
        hr hactive h'
    · obtain ⟨config, prior, halarm⟩ := h'.shown
      intro hvalue
      rw [halarm]
      exact alarmFor_none _ config prior hvalue
  retained := by
    intro now s' hstep
    obtain rfl := step_tick hstep
    exact (tick_view s now).2.2

/-- The retained sample is served, under the configuration in force. -/
def Presents (s : State V Id) : Prop :=
  ∃ prior, s.view.pv = s.view.populateValue s.config prior

/-- **Clients see the retained sample**: from the start of a runtime, and from the refresh that
    follows a reload, until the next commit. -/
theorem sample_presented :
    (∀ u : Startup V Id, Presents (initializeRuntime u)) ∧
    (∀ s s' : State V Id, s.alive = true → step s .refresh = some s' → Presents s') ∧
    ∀ (s t : State V Id) as, machine.Reachable s → Presents s →
      machine.Guarded (fun _ a => ∀ i, a ≠ .commit i) s as → machine.exec s as = some t →
      Presents t := by
  refine ⟨fun u => ⟨epicsAlarmNone, rfl⟩, fun s s' halive h => ?_, fun s t as hs hp hno hrun => ?_⟩
  · cases step_cases h with
    | refreshed => exact ⟨_, rfl⟩
    | ignored hdead => cases hdead.symm.trans halive
  · refine (machine.exec_guarded_invariant (P := fun t => machine.Reachable t ∧ Presents t) ?_
      ⟨hs, hp⟩ hno hrun).2
    rintro u a u' ⟨hu, prior, hprior⟩ hok hstep
    have hsourced := sourced_reachable hu
    have hconfig := (step_frame (fun d hd => (hsourced.inFlight d hd).1) hstep).config hok
    refine ⟨hu.step hstep, ?_⟩
    unfold Presents
    rw [hconfig]
    cases step_viewStep hsourced hstep with
    | kept _ _ hkept => exact ⟨prior, by rw [hkept.view, hprior]⟩
    | posted _ v hposted => exact ⟨_, by rw [hposted.view]; rfl⟩
    | linked _ _ hview => exact ⟨prior, by rw [hview, hprior]; rfl⟩

end Typed

/-! ## The invariant of an image runtime -/

namespace NDArray

variable {P Id : Type} {s s' : State P Id}

/-- A good frame is served with the alarm of the remembered error, anything else as INVALID. -/
structure Shown (s : State P Id) : Prop where
  valid : s.sample.valid = true → s.pv.alarm = State.frameAlarm s.healthError
  invalid : s.sample.valid = false → s.pv.alarm.severity = epicsSevInvalid

theorem Shown.of_eq (h : Shown s) (hvalid : s'.sample.valid = s.sample.valid)
    (hpv : s'.pv = s.pv) (hhealth : s'.healthError = s.healthError) : Shown s' where
  valid := by
    rw [hvalid, hpv, hhealth]
    exact h.valid
  invalid := by
    rw [hvalid, hpv]
    exact h.invalid

theorem frameAlarm_severity (error : String) :
    (State.frameAlarm error).severity = epicsSevInvalid ↔ error ≠ "" := by
  unfold State.frameAlarm
  split
  · rename_i hempty
    simp [hempty, noAlarm, epicsSevNone, epicsSevInvalid]
  · rename_i herror
    exact ⟨fun _ => herror, fun _ => rfl⟩

theorem frameAlarm_none {error : String}
    (h : (State.frameAlarm error).severity ≠ epicsSevInvalid) :
    (State.frameAlarm error).severity = epicsSevNone := by
  have hempty : error = "" := by simpa [frameAlarm_severity] using h
  rw [hempty]
  rfl

theorem shown_handleEntry (h : Shown s) (d : Delivery P Id) (entry : StreamEntry P Id)
    (now : Nat) : Shown (s.handleEntry d entry now).1 := by
  unfold State.handleEntry
  split
  · exact h
  split
  · exact h.of_eq rfl rfl rfl
  split
  · exact ⟨fun _ => rfl, fun hvalid => Bool.noConfusion hvalid⟩
  · exact ⟨fun hvalid => Bool.noConfusion hvalid, fun _ => rfl⟩

theorem shown_deliver (h : Shown s) {i : Nat} (hstep : s.deliver i now = some s') :
    Shown s' := by
  obtain ⟨d, -, -, hcases⟩ := deliver_cases hstep
  rcases hcases with rfl | ⟨entry, rest, rfl⟩
  · exact h.of_eq rfl rfl rfl
  · exact (shown_handleEntry h d entry now).of_eq rfl rfl rfl

/-- The read route of a runtime as a tick assesses it. -/
def State.assessRead (s : State P Id) (now : Nat) : SourceStatus Id × SourceSampleState Id :=
  assessSource s.sample (handleStatus s.reader) s.config s.fullName s.config.read .read s.serving
    s.probeMs now

theorem sourceHealth_status (s : State P Id) (now : Nat) :
    (s.sourceHealth now).2 = (s.assessRead now).1 := by
  unfold State.sourceHealth
  dsimp only
  split <;> rfl

/-- A tick posts when it found another error than the remembered one. -/
def State.ticks (s : State P Id) (now : Nat) : Bool :=
  s.serving && (s.assessRead now).1.error != s.healthError

/-- The alarm that a tick posts. -/
def State.tickAlarm (s : State P Id) (now : Nat) : AlarmState :=
  if (s.assessRead now).1.ready then noAlarm else invalidAlarm (s.assessRead now).1.error

theorem sourceHealth_state (s : State P Id) (now : Nat) :
    (s.sourceHealth now).1 = if s.ticks now then
      State.publishAlarm { s with
        sample := (s.assessRead now).2
        healthError := (s.assessRead now).1.error
        currentAlarm := s.tickAlarm now
        pv := { s.pv with alarm := s.tickAlarm now } }
    else { s with sample := (s.assessRead now).2 } := by
  have hticks : s.ticks now = (s.serving && decide ((s.assessRead now).1.error ≠ s.healthError)) := by
    unfold State.ticks
    congr 1
    by_cases herror : (s.assessRead now).1.error = s.healthError <;> simp [herror]
  rw [hticks]
  unfold State.sourceHealth
  dsimp only
  split
  · rename_i hposts
    rw [if_pos (show (s.serving && decide ((s.assessRead now).1.error ≠ s.healthError)) = true
      from hposts)]
    rfl
  · rename_i hquiet
    rw [if_neg (show ¬(s.serving && decide ((s.assessRead now).1.error ≠ s.healthError)) = true
      from hquiet)]
    rfl

/-- What a tick of a serving runtime serves: unchanged if the error is the remembered one. -/
theorem sourceHealth_pv (hserving : s.serving = true) (now : Nat) :
    (s.sourceHealth now).1.healthError = (s.assessRead now).1.error ∧
      (s.sourceHealth now).1.pv.alarm =
        if (s.assessRead now).1.error ≠ s.healthError then s.tickAlarm now else s.pv.alarm := by
  have hticks : s.ticks now = true ↔ (s.assessRead now).1.error ≠ s.healthError := by
    simp [State.ticks, hserving]
  rw [sourceHealth_state]
  by_cases herror : (s.assessRead now).1.error ≠ s.healthError
  · rw [if_pos (hticks.mpr herror), if_pos herror]
    exact ⟨rfl, rfl⟩
  · rw [if_neg (mt hticks.mp herror), if_neg herror]
    exact ⟨(not_not.mp herror).symm, rfl⟩

theorem sourceHealth_kept (s : State P Id) (now : Nat) :
    (s.sourceHealth now).1.sample.valid = s.sample.valid ∧
      (s.sourceHealth now).1.pv.frame = s.pv.frame ∧
      (s.serving = false → (s.sourceHealth now).1.pv = s.pv ∧
        (s.sourceHealth now).1.healthError = s.healthError) := by
  rw [sourceHealth_state]
  split
  · rename_i hposts
    refine ⟨rfl, rfl, fun hidle => ?_⟩
    rw [State.ticks, hidle] at hposts
    cases hposts
  · exact ⟨rfl, rfl, fun _ => ⟨rfl, rfl⟩⟩

/-- The reader handle of the runtime is active; an empty handle is not. -/
def State.readerActive (s : State P Id) : Bool := (handleStatus s.reader).active

/-- While the reader is active, a tick leaves the alarm of its own finding. -/
theorem tick_alarm (h : Shown s) (now : Nat) (hserving : s.serving = true)
    (hactive : s.readerActive = true) :
    ((s.sourceHealth now).1.pv.alarm.severity = epicsSevInvalid ↔
        (s.assessRead now).1.ready = false) ∧ Shown (s.sourceHealth now).1 := by
  obtain ⟨hhealth, halarm⟩ := sourceHealth_pv hserving now
  obtain ⟨hvalid, -, -⟩ := sourceHealth_kept s now
  have hready : s.sample.valid = true →
      ((s.assessRead now).1.error = "" ↔ (s.assessRead now).1.ready = true) := by
    intro hv
    unfold State.assessRead
    rw [hserving]
    exact assessSource_error hactive (.inl hv)
  have hsound : (s.assessRead now).1.ready = true → s.sample.valid = true := fun hr =>
    (assessSource_ready hr).valid
  -- the alarm is the one of the error, whether or not it is posted again
  have hframe : s.sample.valid = true →
      (s.sourceHealth now).1.pv.alarm = State.frameAlarm (s.assessRead now).1.error := by
    intro hv
    rw [halarm]
    split
    · unfold State.frameAlarm State.tickAlarm
      simp only [hready hv]
    · rename_i hsame
      rw [h.valid hv, not_not.mp hsame]
  have hinvalid : s.sample.valid = false →
      (s.sourceHealth now).1.pv.alarm.severity = epicsSevInvalid := by
    intro hv
    rw [halarm]
    split
    · unfold State.tickAlarm
      rw [if_neg (fun hr => Bool.noConfusion ((hsound hr).symm.trans hv))]
      rfl
    · exact h.invalid hv
  refine ⟨?_, ⟨?_, ?_⟩⟩
  · cases hv : s.sample.valid with
    | true =>
      rw [hframe hv, frameAlarm_severity, ne_eq, hready hv, Bool.not_eq_true]
    | false =>
      have hnot : (s.assessRead now).1.ready = false := by
        rw [← Bool.not_eq_true]
        exact fun hr => Bool.noConfusion ((hsound hr).symm.trans hv)
      exact ⟨fun _ => hnot, fun _ => hinvalid hv⟩
  · rw [hvalid, hhealth]
    exact hframe
  · rw [hvalid]
    exact hinvalid

/-- If the label is a tick of a serving runtime, then the reader is active. -/
def State.ticksActive (s : State P Id) : Label P Id → Bool
  | .tick _ => !s.serving || s.readerActive
  | _ => true

theorem shown_start (u : Startup P Id) : Shown (initializeRuntime u) := by
  unfold initializeRuntime
  dsimp only
  split
  · exact ⟨fun hvalid => Bool.noConfusion hvalid, fun _ => rfl⟩
  · split
    · exact ⟨fun _ => rfl, fun hvalid => Bool.noConfusion hvalid⟩
    · exact ⟨fun hvalid => Bool.noConfusion hvalid, fun _ => rfl⟩

theorem shown_step (h : Shown s) {a : Label P Id} (hok : s.ticksActive a = true)
    (hstep : step s a = some s') : Shown s' := by
  cases a with
  | prepare config generation publisher =>
    simp only [step, State.prepareReconfigure] at hstep
    split at hstep <;> cases hstep
    exact h.of_eq rfl rfl rfl
  | commit i =>
    obtain ⟨update, -, rfl⟩ := Option.map_eq_some_iff.mp hstep
    exact h.of_eq rfl rfl rfl
  | refresh =>
    cases hstep
    unfold State.refresh
    split <;> exact h.of_eq rfl rfl rfl
  | activate =>
    cases hstep
    unfold State.activate
    split <;> exact h.of_eq rfl rfl rfl
  | deactivate =>
    cases hstep
    unfold State.deactivate
    split <;> exact h.of_eq rfl rfl rfl
  | reader event =>
    obtain ⟨r, -, rfl⟩ := Option.map_eq_some_iff.mp hstep
    exact h.of_eq rfl rfl rfl
  | read entries =>
    obtain ⟨r, -, rfl⟩ := Option.map_eq_some_iff.mp hstep
    exact h.of_eq rfl rfl rfl
  | deliver i now => exact shown_deliver h hstep
  | tick now =>
    cases hstep
    cases hserving : s.serving with
    | true =>
      have hactive : s.readerActive = true := by simpa [State.ticksActive, hserving] using hok
      exact (tick_alarm h now hserving hactive).2
    | false =>
      obtain ⟨hvalid, -, hidle⟩ := sourceHealth_kept s now
      exact h.of_eq hvalid (hidle hserving).1 (hidle hserving).2

/-- The invariant holds along every run whose ticks found the reader active. -/
theorem shown_exec (u : Startup P Id) {as : List (Label P Id)}
    (hok : machine.Guarded (fun s a => s.ticksActive a = true) (initializeRuntime u) as)
    (hrun : machine.exec (initializeRuntime u) as = some s) : Shown s :=
  machine.exec_guarded_invariant (fun _ _ _ h hok hstep => shown_step h hok hstep)
    (shown_start u) hok hrun

/-- The served alarm and the retained frame around a tick in one state. -/
structure AlarmTruthful (s : State P Id) : Prop where
  tick : ∀ now s', s.alive = true → s.committed = true → s.readerActive = true →
    step s (.tick now) = some s' →
    (s'.pv.alarm.severity = epicsSevInvalid ↔ (s.sourceHealth now).2.ready = false) ∧
      (s'.pv.alarm.severity ≠ epicsSevInvalid → s'.pv.alarm.severity = epicsSevNone)
  retained : ∀ now s', step s (.tick now) = some s' → s'.pv.frame = s.pv.frame

theorem alarmTruthful (h : Shown s) : AlarmTruthful s where
  tick := by
    intro now s' halive hcommitted hactive hstep
    cases hstep
    have hserving : s.serving = true := by simp [State.serving, halive, hcommitted]
    obtain ⟨hiff, h'⟩ := tick_alarm h now hserving hactive
    refine ⟨by rw [hiff, sourceHealth_status], fun hsevere => ?_⟩
    have hvalid : (s.sourceHealth now).1.sample.valid = true := by
      rw [← Bool.not_eq_false]
      exact fun hv => hsevere (h'.invalid hv)
    rw [h'.valid hvalid] at hsevere ⊢
    exact frameAlarm_none hsevere
  retained := by
    intro now s' hstep
    cases hstep
    exact (sourceHealth_kept s now).2.1

end NDArray

/-- **The served alarm tells the truth about source readiness**: after a tick of a runtime that
    serves through an active reader, INVALID is what is shown exactly when the tick found the
    read source not ready (or the number it shows is not finite), everything else without
    numeric rules is shown without an alarm, and ticks retain the sample. -/
theorem served_alarm_truthful {V P Id : Type} [ValueType V] [LinearOrder Id] :
    (∀ s : Typed.State V Id, Typed.machine.Reachable s → Typed.AlarmTruthful s) ∧
      (∀ (u : NDArray.Startup P Id) (as : List (NDArray.Label P Id)) (s : NDArray.State P Id),
        NDArray.machine.Guarded (fun s a => s.ticksActive a = true)
          (NDArray.initializeRuntime u) as →
        NDArray.machine.exec (NDArray.initializeRuntime u) as = some s →
        NDArray.AlarmTruthful s) := by
  constructor
  · intro s hs
    exact Typed.alarmTruthful hs
  · intro u as s hok hrun
    exact NDArray.alarmTruthful (NDArray.shown_exec u hok hrun)

/-- An image PV with a reader that is up and no snapshot. -/
def quietImage : NDArray.Startup Unit Nat where
  fullName := "NS:IMAGE"
  config := { name := "IMAGE", read := { backend := "default", key := "k" } }
  generation := 1
  probeMs := 0
  publisher := none
  snapshot := none
  status := { active := true, connected := true, streamKind := .stream }
  now := 1
  now_pos := Nat.one_pos

/-- A frame arrives, the reader loses its connection, a tick reports it, the reader is back. -/
def reconnected : List (NDArray.Label Unit Nat) :=
  [.activate,
   .read [{ id := 1, frame := .ok { uniqueId := 7, content := () } }],
   .deliver 0 10,
   .reader (.connected false),
   .tick 11,
   .reader (.connected true)]

/-- A typed runtime whose reader has just lost its connection, and an image runtime whose
    reader is back: the next tick turns the alarm of each. -/
theorem served_alarm_truthful_turns :
    (∃ s : Typed.State Bool Nat, Typed.machine.Reachable s ∧ s.serving = true ∧
      s.view.pv.alarm.severity = epicsSevNone ∧
      (s.sourceHealth 20).1.view.pv.alarm.severity = epicsSevInvalid ∧
      Typed.AlarmTruthful s) ∧
    ∃ s : NDArray.State Unit Nat, s.serving = true ∧
      s.pv.alarm.severity = epicsSevInvalid ∧
      (s.sourceHealth 12).1.pv.alarm.severity = epicsSevNone ∧ NDArray.AlarmTruthful s := by
  constructor
  · have hrun : (Typed.machine.exec (Typed.initializeRuntime quietStartup)
        (lateDeliveries ++ [.reader .read (.connected false)])).map
        (fun s => (s.serving, s.view.pv.alarm.severity,
          (s.sourceHealth 20).1.view.pv.alarm.severity)) =
          some (true, epicsSevNone, epicsSevInvalid) := by
      decide
    obtain ⟨s, hs, hfacts⟩ := Option.map_eq_some_iff.mp hrun
    simp only [Prod.mk.injEq] at hfacts
    have hr : Typed.machine.Reachable s := ⟨_, _, ⟨quietStartup, rfl⟩, hs⟩
    exact ⟨s, hr, hfacts.1, hfacts.2.1, hfacts.2.2,
      (served_alarm_truthful (P := Unit)).1 s hr⟩
  · have hrun : (NDArray.machine.exec (NDArray.initializeRuntime quietImage) reconnected).map
        (fun s => (s.serving, s.pv.alarm.severity, (s.sourceHealth 12).1.pv.alarm.severity)) =
          some (true, epicsSevInvalid, epicsSevNone) := by
      decide
    have hok : NDArray.machine.Guarded (fun s a => s.ticksActive a = true)
        (NDArray.initializeRuntime quietImage) reconnected := by
      decide
    obtain ⟨s, hs, hfacts⟩ := Option.map_eq_some_iff.mp hrun
    simp only [Prod.mk.injEq] at hfacts
    exact ⟨s, hfacts.1, hfacts.2.1, hfacts.2.2,
      (served_alarm_truthful (V := Bool)).2 quietImage reconnected s hok hs⟩

end RedisPvxsIoc.Runtime
