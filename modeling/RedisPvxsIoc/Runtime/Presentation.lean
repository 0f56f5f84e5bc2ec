import RedisPvxsIoc.Runtime.Readiness

/-!
# When a Runtime Posts

Every locked section of a typed runtime either posts the value again or leaves what clients
see alone; reload, activation and retirement only move the alarm registration.  `posts` says
which labels post, as a function of the state, and `ViewStep` says what each kind of step
does to the view and to the sample state of the read route.

## Main results

- `Typed.step_viewStep`
- `Typed.present_shown`: a posted alarm follows from health, validity and payload
-/

namespace RedisPvxsIoc.Runtime

open Config Foundations
open Alarm (AlarmState)

set_option linter.unusedSectionVars false

namespace Typed

variable {V Id : Type} [ValueType V] [LinearOrder Id]

/-! ## Kinds of steps -/

/-- The stage in which a put echoes what it has written. -/
def Stage.isEcho : Stage V Id → Bool
  | .echoing _ _ => true
  | _ => false

/-- The label makes the runtime post its value: a refresh, a current entry of the read route,
    the echo of a write, a tick whose error is not the one that is shown. -/
def State.posts (s : State V Id) : Label V Id → Bool
  | .refresh => s.alive
  | .deliver i _ =>
    match s.deliveries[i]? with
    | some d => d.route == .read && !d.entries.isEmpty && s.alive &&
        s.epochMatches .read d.metadata.epoch
    | none => false
  | .dispatch p _ =>
    match (s.puts[p]?).map Put.phase with
    | some (.running _ stage) => stage.isEcho && s.alive
    | _ => false
  | .tick now =>
    s.serving && (s.assess .read s.config.read (State.readRole s.config) s.readProbeMs now).1.error
      != s.view.healthError
  | _ => false

/-- What ties the sample state of the read route to `sourceValid`: an accepted sample is
    presented as valid, and a sample state that is not valid can say why. -/
structure Agree (sample : SourceSampleState Id) (sourceValid : Bool) : Prop where
  valid : sample.valid = true → sourceValid = true
  error : sample.valid = false → sample.error ≠ ""

/-- Nothing that is presented changes. -/
structure Kept (s s' : State V Id) : Prop where
  view : s'.view = s.view
  updates : s'.updates = s.updates
  valid : (s'.sample .read).valid = (s.sample .read).valid
  error : (s'.sample .read).error = (s.sample .read).error

/-- A value is posted: `v` is the view in which it was computed. -/
structure Posted (s s' : State V Id) (v : View V) : Prop where
  alive : s.alive = true
  link : v.alarm = s.view.alarm
  pv : v.pv = s.view.pv
  view : s'.view = v.present s.config s.serving
  updates : s'.updates = s.updates
  agree : Agree (s.sample .read) s.view.sourceValid → Agree (s'.sample .read) v.sourceValid

/-- The alarm registration moves. -/
inductive LinkStep (s : State V Id) : Label V Id → State V Id → AlarmLink → Prop where
  | prepare (config : PVConfig) (generation : Nat) (publisher target : Option Nat)
      (state : AlarmState) (s' : State V Id)
      (hupdates : s'.updates = s.updates ++ [{ config, generation, publisher := target
                                               alarm := (s.view.alarm.prepare target state).2 }]) :
    LinkStep s (.prepare config generation publisher) s' (s.view.alarm.prepare target state).1
  | commit (i : Nat) (update : Update) (s' : State V Id) (hupdate : update ∈ s.updates)
      (hupdates : s'.updates = s.updates.eraseIdx i) :
    LinkStep s (.commit i) s' (s.view.alarm.commit update.publisher update.alarm)
  | activate (s' : State V Id) (hupdates : s'.updates = s.updates) :
    LinkStep s .activate s' s.view.alarm.activate
  | retire (s' : State V Id) (hupdates : s'.updates = s.updates) :
    LinkStep s .retire s' s.view.alarm.retire

/-- The labels that move the alarm registration. -/
def Label.movesLink : Label V Id → Bool
  | .prepare _ _ _ | .commit _ | .activate | .retire => true
  | _ => false

inductive ViewStep (s : State V Id) (a : Label V Id) (s' : State V Id) : Prop where
  | kept (hposts : s.posts a = false) (hlabel : a.movesLink = false) (h : Kept s s')
  | posted (hposts : s.posts a = true) (v : View V) (h : Posted s s' v)
  | linked (hposts : s.posts a = false) (link : AlarmLink)
      (hview : s'.view = { s.view with alarm := link }) (hsample : s'.sample = s.sample)
      (h : LinkStep s a s' link)

variable {s s' : State V Id} {p : PutId} {put : Put V Id}

theorem Kept.refl (s : State V Id) : Kept s s := ⟨rfl, rfl, rfl, rfl⟩

theorem Kept.of_eq (hview : s'.view = s.view) (hupdates : s'.updates = s.updates)
    (hsample : s'.sample = s.sample) : Kept s s' :=
  ⟨hview, hupdates, by rw [hsample], by rw [hsample]⟩

variable {sample : SourceSampleState Id}

theorem Agree.congr {sample' : SourceSampleState Id} {sourceValid : Bool}
    (h : Agree sample sourceValid) (hvalid : sample'.valid = sample.valid)
    (herror : sample'.error = sample.error) : Agree sample' sourceValid :=
  ⟨fun hv => h.valid (hvalid ▸ hv), fun hv => herror ▸ h.error (hvalid ▸ hv)⟩

theorem Agree.of_valid (h : sample.valid = true) :
    Agree sample true :=
  ⟨fun _ => rfl, fun hv => Bool.noConfusion (h.symm.trans hv)⟩

theorem Agree.of_invalid {sourceValid : Bool} (h : sample.valid = false)
    (herror : sample.error ≠ "") : Agree sample sourceValid :=
  ⟨fun hv => Bool.noConfusion (h.symm.trans hv), fun _ => herror⟩

/-! ## Steps of a put -/

/-- Of all stages of a dispatch only the echo touches the view. -/
theorem PutStep.echo {epoch : Nat} {a : Answer Id} {stage : Stage V Id}
    (h : PutStep s p put epoch a stage s') :
    stage.isEcho = false ∧ s'.view = s.view ∨
      ∃ l time, stage = .echoing l time ∧
        s' = (s.handleRawUpdate l.raw time true none).1.toPhase p (.running epoch .concluding) := by
  cases h with
  | echoed l time view hview =>
    rw [← hview]
    exact .inr ⟨l, time, rfl, rfl⟩
  | wrote l id => cases hwrite : a.write <;> cases id <;> exact .inl ⟨rfl, rfl⟩
  | moved hmove => cases hmove <;> exact .inl ⟨rfl, rfl⟩
  | left hreturns | failed hreturns =>
    cases stage <;> first
      | exact .inl ⟨rfl, rfl⟩
      | cases hreturns
  | dropped hlocked | refused hlocked =>
    cases stage <;> first
      | exact .inl ⟨rfl, rfl⟩
      | cases hlocked
  | replied hreply => rcases hreply with ⟨rfl, -⟩ | rfl <;> exact .inl ⟨rfl, rfl⟩
  | _ => exact .inl ⟨rfl, rfl⟩

/-- The echo of a write retains the written value and posts it. -/
theorem echo_posted (halive : s.alive = true) (raw : V) (time : Nat) :
    Posted s (s.handleRawUpdate raw time true none).1 (s.view.retain raw time none) where
  alive := halive
  link := rfl
  pv := rfl
  view := by simp [State.handleRawUpdate, halive, State.retain, State.present, State.serving]
  updates := by simp [State.handleRawUpdate, halive, State.retain, State.present]
  agree := by
    intro h
    refine ⟨fun _ => rfl, ?_⟩
    simpa [State.handleRawUpdate, halive, State.retain, State.present] using h.error

theorem dispatch_viewStep {a : Answer Id} {epoch : Nat} {stage : Stage V Id}
    (hput : s.puts[p]? = some put) (hphase : put.phase = .running epoch stage)
    (hstep : PutStep s p put epoch a stage s') : ViewStep s (.dispatch p a) s' := by
  have hframe := hstep.frame
  have hposts : s.posts (.dispatch p a) = (stage.isEcho && s.alive) := by
    simp only [State.posts, hput, Option.map_some, hphase]
  rcases hstep.echo with ⟨hquiet, hview⟩ | ⟨l, time, rfl, rfl⟩
  · rw [hquiet] at hposts
    exact .kept hposts rfl (.of_eq hview hframe.updates hframe.sample)
  · cases halive : s.alive with
    | false =>
      have hsame : (s.handleRawUpdate l.raw time true none).1 = s := by
        simp [State.handleRawUpdate, halive]
      rw [hsame]
      exact .kept (hposts.trans halive) rfl (.of_eq rfl rfl rfl)
    | true =>
      obtain ⟨-, hlink, hpv, hview, hupdates, hagree⟩ := echo_posted halive l.raw time
      exact .posted (hposts.trans halive) _ ⟨halive, hlink, hpv, hview, hupdates, hagree⟩

/-! ## Deliveries -/

theorem setSample_self (s : State V Id) (route : Route) (x : SourceSampleState Id) :
    (s.setSample route x).sample route = x := by
  unfold State.setSample
  exact Function.update_self ..

theorem setSample_ne (s : State V Id) {route other : Route} (x : SourceSampleState Id)
    (h : other ≠ route) : (s.setSample route x).sample other = s.sample other := by
  unfold State.setSample
  exact Function.update_of_ne h ..

variable {d : Delivery V Id} {entry : StreamEntry V Id}

/-- An entry of the confirmation route never changes what is presented. -/
theorem kept_of_confirm {now : Nat} {turn : State V Id × Bool} (ht : Delivered s d entry now turn)
    (hroute : d.route = .confirm) :
    Kept s turn.1 := by
  have hread : ∀ x : SourceSampleState Id,
      Function.update s.sample d.route x .read = s.sample .read := by
    intro x
    rw [hroute]
    exact Function.update_of_ne (by decide) _ _
  cases ht with
  | stale hepoch =>
    exact ⟨rfl, rfl, congrArg SourceSampleState.valid (hread _),
      congrArg SourceSampleState.error (hread _)⟩
  | accepted raw timestamp view pendingPuts hepoch hpayload htime hview hpending =>
    exact ⟨hview hroute, rfl, congrArg SourceSampleState.valid (hread _),
      congrArg SourceSampleState.error (hread _)⟩
  | rejected view error hepoch hview =>
    exact ⟨hview hroute, rfl, congrArg SourceSampleState.valid (hread _),
      congrArg SourceSampleState.error (hread _)⟩

/-- An entry of an old epoch only moves a counter. -/
theorem kept_of_stale {now : Nat} {turn : State V Id × Bool} (ht : Delivered s d entry now turn)
    (hstale : s.sourceEpoch d.route ≠ d.metadata.epoch) : Kept s turn.1 := by
  cases ht with
  | stale hepoch =>
    refine ⟨rfl, rfl, ?_, ?_⟩
    all_goals
      show _ = _
      simp only [State.countStale, State.setSample, SourceSampleState.countStale]
      by_cases hroute : d.route = .read
      · simp [hroute]
      · rw [Function.update_of_ne (Ne.symm hroute)]
  | accepted raw timestamp view pendingPuts hepoch => exact absurd hepoch hstale
  | rejected view error hepoch => exact absurd hepoch hstale

theorem markInvalid_posted {error : String} (herror : error ≠ "") {a : State.Arrival Id}
    (halive : s.alive = true) (hepoch : s.sourceEpoch .read = a.metadata.epoch) :
    Posted s (s.markInvalid error true a).1
      { s.view with sourceValid := false, sourceError := error, healthError := "" } := by
  have hmatch : s.epochMatches .read a.metadata.epoch = true := epochMatches_iff.mpr hepoch
  have hturn : s.markInvalid error true a =
      (State.present { (s.setSample .read ((s.sample .read).reject error a.metadata.epoch)).record
        (.processed .read (a.processed none) s.pendingPuts.keys) with view :=
          { s.view with sourceValid := false, sourceError := error, healthError := "" } },
        true) := by
    simp [State.markInvalid, State.routeOf, halive, hmatch, State.record, State.setSample]
  have hsample := setSample_self s .read ((s.sample .read).reject error a.metadata.epoch)
  rw [hturn]
  refine ⟨halive, rfl, rfl, rfl, rfl, fun _ => .of_invalid ?_ ?_⟩
  · exact congrArg SourceSampleState.valid hsample
  · exact fun hempty => herror ((congrArg SourceSampleState.error hsample).symm.trans hempty)

theorem handleRawUpdate_posted {raw : V} {timestamp : Nat} {a : State.Arrival Id}
    (halive : s.alive = true) (hpos : 0 < a.metadata.epoch)
    (hepoch : s.sourceEpoch .read = a.metadata.epoch) :
    Posted s (s.handleRawUpdate raw timestamp true (some a)).1
      (s.view.retain raw timestamp
        (some (batchHealthError (handleStatus (s.reader .read)) a.metadata))) := by
  have hmatch : s.epochMatches .read a.metadata.epoch = true := epochMatches_iff.mpr hepoch
  have htagged : a.metadata.epoch ≠ 0 := Nat.pos_iff_ne_zero.mp hpos
  have hturn : (s.handleRawUpdate raw timestamp true (some a)).1 =
      State.retain (if a.canConfirm then
          (s.acceptSample .read a raw).observePending (a.processed (some raw)) raw
        else s.acceptSample .read a raw) raw timestamp
          (some (batchHealthError (handleStatus (s.reader .read)) a.metadata)) := by
    simp [State.handleRawUpdate, halive, State.routeOf, htagged, hmatch]
  have hsample := setSample_self s .read
    { (s.sample .read).accept a.streamId a.metadata.epoch a.now with
      acceptedReadRejections := a.metadata.readRejections }
  rw [hturn]
  -- whether the entry may confirm decides only about the pending puts
  split
  all_goals
    refine ⟨halive, rfl, rfl, rfl, rfl, fun _ => .of_valid ?_⟩
    exact congrArg SourceSampleState.valid hsample

/-- A current entry of the read route is posted. -/
theorem handleEntry_posted (entry : StreamEntry V Id) (now : Nat) (halive : s.alive = true)
    (hpos : 0 < d.metadata.epoch) (hroute : d.route = .read)
    (hepoch : s.sourceEpoch .read = d.metadata.epoch) :
    ∃ v, Posted s (s.handleEntry d entry now).1 v := by
  unfold State.handleEntry
  rw [hroute]
  cases entry.payload with
  | none => exact ⟨_, markInvalid_posted (by decide) halive hepoch⟩
  | some raw =>
    cases entry.time with
    | none => exact ⟨_, markInvalid_posted (by decide) halive hepoch⟩
    | some timestamp => exact ⟨_, handleRawUpdate_posted halive hpos hepoch⟩

theorem delivered_viewStep {i : Nat} (hd : s.deliveries[i]? = some d) (hpos : 0 < d.metadata.epoch)
    (halive : s.alive = true) {rest : List (StreamEntry V Id)}
    (hentries : d.entries = entry :: rest) (now : Nat) :
    ViewStep s (.deliver i now) (s.finishTurn i d rest (s.handleEntry d entry now)) := by
  have hposts : s.posts (.deliver i now) = (d.route == .read && !d.entries.isEmpty && s.alive &&
      s.epochMatches .read d.metadata.epoch) := by
    simp only [State.posts, hd]
  have hturn := handleEntry_delivered entry now halive hpos
  -- finishing the turn moves only the batches
  have hkept : Kept s (s.handleEntry d entry now).1 →
      Kept s (s.finishTurn i d rest (s.handleEntry d entry now)) := fun hk =>
    ⟨hk.view, hk.updates, hk.valid, hk.error⟩
  by_cases hroute : d.route = .read
  · by_cases hepoch : s.sourceEpoch .read = d.metadata.epoch
    · obtain ⟨v, hv⟩ := handleEntry_posted entry now halive hpos hroute hepoch
      refine .posted ?_ v ⟨halive, hv.link, hv.pv, hv.view, hv.updates, hv.agree⟩
      simp [hposts, hroute, hentries, halive, epochMatches_iff.mpr hepoch]
    · refine .kept ?_ rfl (hkept (kept_of_stale hturn (hroute ▸ hepoch)))
      have hmatch : s.epochMatches .read d.metadata.epoch = false := by
        rw [← Bool.not_eq_true, epochMatches_iff]
        exact hepoch
      simp [hposts, hmatch]
  · have hconfirm : d.route = .confirm := by
      cases hr : d.route with
      | read => exact absurd hr hroute
      | confirm => rfl
    exact .kept (by simp [hposts, hconfirm]) rfl (hkept (kept_of_confirm hturn hconfirm))

/-! ## Health ticks -/

/-- The assessment of the read route that a tick makes. -/
def State.assessRead (s : State V Id) (now : Nat) : SourceStatus Id × SourceSampleState Id :=
  s.assess .read s.config.read (State.readRole s.config) s.readProbeMs now

theorem posts_tick (now : Nat) :
    s.posts (.tick now) = (s.serving && (s.assessRead now).1.error != s.view.healthError) := rfl

theorem tickRead_view (s : State V Id) (now : Nat) :
    (s.tickRead now).1.view = if s.posts (.tick now) then
      { s.view with healthError := (s.assessRead now).1.error }.present s.config s.serving
    else s.view := by
  rw [posts_tick]
  have hserving : ∀ x, (s.setSample .read x).serving = s.serving := fun _ => rfl
  simp only [State.tickRead, hserving]
  cases hs : s.serving with
  | false => simp [State.setSample]
  | true =>
    simp only [if_true, Bool.true_and, bne_iff_ne]
    show (State.showHealth _ (s.assessRead now).1.error).view = _
    unfold State.showHealth
    split
    · rename_i herror
      rw [if_pos (show (s.assessRead now).1.error ≠ s.view.healthError from herror), ← hs]
      rfl
    · rename_i herror
      rw [if_neg (show ¬(s.assessRead now).1.error ≠ s.view.healthError from herror)]
      rfl

theorem tickRead_sample (s : State V Id) (now : Nat) :
    (s.tickRead now).1.sample .read = (s.assessRead now).2 := by
  have hset := setSample_self s .read (s.assessRead now).2
  unfold State.tickRead
  dsimp only
  split
  · unfold State.showHealth
    split <;> exact hset
  · exact hset

/-- The confirmation half of a tick presents nothing. -/
theorem sourceHealth_tickRead (s : State V Id) (now : Nat) :
    (s.sourceHealth now).1.view = (s.tickRead now).1.view ∧
      (s.sourceHealth now).1.sample .read = (s.tickRead now).1.sample .read ∧
      ∃ rest, (s.sourceHealth now).2 = (s.assessRead now).1 :: rest := by
  unfold State.sourceHealth
  dsimp only
  split
  · split
    · exact ⟨rfl, rfl, [], rfl⟩
    · exact ⟨rfl, setSample_ne _ _ (by decide), [_], rfl⟩
  · exact ⟨rfl, rfl, [], rfl⟩

theorem tick_viewStep (s : State V Id) (now : Nat) :
    ViewStep s (.tick now) (s.sourceHealth now).1 := by
  obtain ⟨hview, hsample, -⟩ := sourceHealth_tickRead s now
  rw [tickRead_view] at hview
  rw [tickRead_sample] at hsample
  obtain ⟨_, _, _, hrest⟩ := (sourceHealth_frame s now).rest
  have hupdates : (s.sourceHealth now).1.updates = s.updates := by rw [hrest]
  -- an assessment keeps the verdict on the sample
  have hvalid : (s.assessRead now).2.valid = (s.sample .read).valid := rfl
  have herror : (s.assessRead now).2.error = (s.sample .read).error := rfl
  rw [← hsample] at hvalid herror
  cases hposts : s.posts (.tick now) with
  | false =>
    rw [hposts] at hview
    exact .kept hposts rfl ⟨hview, hupdates, hvalid, herror⟩
  | true =>
    rw [hposts, if_pos rfl] at hview
    have halive : s.alive = true := by
      rw [posts_tick, Bool.and_eq_true] at hposts
      exact (Bool.and_eq_true_iff.mp hposts.1).1
    exact .posted hposts { s.view with healthError := (s.assessRead now).1.error }
      ⟨halive, rfl, rfl, hview, hupdates, fun h => h.congr hvalid herror⟩

/-! ## All steps -/

/-- **What a step does to the view**: it leaves it, posts a value, or moves the alarm
    registration. -/
theorem step_viewStep (h : Sourced s) {a : Label V Id} (hstep : step s a = some s') :
    ViewStep s a s' := by
  cases step_cases hstep with
  | handled _ _ _ hadmission => cases hadmission <;> exact .kept rfl rfl (.of_eq rfl rfl rfl)
  | dispatched hput hphase hdispatch => exact dispatch_viewStep hput hphase hdispatch
  | arrived | started | dropped | stopped | deactivated | returned | moved | read =>
    exact .kept rfl rfl (.of_eq rfl rfl rfl)
  | prepared generation publisher state =>
    exact .linked rfl _ rfl rfl (.prepare _ generation publisher _ state _ rfl)
  | committed _ hupdate =>
    exact .linked rfl _ rfl rfl (.commit _ _ _ (List.mem_of_getElem? hupdate) rfl)
  | refreshed halive =>
    exact .posted halive s.view ⟨halive, rfl, rfl, rfl, rfl, fun hagree => hagree⟩
  | ignored hdead => exact .kept hdead rfl (.refl s)
  | activated => exact .linked rfl _ rfl rfl (.activate _ rfl)
  | retired => exact .linked rfl _ rfl rfl (.retire _ rfl)
  | skipped hd hidle =>
    refine .kept ?_ rfl (.of_eq rfl rfl rfl)
    rcases hidle with hidle | hidle <;> simp [State.posts, hd, hidle]
  | delivered now entry hd _ _ hentries halive =>
    exact delivered_viewStep hd (h.inFlight _ (List.mem_of_getElem? hd)).1 halive hentries now
  | @ticked now _ _ hnext =>
    rw [hnext]
    exact tick_viewStep s now

end Typed

end RedisPvxsIoc.Runtime
