import RedisPvxsIoc.Runtime.Confirmation
import RedisPvxsIoc.Runtime.ServedAlarm

/-!
# The Served Source Timestamp

A PV that is written through its own read route is presented twice for every write: by the echo
of the put, and by the entry that the reader delivers.  The two paths are not synchronised, so
the echo of a later put can overtake the entry of an earlier one, and the entry then takes the
served timestamp back.

`Stream` is an observer's record of the stream: the entries that were written and not read
yet, the newest time, and the newest time that was echoed.  Under the assumptions about the
stream (`State.inOrder`) the timestamp falls back exactly at an overtaken delivery.

## Main results

- `timestamps_monotone_iff`
- `timestamp_falls_back`: two puts and a reader that lags
-/

namespace RedisPvxsIoc.Runtime.Typed

open Config Foundations

set_option linter.unusedSectionVars false

variable {V Id : Type} [ValueType V] [LinearOrder Id] {s s' : State V Id} {p : PutId}
  {put : Put V Id}

/-! ## Times of entries and puts -/

/-- The timestamp that a delivery of the entry presents. -/
def StreamEntry.stamp (entry : StreamEntry V Id) : Option Nat :=
  if entry.payload.isSome then entry.time else none

/-- The timestamps of the entries that were read and not delivered yet, in order. -/
def State.inFlight (s : State V Id) : List Nat :=
  s.deliveries.flatMap fun d => d.entries.filterMap StreamEntry.stamp

/-- The write time that a put holds between its write and the end of its echo. -/
def Stage.time : Stage V Id → Option Nat
  | .written _ _ time => time
  | .echoing _ time => some time
  | _ => none

def Phase.time : Phase V Id → Option Nat
  | .running _ stage => stage.time
  | _ => none

/-- The stage at which put `p` is being dispatched. -/
def State.stageOf (s : State V Id) (p : PutId) : Option (Stage V Id) :=
  (s.puts[p]?).bind fun put =>
    match put.phase with
    | .running _ stage => some stage
    | _ => none

/-- The write time of a step that writes successfully. -/
def State.writesAt (s : State V Id) : Label V Id → Option Nat
  | .dispatch p answer =>
    match s.stageOf p, answer.write with
    | some (.registered _ _), .ok time => some time
    | _, _ => none
  | _ => none

/-- The time that a step echoes. -/
def State.echoesAt (s : State V Id) : Label V Id → Option Nat
  | .dispatch p _ =>
    match s.stageOf p with
    | some (.echoing _ time) => if s.alive then some time else none
    | _ => none
  | _ => none

/-- The timestamp of the entry that a step presents. -/
def State.deliversAt (s : State V Id) (a : Label V Id) : Option Nat :=
  match a with
  | .deliver i _ =>
    if s.posts a then (s.deliveries[i]?).bind fun d => d.entries.head?.bind StreamEntry.stamp
    else none
  | _ => none

variable {stage : Stage V Id}

theorem stageOf_eq_some :
    s.stageOf p = some stage ↔ RunningAt s p stage := by
  unfold State.stageOf RunningAt
  constructor
  · intro h
    obtain ⟨put, hput, hphase⟩ := Option.bind_eq_some_iff.mp h
    split at hphase
    · rename_i epoch stage' hrunning
      cases hphase
      exact ⟨put, epoch, hput, hrunning⟩
    · cases hphase
  · rintro ⟨put, epoch, hput, hphase⟩
    simp [hput, hphase]

/-! ### Steps of a put -/

/-- A put that is moved to a phase without a write time holds none. -/
theorem time_of_modify {f : Put V Id → Put V Id} (hputs : s'.puts = s.puts.modify p f)
    (hf : ∀ put, (f put).phase.time = none) (h : RunningAt s' p stage) :
    stage.time = none := by
  obtain ⟨put, epoch, -, hphase⟩ := runningAt_modify h hputs
  have hnone := hf put
  rw [hphase] at hnone
  exact hnone

variable {answer : Answer Id}

/-- A put comes by a write time in its write, and only passes it on afterwards. -/
theorem dispatchPut_time {epoch : Nat} {stage' : Stage V Id}
    (h : PutStep s p put epoch answer stage s') (hrun : RunningAt s' p stage') {time : Nat}
    (htime : stage'.time = some time) :
    stage.time = some time ∨ ∃ l id, stage = .registered l id ∧ answer.write = .ok time := by
  have hsome : stage'.time ≠ none := by
    rw [htime]
    exact Option.some_ne_none time
  cases h with
  | moved hmove =>
    obtain ⟨put, epoch', -, hphase⟩ := runningAt_modify (s := s) hrun rfl
    cases hphase
    cases hmove with
    | echoing => exact .inl htime
    | _ => cases htime
  | wrote l id =>
    cases hwrite : answer.write with
    | threw | failed =>
      rw [hwrite] at hrun
      cases id <;> exact absurd (time_of_modify (s := s) rfl (fun _ => rfl) hrun) hsome
    | ok now =>
      rw [hwrite] at hrun
      obtain ⟨put, epoch', -, hphase⟩ := runningAt_modify (s := s) hrun rfl
      cases hphase
      cases htime
      exact .inr ⟨l, id, rfl, rfl⟩
  | _ => exact absurd (time_of_modify (s := s) rfl (fun _ => rfl) hrun) hsome

/-! ## What a step does to the timestamp -/

/-- The value that is posted carries the retained timestamp. -/
def Stamped (s : State V Id) : Prop := s.view.pv.timestampNs = s.view.lastTimestampNs

variable {a : Label V Id}

theorem stamped_step (h : Stamped s) (hstep : ViewStep s a s') : Stamped s' := by
  cases hstep with
  | kept hposts hlabel hkept =>
    rw [Stamped, hkept.view]
    exact h
  | posted hposts v hposted =>
    rw [Stamped, hposted.view]
    rfl
  | linked hposts link hview hsample hlink =>
    rw [Stamped, hview]
    exact h

theorem lastTimestamp_of_quiet (hstep : ViewStep s a s') (hquiet : s.posts a = false) :
    s'.view.lastTimestampNs = s.view.lastTimestampNs := by
  cases hstep with
  | kept hposts hlabel hkept => rw [hkept.view]
  | posted hposts v hposted => exact absurd (hquiet.symm.trans hposts) (by decide)
  | linked hposts link hview hsample hlink => rw [hview]

/-- A current entry of the read route is presented with its own time, if it has one. -/
theorem handleEntry_timestamp {d : Delivery V Id} (entry : StreamEntry V Id) (now : Nat)
    (halive : s.alive = true) (hpos : 0 < d.metadata.epoch) (hroute : d.route = .read)
    (hepoch : s.sourceEpoch .read = d.metadata.epoch) :
    (s.handleEntry d entry now).1.view.lastTimestampNs =
      entry.stamp.getD s.view.lastTimestampNs := by
  unfold State.handleEntry StreamEntry.stamp
  rw [hroute]
  cases entry.payload with
  | none =>
    dsimp only
    rw [show decide (Route.read = Route.read) = true from rfl,
      (markInvalid_posted (by decide) halive hepoch).view]
    rfl
  | some raw =>
    cases entry.time with
    | none =>
      dsimp only
      rw [show decide (Route.read = Route.read) = true from rfl,
        (markInvalid_posted (by decide) halive hepoch).view]
      rfl
    | some timestamp =>
      dsimp only
      rw [show decide (Route.read = Route.read) = true from rfl,
        (handleRawUpdate_posted halive hpos hepoch).view]
      rfl

variable {now i : Nat}

/-- A delivery that posts takes a turn of the loop with a current entry of the read route. -/
theorem deliver_posting (h : Sourced s) (hposts : s.posts (.deliver i now) = true)
    (hstep : s.deliver i now = some s') :
    ∃ d entry rest, s.deliveries[i]? = some d ∧ d.entries = entry :: rest ∧ s.alive = true ∧
      0 < d.metadata.epoch ∧ d.route = .read ∧ s.sourceEpoch .read = d.metadata.epoch ∧
      s.deliversAt (.deliver i now) = entry.stamp ∧
      s' = s.finishTurn i d rest (s.handleEntry d entry now) := by
  obtain ⟨d, hd, hfree, hnow, -⟩ := deliver_cases hstep
  have hfacts := hposts
  simp only [State.posts, hd, Bool.and_eq_true, beq_iff_eq, Bool.not_eq_true',
    List.isEmpty_eq_false_iff, epochMatches_iff] at hfacts
  obtain ⟨⟨⟨hroute, hnonempty⟩, halive⟩, hepoch⟩ := hfacts
  obtain ⟨entry, rest, hentries⟩ := List.exists_cons_of_ne_nil hnonempty
  have hat : s.deliversAt (.deliver i now) = entry.stamp := by
    simp [State.deliversAt, hposts, hd, hentries]
  have hbusy : ¬(s.mutex.isSome || now == 0) = true := by
    simp [hfree, Nat.pos_iff_ne_zero.mp hnow]
  simp only [State.deliver, hd, if_neg hbusy, hentries, halive, Bool.not_true,
    Bool.false_eq_true, if_false, Option.some.injEq] at hstep
  exact ⟨d, entry, rest, hd, hentries, halive, (h.inFlight d (List.mem_of_getElem? hd)).1,
    hroute, hepoch, hat, hstep.symm⟩

theorem deliver_timestamp (h : Sourced s) (hstep : s.deliver i now = some s') :
    s'.view.lastTimestampNs =
      (s.deliversAt (.deliver i now)).getD s.view.lastTimestampNs := by
  cases hposts : s.posts (.deliver i now) with
  | false =>
    rw [lastTimestamp_of_quiet (step_viewStep h (a := .deliver i now) hstep) hposts]
    simp [State.deliversAt, hposts]
  | true =>
    obtain ⟨d, entry, rest, -, -, halive, hpos, hroute, hepoch, hat, rfl⟩ :=
      deliver_posting h hposts hstep
    rw [hat, ← handleEntry_timestamp entry now halive hpos hroute hepoch]
    rfl

/-- The retained timestamp after a step: the time it echoes, the time it delivers, or the one
    from before. -/
theorem step_timestamp (h : Sourced s) (hstep : step s a = some s') :
    s'.view.lastTimestampNs =
      ((s.echoesAt a).or (s.deliversAt a)).getD s.view.lastTimestampNs := by
  cases hposts : s.posts a with
  | false =>
    rw [lastTimestamp_of_quiet (step_viewStep h hstep) hposts]
    have hecho : s.echoesAt a = none := by
      cases a with
      | dispatch p answer =>
        cases hstage : s.stageOf p with
        | none => simp [State.echoesAt, hstage]
        | some stage =>
          obtain ⟨put, epoch, hput, hphase⟩ := stageOf_eq_some.mp hstage
          simp only [State.posts, hput, Option.map_some, hphase] at hposts
          cases stage <;> simp_all [State.echoesAt, Stage.isEcho]
      | _ => rfl
    have hdeliver : s.deliversAt a = none := by
      cases a with
      | deliver i now => simp [State.deliversAt, hposts]
      | _ => rfl
    rw [hecho, hdeliver]
    rfl
  | true =>
    cases a with
    | refresh =>
      simp only [step] at hstep
      split at hstep <;> cases hstep
      unfold State.refreshMetadata
      split <;> rfl
    | tick now =>
      rw [step_tick hstep, (tick_view s now).2.2.2]
      rfl
    | deliver i now => exact deliver_timestamp h hstep
    | dispatch p answer =>
      obtain ⟨put, epoch, stage, hput, hphase, hdispatch⟩ := dispatch_cases hstep
      simp only [State.posts, hput, Option.map_some, hphase, Bool.and_eq_true] at hposts
      obtain ⟨hecho, halive⟩ := hposts
      have hstage := stageOf_eq_some.mpr ⟨put, epoch, hput, hphase⟩
      rcases hdispatch.echo with ⟨hquiet, -⟩ | ⟨l, time, rfl, rfl⟩
      · exact absurd (hquiet.symm.trans hecho) (by decide)
      · simp only [State.echoesAt, hstage, halive, if_true, Option.some_or, Option.getD_some]
        show (s.handleRawUpdate l.raw time true none).1.view.lastTimestampNs = time
        rw [(echo_posted halive l.raw time).view]
        rfl
    | _ => cases hposts

/-! ### Entries in flight -/

theorem inFlight_of_deliveries (h : s'.deliveries = s.deliveries) : s'.inFlight = s.inFlight := by
  rw [State.inFlight, h, State.inFlight]

/-- The batch that the reader is delivering. -/
theorem deliveries_eq_cons {d : Delivery V Id} (hd : s.deliveries[0]? = some d) :
    ∃ others, s.deliveries = d :: others := by
  cases hlist : s.deliveries with
  | nil =>
    rw [hlist] at hd
    cases hd
  | cons d' others =>
    rw [hlist] at hd
    cases hd
    exact ⟨others, rfl⟩

/-- A delivery of the oldest batch removes times from the front, and presents no other than the
    first. -/
theorem deliver_inFlight (h : Sourced s) (hstep : s.deliver 0 now = some s') :
    s'.inFlight.Sublist s.inFlight ∧
      ∀ time, s.deliversAt (.deliver 0 now) = some time → s.inFlight = time :: s'.inFlight := by
  refine ⟨?_, ?_⟩
  · obtain ⟨d, hd, -, -, ⟨-, rfl⟩ | ⟨entry, rest, hentries, halive, rfl⟩⟩ := deliver_cases hstep
    · obtain ⟨others, hothers⟩ := deliveries_eq_cons hd
      simp only [State.inFlight, hothers, List.eraseIdx_cons_zero, List.flatMap_cons]
      exact List.sublist_append_right _ _
    · obtain ⟨others, hothers⟩ := deliveries_eq_cons hd
      simp only [State.inFlight, State.finishTurn, hothers]
      split
      · simp only [List.set_cons_zero, List.flatMap_cons, hentries]
        exact ((List.sublist_cons_self entry rest).filterMap _).append (.refl _)
      · simp only [List.eraseIdx_cons_zero, List.flatMap_cons]
        exact List.sublist_append_right _ _
  · intro time htime
    have hposts : s.posts (.deliver 0 now) = true := by
      by_contra hquiet
      simp [State.deliversAt, hquiet] at htime
    obtain ⟨d, entry, rest, hd, hentries, halive, hpos, hroute, hepoch, hat, rfl⟩ :=
      deliver_posting h hposts hstep
    obtain ⟨others, hothers⟩ := deliveries_eq_cons hd
    -- the epoch is current, so the loop goes on with the rest of the batch
    have hgoes : (s.handleEntry d entry now).2 = true := by
      have hturn := handleEntry_delivered entry now halive hpos
      generalize s.handleEntry d entry now = turn at hturn
      cases hturn with
      | stale hstale => exact absurd (hroute ▸ hepoch) hstale
      | accepted => rfl
      | rejected => rfl
    have hstamp : entry.stamp = some time := hat.symm.trans htime
    simp only [State.inFlight, State.finishTurn, hothers, hgoes, if_true, List.set_cons_zero,
      List.flatMap_cons, hentries, List.filterMap_cons, hstamp, List.cons_append]

variable {entries : List (StreamEntry V Id)}

theorem read_inFlight {route : Route} (hstep : s.read route entries = some s') :
    s'.inFlight = s.inFlight ++ entries.filterMap StreamEntry.stamp := by
  obtain ⟨r, -, rfl⟩ := Option.map_eq_some_iff.mp hstep
  simp [State.inFlight]

/-! ## The stream -/

/-- What an observer knows about the stream that puts write and the reader reads. -/
structure Stream where
  /-- The times of the entries that were written and not read yet. -/
  unread : List Nat := []
  /-- The time of the newest entry. -/
  last : Nat
  /-- The newest time that was echoed. -/
  echoed : Nat := 0
  deriving DecidableEq

namespace Stream

def write (r : Stream) : Option Nat → Stream
  | some time => { r with unread := r.unread ++ [time], last := time }
  | none => r

def echo (r : Stream) : Option Nat → Stream
  | some time => { r with echoed := time }
  | none => r

/-- What the observer notes about a step. -/
def note (s : State V Id) (a : Label V Id) (_ : State V Id) (r : Stream) : Stream :=
  let r := (r.write (s.writesAt a)).echo (s.echoesAt a)
  match a with
  | .read .read entries => { r with unread := r.unread.drop entries.length }
  | _ => r

end Stream

/-- The runtime with the observer of its stream. -/
def streamMachine (r : Stream) : Machine (State V Id × Stream) (Label V Id) :=
  machine.observe Stream.note r

/-- What is assumed about the stream: times increase in write order, the reader reads the
    entries in that order, each with its write time, and delivers its batches in order. -/
def inOrder (x : State V Id × Stream) (a : Label V Id) : Bool :=
  (x.1.writesAt a).all (fun time => decide (x.2.last < time)) &&
  match a with
  | .read .read entries =>
    entries.map StreamEntry.stamp == (x.2.unread.take entries.length).map some
  | .deliver i _ => i == 0
  | _ => true

/-- The step delivers an entry that is older than a time that was echoed. -/
def overtaken (x : State V Id × Stream) (a : Label V Id) : Bool :=
  (x.1.deliversAt a).any fun time => decide (time < x.2.echoed)

/-- The times that the reader has still to deliver, in order. -/
def outstanding (x : State V Id × Stream) : List Nat := x.1.inFlight ++ x.2.unread

/-- The served timestamp is that of the last delivery or of the last echo, and everything
    outstanding is newer than the last delivery. -/
structure Ordered (x : State V Id × Stream) : Prop where
  reachable : machine.Reachable x.1
  noConfirm : x.1.reader .confirm = none
  stamped : Stamped x.1
  sorted : (outstanding x).Pairwise (· < ·)
  newest : ∀ time ∈ outstanding x, time ≤ x.2.last
  held : ∀ p stage time, RunningAt x.1 p stage → stage.time = some time → time = x.2.last
  echoed : x.2.echoed ≤ x.2.last
  served : ∃ delivered ≤ x.2.last, (∀ time ∈ outstanding x, delivered < time) ∧
    x.1.view.lastTimestampNs = max delivered x.2.echoed

variable {x : State V Id × Stream}

theorem Ordered.served_le (h : Ordered x) : x.1.view.lastTimestampNs ≤ x.2.last := by
  obtain ⟨delivered, hle, -, hserved⟩ := h.served
  rw [hserved]
  exact max_le hle h.echoed

/-- A put echoes the newest time. -/
theorem Ordered.echoesAt (h : Ordered x) {time : Nat} (hecho : x.1.echoesAt a = some time) :
    time = x.2.last := by
  cases a with
  | dispatch p answer =>
    simp only [State.echoesAt] at hecho
    split at hecho
    · rename_i l now hstage
      split at hecho <;> cases hecho
      exact h.held p _ time (stageOf_eq_some.mp hstage) rfl
    · cases hecho
  | _ => cases hecho

/-- A delivery that is presented takes the oldest outstanding time. -/
theorem Ordered.deliversAt (h : Ordered x) (hok : inOrder x a = true) (hstep : step x.1 a = some s')
    {time : Nat} (hat : x.1.deliversAt a = some time) :
    x.1.inFlight = time :: s'.inFlight := by
  cases a with
  | deliver i now =>
    obtain rfl : i = 0 := by simpa [inOrder, State.writesAt] using hok
    exact (deliver_inFlight (sourced_reachable h.reachable) hstep).2 time hat
  | _ => cases hat

theorem deliversAt_of_echoesAt {time : Nat} (hecho : s.echoesAt a = some time) :
    s.deliversAt a = none := by
  cases a with
  | dispatch p answer => rfl
  | _ => cases hecho

/-- **One step lowers the served timestamp exactly when its entry is overtaken.** -/
theorem served_le_iff (h : Ordered x) (hok : inOrder x a = true) (hstep : step x.1 a = some s') :
    x.1.view.pv.timestampNs ≤ s'.view.pv.timestampNs ↔ overtaken x a = false := by
  have hsourced := sourced_reachable h.reachable
  have hstamped : Stamped s' := stamped_step h.stamped (step_viewStep hsourced hstep)
  rw [h.stamped, hstamped, step_timestamp hsourced hstep]
  cases hecho : x.1.echoesAt a with
  | some time =>
    -- an echo is always the newest time
    have hle : x.1.view.lastTimestampNs ≤ time := h.echoesAt hecho ▸ h.served_le
    have hnot : overtaken x a = false := by
      simp [overtaken, deliversAt_of_echoesAt hecho]
    exact iff_of_true hle hnot
  | none =>
    cases hat : x.1.deliversAt a with
    | none => simp [overtaken, hat]
    | some time =>
      obtain ⟨delivered, -, hbelow, hserved⟩ := h.served
      have hlt : delivered < time := by
        apply hbelow
        simp [outstanding, h.deliversAt hok hstep hat]
      simp only [Option.none_or, Option.getD_some, overtaken, hat, Option.any_some,
        decide_eq_false_iff_not, not_lt, hserved]
      omega

/-! ### The record is kept -/

theorem note_of_quiet (hwrite : s.writesAt a = none) (hecho : s.echoesAt a = none)
    (hread : ∀ entries, a ≠ .read .read entries) (r : Stream) : Stream.note s a s' r = r := by
  unfold Stream.note
  rw [hwrite, hecho]
  dsimp only [Stream.write, Stream.echo]
  split
  · rename_i entries
    exact absurd rfl (hread entries)
  · rfl

/-- The confirmation reader never comes into being. -/
theorem noConfirm_step (hpos : ∀ d ∈ s.deliveries, 0 < d.metadata.epoch)
    (h : s.reader .confirm = none) (hstep : step s a = some s') : s'.reader .confirm = none := by
  have hset : ∀ {route r r'}, s.reader route = some r →
      (s.setReader route r').reader .confirm = none := by
    intro route r r' hr
    have hroute : Route.confirm ≠ route := by
      rintro rfl
      rw [h] at hr
      cases hr
    exact (setReader_ne s _ hroute).trans h
  cases step_cases hstep with
  | moved _ hr | read _ hr => exact hset hr
  | retired => rfl
  | _ =>
    rw [(step_frame hpos hstep).reader rfl]
    exact h

/-- The part of the invariant that does not depend on the kind of the step. -/
theorem Ordered.carry (h : Ordered x) (hstep : step x.1 a = some s') {r : Stream}
    (hsorted : (outstanding (s', r)).Pairwise (· < ·))
    (hnewest : ∀ time ∈ outstanding (s', r), time ≤ r.last)
    (hheld : ∀ p stage time, RunningAt s' p stage → stage.time = some time → time = r.last)
    (hechoed : r.echoed ≤ r.last)
    (hserved : ∃ delivered ≤ r.last, (∀ time ∈ outstanding (s', r), delivered < time) ∧
      s'.view.lastTimestampNs = max delivered r.echoed) : Ordered (s', r) := by
  have hsourced := sourced_reachable h.reachable
  exact ⟨h.reachable.step hstep,
    noConfirm_step (fun d hd => (hsourced.inFlight d hd).1) h.noConfirm hstep,
    stamped_step h.stamped (step_viewStep hsourced hstep), hsorted, hnewest, hheld, hechoed,
    hserved⟩

/-- A step of no put leaves the write times where they are. -/
theorem Ordered.held_other (h : Ordered x) (hstep : step x.1 a = some s')
    (hother : ∀ p answer, a ≠ .dispatch p answer) (p : PutId) (stage : Stage V Id) (time : Nat)
    (hrun : RunningAt s' p stage) (htime : stage.time = some time) : time = x.2.last := by
  have hsourced := sourced_reachable h.reachable
  rcases runningAt_step (fun d hd => (hsourced.inFlight d hd).1) hstep hother hrun with
    hold | ⟨rfl, -⟩
  · exact h.held p stage time hold htime
  · cases htime

/-- A step of a put: the put moves on with the newest time, and its own write becomes the
    newest. -/
theorem Ordered.held_dispatch (h : Ordered x) {p : PutId}
    (hstep : step x.1 (.dispatch p answer) = some s') (q : PutId) (stage' : Stage V Id) (time : Nat)
    (hrun : RunningAt s' q stage') (htime : stage'.time = some time) :
    time = (x.2.write (x.1.writesAt (.dispatch p answer))).last := by
  obtain ⟨put, epoch, stage, hput, hphase, hdispatch⟩ := dispatch_cases hstep
  have hp : RunningAt x.1 p stage := ⟨put, epoch, hput, hphase⟩
  have hstage := stageOf_eq_some.mpr hp
  obtain rfl : q = p := by
    by_contra hne
    exact hne (serial_reachable h.reachable q p _ _ (hrun.of_frame (dispatch_frame hstep) hne) hp)
  rcases dispatchPut_time hdispatch hrun htime with hold | ⟨l, id, rfl, hwrite⟩
  · have hnone : x.1.writesAt (.dispatch q answer) = none := by
      simp only [State.writesAt, hstage]
      split
      · rename_i heq _
        cases heq
        cases hold
      · rfl
    rw [hnone]
    exact h.held q stage time hp hold
  · have hat : x.1.writesAt (.dispatch q answer) = some time := by
      simp [State.writesAt, hstage, hwrite]
    rw [hat]
    rfl

theorem Ordered.dispatch (h : Ordered x) {p : PutId} (hok : inOrder x (.dispatch p answer) = true)
    (hstep : step x.1 (.dispatch p answer) = some s') :
    Ordered (s', Stream.note x.1 (.dispatch p answer) s' x.2) := by
  have hsourced := sourced_reachable h.reachable
  have hflight : s'.inFlight = x.1.inFlight :=
    inFlight_of_deliveries (dispatch_frame hstep).deliveries
  have hlast := step_timestamp hsourced hstep
  have hheld := h.held_dispatch hstep
  obtain ⟨delivered, hdelivered, hbelow, hserved⟩ := h.served
  have hnote : Stream.note x.1 (.dispatch p answer) s' x.2 =
      (x.2.write (x.1.writesAt (.dispatch p answer))).echo
        (x.1.echoesAt (.dispatch p answer)) := rfl
  rw [hnote]
  cases hwrite : x.1.writesAt (.dispatch p answer) with
  | some time =>
    -- the write: no echo, and a time beyond everything outstanding
    have hecho : x.1.echoesAt (.dispatch p answer) = none := by
      simp only [State.writesAt] at hwrite
      split at hwrite
      · rename_i hstage _
        simp [State.echoesAt, hstage]
      · cases hwrite
    have hnew : x.2.last < time := by simpa [inOrder, hwrite] using hok
    have hout : outstanding (s', x.2.write (some time)) = outstanding x ++ [time] := by
      simp [outstanding, hflight, Stream.write]
    rw [hwrite] at hheld
    rw [hecho] at hlast ⊢
    refine h.carry hstep ?_ ?_ hheld (le_trans h.echoed hnew.le)
      ⟨delivered, le_trans hdelivered hnew.le, ?_, hlast.trans hserved⟩
    · rw [Stream.echo, hout, List.pairwise_append]
      refine ⟨h.sorted, List.pairwise_singleton _ _, ?_⟩
      intro old hold new hmem
      rw [List.mem_singleton.mp hmem]
      exact lt_of_le_of_lt (h.newest old hold) hnew
    · rw [Stream.echo, hout]
      intro t ht
      rcases List.mem_append.mp ht with hold | hmem
      · exact le_trans (h.newest t hold) hnew.le
      · exact le_of_eq (List.mem_singleton.mp hmem)
    · rw [Stream.echo, hout]
      intro t ht
      rcases List.mem_append.mp ht with hold | hmem
      · exact hbelow t hold
      · rw [List.mem_singleton.mp hmem]
        exact lt_of_le_of_lt hdelivered hnew
  | none =>
    rw [hwrite] at hheld
    have hout : ∀ echoed, outstanding (s', x.2.echo echoed) = outstanding x := by
      intro echoed
      cases echoed <;> simp [outstanding, hflight, Stream.echo]
    cases hecho : x.1.echoesAt (.dispatch p answer) with
    | none =>
      rw [hecho] at hlast
      exact h.carry hstep (hout none ▸ h.sorted) (hout none ▸ h.newest) hheld h.echoed
        ⟨delivered, hdelivered, hout none ▸ hbelow, hlast.trans hserved⟩
    | some time =>
      obtain rfl := h.echoesAt hecho
      rw [hecho] at hlast
      refine h.carry hstep (hout (some _) ▸ h.sorted) (hout (some _) ▸ h.newest) hheld (le_refl _)
        ⟨delivered, hdelivered, hout (some _) ▸ hbelow, ?_⟩
      rw [hlast]
      exact (max_eq_right hdelivered).symm

/-- A batch of entries that all have a time. -/
theorem filterMap_stamp {times : List Nat} (h : entries.map StreamEntry.stamp = times.map some) :
    entries.filterMap StreamEntry.stamp = times := by
  calc entries.filterMap StreamEntry.stamp
      = (entries.map StreamEntry.stamp).filterMap id := by rw [List.filterMap_map]; rfl
    _ = (times.map some).filterMap id := by rw [h]
    _ = times := by rw [List.filterMap_map]; exact List.filterMap_some

/-- Reading moves times from the stream into flight; what is outstanding is the same. -/
theorem Ordered.read (h : Ordered x) {route : Route} (hok : inOrder x (.read route entries) = true)
    (hstep : step x.1 (.read route entries) = some s') :
    Ordered (s', Stream.note x.1 (.read route entries) s' x.2) := by
  have hlast := step_timestamp (sourced_reachable h.reachable) hstep
  have hheld := h.held_other hstep (by simp)
  cases route with
  | confirm =>
    obtain ⟨r, hr, -⟩ := Option.map_eq_some_iff.mp hstep
    rw [h.noConfirm] at hr
    cases hr
  | read =>
    have hstamps : entries.map StreamEntry.stamp =
        (x.2.unread.take entries.length).map some := by
      simpa [inOrder, State.writesAt] using hok
    have hout : outstanding (s', Stream.note x.1 (.read .read entries) s' x.2) =
        outstanding x := by
      simp only [outstanding, read_inFlight hstep, filterMap_stamp hstamps, List.append_assoc]
      show x.1.inFlight ++ (x.2.unread.take entries.length ++ x.2.unread.drop entries.length) = _
      rw [List.take_append_drop]
    obtain ⟨delivered, hdelivered, hbelow, hserved⟩ := h.served
    exact h.carry hstep (hout ▸ h.sorted) (hout ▸ h.newest) hheld h.echoed
      ⟨delivered, hdelivered, hout ▸ hbelow, hlast.trans hserved⟩

/-- A delivery that is not overtaken becomes the last delivery. -/
theorem Ordered.deliver (h : Ordered x) (hok : inOrder x (.deliver i now) = true)
    (hnot : overtaken x (.deliver i now) = false) (hstep : step x.1 (.deliver i now) = some s') :
    Ordered (s', Stream.note x.1 (.deliver i now) s' x.2) := by
  have hlast := step_timestamp (sourced_reachable h.reachable) hstep
  have hheld := h.held_other hstep (by simp)
  obtain rfl : i = 0 := by simpa [inOrder, State.writesAt] using hok
  obtain ⟨hsub, -⟩ := deliver_inFlight (sourced_reachable h.reachable) hstep
  have hout : (outstanding (s', x.2)).Sublist (outstanding x) := hsub.append (.refl _)
  obtain ⟨delivered, hdelivered, hbelow, hserved⟩ := h.served
  have hsorted := h.sorted.sublist hout
  have hnewest : ∀ time ∈ outstanding (s', x.2), time ≤ x.2.last :=
    fun time ht => h.newest time (hout.subset ht)
  show Ordered (s', x.2)
  cases hat : x.1.deliversAt (.deliver 0 now) with
  | none =>
    rw [hat] at hlast
    exact h.carry hstep hsorted hnewest hheld h.echoed
      ⟨delivered, hdelivered, fun time ht => hbelow time (hout.subset ht), hlast.trans hserved⟩
  | some time =>
    have hhead : outstanding x = time :: outstanding (s', x.2) := by
      simp [outstanding, h.deliversAt hok hstep hat]
    have hsplit := h.sorted
    rw [hhead, List.pairwise_cons] at hsplit
    have hle : x.2.echoed ≤ time := by simpa [overtaken, hat] using hnot
    have hmem : time ∈ outstanding x := by simp [hhead]
    rw [hat] at hlast
    refine h.carry hstep hsorted hnewest hheld h.echoed
      ⟨time, h.newest time hmem, hsplit.1, ?_⟩
    rw [hlast]
    exact (max_eq_left hle).symm

/-- **Step lemma**: steps in order that are not overtaken keep the invariant. -/
theorem ordered_step (h : Ordered x) (hok : inOrder x a = true) (hnot : overtaken x a = false)
    (hstep : step x.1 a = some s') :
    Ordered (s', Stream.note x.1 a s' x.2) := by
  have hquiet : a.movesBatch = false → (∀ p answer, a ≠ .dispatch p answer) →
      x.1.writesAt a = none → x.1.echoesAt a = none → x.1.deliversAt a = none →
      Ordered (s', Stream.note x.1 a s' x.2) := by
    intro hbatch hother hwrite hecho hdeliver
    have hsourced := sourced_reachable h.reachable
    have hframe := step_frame (fun d hd => (hsourced.inFlight d hd).1) hstep
    have hlast := step_timestamp hsourced hstep
    rw [hecho, hdeliver] at hlast
    have hread : ∀ entries, a ≠ .read .read entries := by
      rintro entries rfl
      cases hbatch
    rw [note_of_quiet hwrite hecho hread]
    have hout : outstanding (s', x.2) = outstanding x := by
      simp only [outstanding, inFlight_of_deliveries (hframe.deliveries hbatch)]
    obtain ⟨delivered, hdelivered, hbelow, hserved⟩ := h.served
    exact h.carry hstep (hout ▸ h.sorted) (hout ▸ h.newest) (h.held_other hstep hother) h.echoed
      ⟨delivered, hdelivered, hout ▸ hbelow, hlast.trans hserved⟩
  cases a with
  | dispatch p answer => exact h.dispatch hok hstep
  | read route entries => exact h.read hok hstep
  | deliver i now => exact h.deliver hok hnot hstep
  | _ => exact hquiet rfl (by simp) rfl rfl rfl

/-- The stream as the observer finds it: its newest entry is the startup snapshot. -/
def Startup.stream (u : Startup V Id) : Stream := { last := (startView u).lastTimestampNs }

theorem ordered_start (u : Startup V Id) (hconfirm : u.config.confirm = none) :
    Ordered (initializeRuntime u, u.stream) where
  reachable := .of_start ⟨u, rfl⟩
  noConfirm := by simp [initializeRuntime, hconfirm]
  stamped := rfl
  sorted := List.Pairwise.nil
  newest := by simp [outstanding, State.inFlight, initializeRuntime, Startup.stream]
  held := by
    rintro p stage time ⟨put, epoch, hput, -⟩
    cases hput
  echoed := Nat.zero_le _
  served := ⟨_, le_refl _, by simp [outstanding, State.inFlight, initializeRuntime, Startup.stream],
    (max_eq_left (Nat.zero_le _)).symm⟩

/-- **When the served timestamp never moves back**: for a PV without a confirmation route and
    every run whose reader is in order, the timestamps that clients see never decrease if and
    only if no entry is delivered after the echo of a newer write. -/
theorem timestamps_monotone_iff (u : Startup V Id) (hconfirm : u.config.confirm = none)
    {as : List (Label V Id)}
    (horder : (streamMachine u.stream).Guarded (fun x a => inOrder x a = true)
      (initializeRuntime u, u.stream) as)
    (hrun : (streamMachine u.stream).exec (initializeRuntime u, u.stream) as = some x) :
    ((streamMachine u.stream).states (initializeRuntime u, u.stream) as).Pairwise
        (fun y z => y.1.view.pv.timestampNs ≤ z.1.view.pv.timestampNs) ↔
      (streamMachine u.stream).Guarded (fun y a => overtaken y a = false)
        (initializeRuntime u, u.stream) as := by
  refine (streamMachine u.stream).pairwise_states_iff_guarded
    (f := fun y => y.1.view.pv.timestampNs) (I := Ordered) ?_ ?_ (ordered_start u hconfirm)
    horder hrun
  · intro y a y' hy hok hnot hstep
    obtain ⟨s', hs', rfl⟩ := Option.map_eq_some_iff.mp hstep
    exact ordered_step hy hok hnot hs'
  · intro y a y' hy hok hstep
    obtain ⟨s', hs', rfl⟩ := Option.map_eq_some_iff.mp hstep
    exact served_le_iff hy hok hs'

/-- A PV that is written through its own read route. -/
def loopback : Startup Bool Nat :=
  { quietStartup with
    config := { name := "PV", read := { backend := "default", key := "k" }
                write := some { backend := "default", key := "k" } } }

/-- Put `p` writes `true` at `time`, echoes it and replies. -/
def writeAt (p time : Nat) : List (Label Bool Nat) :=
  [.arrive (some true), .handlePut p none, .handlePut p none, .startPut p] ++
  List.replicate 12 (.dispatch p { write := .ok time })

/-- The reader reads and delivers the entry of a write. -/
def readBack (time : Nat) : List (Label Bool Nat) :=
  [.read .read [{ id := time, payload := some true, time := some time }], .deliver 0 30,
   .deliver 0 30]

/-- **The timestamp moves back**: writes at 10 and 20 are echoed before the reader delivers the
    entry of the first. -/
theorem timestamp_falls_back :
    loopback.config.write = some loopback.config.read ∧ loopback.config.confirm = none ∧
    ∃ y x, (streamMachine loopback.stream).Guarded (fun x a => inOrder x a = true)
        (initializeRuntime loopback, loopback.stream)
        ((.activate :: (writeAt 0 10 ++ writeAt 1 20)) ++ readBack 10) ∧
      (streamMachine loopback.stream).exec (initializeRuntime loopback, loopback.stream)
        (.activate :: (writeAt 0 10 ++ writeAt 1 20)) = some y ∧
      (streamMachine loopback.stream).exec y (readBack 10) = some x ∧
      y.1.view.pv.timestampNs = 20 ∧ x.1.view.pv.timestampNs = 10 := by
  have hguard : (streamMachine loopback.stream).Guarded (fun x a => inOrder x a = true)
      (initializeRuntime loopback, loopback.stream)
      ((.activate :: (writeAt 0 10 ++ writeAt 1 20)) ++ readBack 10) := by
    decide +kernel
  have hrun : ((streamMachine loopback.stream).exec (initializeRuntime loopback, loopback.stream)
      (.activate :: (writeAt 0 10 ++ writeAt 1 20))).map (fun y => (y.1.view.pv.timestampNs,
        ((streamMachine loopback.stream).exec y (readBack 10)).map
          fun x => x.1.view.pv.timestampNs)) = some (20, some 10) := by
    decide +kernel
  obtain ⟨y, hy, hfacts⟩ := Option.map_eq_some_iff.mp hrun
  rw [Prod.mk.injEq] at hfacts
  obtain ⟨x, hx, htime⟩ := Option.map_eq_some_iff.mp hfacts.2
  exact ⟨rfl, rfl, y, x, hguard, hy, hx, hfacts.1, htime⟩

/-- With a reader that delivers each entry before the next put the timestamps increase. -/
theorem timestamps_monotone_prompt :
    ∃ x, (streamMachine loopback.stream).exec (initializeRuntime loopback, loopback.stream)
        (.activate :: (writeAt 0 10 ++ readBack 10 ++ writeAt 1 20 ++ readBack 20)) = some x ∧
      x.1.view.pv.timestampNs = 20 ∧
      ((streamMachine loopback.stream).states (initializeRuntime loopback, loopback.stream)
        (.activate :: (writeAt 0 10 ++ readBack 10 ++ writeAt 1 20 ++ readBack 20))).Pairwise
        (fun y z => y.1.view.pv.timestampNs ≤ z.1.view.pv.timestampNs) := by
  have hrun : ((streamMachine loopback.stream).exec (initializeRuntime loopback, loopback.stream)
      (.activate :: (writeAt 0 10 ++ readBack 10 ++ writeAt 1 20 ++ readBack 20))).map
        (fun x => x.1.view.pv.timestampNs) = some 20 := by
    decide +kernel
  obtain ⟨x, hx, htime⟩ := Option.map_eq_some_iff.mp hrun
  refine ⟨x, hx, htime, (timestamps_monotone_iff loopback rfl ?_ hx).mpr ?_⟩
  · decide +kernel
  · decide +kernel

end RedisPvxsIoc.Runtime.Typed
