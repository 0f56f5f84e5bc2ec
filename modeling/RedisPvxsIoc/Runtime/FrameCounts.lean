import RedisPvxsIoc.Runtime.NDArray

/-!
# Counting Frames

The three counters of an image PV: frames that could not be parsed, frame numbers that were
skipped, and discontinuities.  Until the runtime is committed they are kept beside it and then
added to the shared statistics once.

What a step means for the counters is an action on a small ledger (`step_ledger`); the results
are about runs of the ledger and are read back for runs of the runtime.

## Main results

- `gapCounts_same`, `gapCounts_distance`: the gap in front of a frame
- `frameAccounting`: what is counted along a run, and that it adds up to the distance
- `statsCountedOnce`: what the shared statistics receive from one runtime
-/

namespace RedisPvxsIoc.Runtime.NDArray

open Foundations

/-! ## Frames and what they count -/

/-- A frame that a live runtime met in the reader's epoch, with the ceiling in force; `id` is
    `none` when it could not be parsed. -/
structure SeenFrame where
  epoch : Nat
  id : Option (BitVec 32)
  maxFrameGap : Nat
  deriving DecidableEq, Repr

/-- What a good frame counts, given epoch and number of the good frame before it. -/
def gapCounts (last : Option (Nat × BitVec 32)) (epoch : Nat) (id : BitVec 32)
    (maxFrameGap : Nat) : FrameCounts :=
  match last with
  | none => {}
  | some (lastEpoch, lastId) =>
    if lastEpoch = epoch then
      let gap := assessNDArrayFrameGap lastId id maxFrameGap
      { skipped := gap.skipped, discontinuities := if gap.discontinuity then 1 else 0 }
    else {}

namespace SeenFrame

def counts (f : SeenFrame) (last : Option (Nat × BitVec 32)) : FrameCounts :=
  match f.id with
  | none => { invalid := 1 }
  | some id => gapCounts last f.epoch id f.maxFrameGap

/-- The last good frame after this one. -/
def next (f : SeenFrame) (last : Option (Nat × BitVec 32)) : Option (Nat × BitVec 32) :=
  match f.id with
  | none => last
  | some id => some (f.epoch, id)

end SeenFrame

/-- What a sequence of frames counts. -/
def frameTotals (last : Option (Nat × BitVec 32)) : List SeenFrame → FrameCounts
  | [] => {}
  | f :: fs => (f.counts last).add (frameTotals (f.next last) fs)

def lastGood (last : Option (Nat × BitVec 32)) (fs : List SeenFrame) : Option (Nat × BitVec 32) :=
  fs.foldl (fun last f => f.next last) last

namespace FrameCounts

@[simp] theorem add_zero (x : FrameCounts) : x.add {} = x := rfl

@[simp] theorem zero_add (x : FrameCounts) : FrameCounts.add {} x = x := by
  simp [FrameCounts.add]

theorem add_assoc (x y z : FrameCounts) : (x.add y).add z = x.add (y.add z) := by
  simp [FrameCounts.add, Nat.add_assoc]

theorem add_comm (x y : FrameCounts) : x.add y = y.add x := by
  simp [FrameCounts.add, Nat.add_comm]

/-- What was counted between two readings. -/
def since (x y : FrameCounts) : FrameCounts :=
  { invalid := x.invalid - y.invalid
    skipped := x.skipped - y.skipped
    discontinuities := x.discontinuities - y.discontinuities }

@[simp] theorem since_add (x y : FrameCounts) : (x.add y).since x = y := by
  simp [since, FrameCounts.add]

end FrameCounts

theorem frameTotals_concat (last : Option (Nat × BitVec 32)) (fs : List SeenFrame)
    (f : SeenFrame) :
    frameTotals last (fs ++ [f]) = (frameTotals last fs).add (f.counts (lastGood last fs)) := by
  induction fs generalizing last with
  | nil => simp [frameTotals, lastGood]
  | cons g fs ih =>
    rw [List.cons_append, frameTotals, ih, frameTotals, FrameCounts.add_assoc]
    rfl

theorem lastGood_concat (last : Option (Nat × BitVec 32)) (fs : List SeenFrame) (f : SeenFrame) :
    lastGood last (fs ++ [f]) = f.next (lastGood last fs) := by
  simp [lastGood]

/-! ## The ledger -/

/-- The part of a runtime that its counters depend on. -/
structure Ledger where
  alive : Bool
  committed : Bool
  stats : FrameCounts
  pending : FrameCounts
  /-- Epoch and number of the last good frame. -/
  last : Option (Nat × BitVec 32)

inductive LedgerAction where
  | silent
  | activate
  | deactivate
  | frame (f : SeenFrame)

namespace Ledger

/-- All that was counted, wherever it is kept. -/
def total (l : Ledger) : FrameCounts := l.stats.add l.pending

def count (l : Ledger) (c : FrameCounts) : Ledger :=
  if l.committed then { l with stats := l.stats.add c }
  else { l with pending := l.pending.add c }

def act (l : Ledger) : LedgerAction → Ledger
  | .silent => l
  | .activate =>
    if l.committed || !l.alive then l
    else { l with committed := true, stats := l.total, pending := {} }
  | .deactivate => if l.alive then { l with alive := false, committed := false } else l
  | .frame f => { l.count (f.counts l.last) with last := f.next l.last }

end Ledger

/-! ## The runtime keeps the ledger -/

variable {P Id : Type} {s s' : State P Id}

def State.ledger (s : State P Id) : Ledger :=
  { alive := s.alive
    committed := s.committed
    stats := s.stats
    pending := s.pending
    last := if s.haveGoodFrame then some (s.sample.epoch, s.lastUniqueId) else none }

/-- The frame that an entry of a batch is, as the ledger sees it. -/
def State.seenFrame (s : State P Id) (d : Delivery P Id) (entry : StreamEntry P Id) : SeenFrame :=
  { epoch := d.metadata.epoch
    id := entry.frame.toOption.map NDArrayFrame.uniqueId
    maxFrameGap := s.config.maxFrameGap }

/-- Whether the runtime looks at the frames of a batch. -/
def State.accepts (s : State P Id) (d : Delivery P Id) : Bool :=
  s.alive && (handleStatus s.reader).epoch == d.metadata.epoch

def State.ledgerAction (s : State P Id) : Label P Id → LedgerAction
  | .activate => .activate
  | .deactivate => .deactivate
  | .deliver i _ =>
    match s.deliveries[i]? with
    | none => .silent
    | some d =>
      match d.entries with
      | [] => .silent
      | entry :: _ => if s.accepts d then .frame (s.seenFrame d entry) else .silent
  | _ => .silent

theorem count_ledger (c : FrameCounts) : (s.count c).ledger = s.ledger.count c := by
  unfold State.count Ledger.count State.ledger
  cases hcommitted : s.committed <;> simp

/-- The gap that the runtime assesses is the one in front of the last good frame. -/
theorem frameGap_counts (epoch : Nat) (frame : NDArrayFrame P) :
    ({ skipped := (s.frameGap epoch frame).skipped
       discontinuities := if (s.frameGap epoch frame).discontinuity then 1 else 0 } :
      FrameCounts) = gapCounts s.ledger.last epoch frame.uniqueId s.config.maxFrameGap := by
  unfold State.frameGap gapCounts State.ledger
  cases s.haveGoodFrame with
  | false => simp
  | true =>
    by_cases hepoch : s.sample.epoch = epoch
    · simp [hepoch]
    · simp [hepoch]

theorem acceptFrame_ledger (d : Delivery P Id) (entry : StreamEntry P Id) (frame : NDArrayFrame P)
    (now : Nat) :
    (s.acceptFrame d entry frame now).ledger =
      { s.ledger.count (gapCounts s.ledger.last d.metadata.epoch frame.uniqueId
          s.config.maxFrameGap) with
        last := some (d.metadata.epoch, frame.uniqueId) } := by
  rw [← frameGap_counts, ← count_ledger]
  rfl

theorem rejectFrame_ledger (d : Delivery P Id) (entry : StreamEntry P Id) (error : String)
    (now : Nat) :
    (s.rejectFrame d entry error now).ledger = s.ledger.count { invalid := 1 } := by
  rw [← count_ledger]
  rfl

theorem Ledger.act_malformed (l : Ledger) {f : SeenFrame} (h : f.id = none) :
    l.act (.frame f) = l.count { invalid := 1 } := by
  simp only [Ledger.act, SeenFrame.counts, SeenFrame.next, h]
  unfold Ledger.count
  split <;> rfl

theorem handleEntry_ledger (d : Delivery P Id) (entry : StreamEntry P Id) (now : Nat) :
    (s.handleEntry d entry now).1.ledger = s.ledger.act
      (if s.accepts d then .frame (s.seenFrame d entry) else .silent) := by
  unfold State.handleEntry State.accepts
  by_cases halive : s.alive = true
  · by_cases hepoch : (handleStatus s.reader).epoch = d.metadata.epoch
    · rw [if_neg (by simp [halive]), if_neg (not_not.mpr hepoch), if_pos (by simp [halive, hepoch])]
      cases hframe : entry.frame with
      | ok frame =>
        rw [acceptFrame_ledger]
        simp [Ledger.act, SeenFrame.counts, SeenFrame.next, State.seenFrame, hframe,
          Except.toOption]
      | error error =>
        rw [rejectFrame_ledger, Ledger.act_malformed]
        simp [State.seenFrame, hframe, Except.toOption]
    · rw [if_neg (by simp [halive]), if_pos hepoch, if_neg (by simp [hepoch])]
      rfl
  · rw [if_pos (by simp [halive]), if_neg (by simp [halive])]
    rfl

theorem tick_ledger (now : Nat) : (s.sourceHealth now).1.ledger = s.ledger := by
  unfold State.sourceHealth
  dsimp only
  split <;> rfl

/-- **Every step of the runtime is its action on the ledger.** -/
theorem step_ledger {a : Label P Id} (hstep : step s a = some s') :
    s'.ledger = s.ledger.act (s.ledgerAction a) := by
  cases a with
  | prepare config generation publisher =>
    simp only [step, State.prepareReconfigure] at hstep
    split at hstep <;> cases hstep
    rfl
  | commit i =>
    obtain ⟨update, -, rfl⟩ := Option.map_eq_some_iff.mp hstep
    rfl
  | refresh =>
    cases hstep
    unfold State.refresh
    split <;> rfl
  | activate =>
    cases hstep
    simp only [State.activate, State.ledgerAction, Ledger.act]
    cases hcommitted : s.committed <;> cases halive : s.alive <;>
      simp [State.ledger, hcommitted, halive, Ledger.total]
  | deactivate =>
    cases hstep
    simp only [State.deactivate, State.ledgerAction, Ledger.act]
    cases halive : s.alive <;> simp [State.ledger, halive]
  | reader event =>
    obtain ⟨r, -, rfl⟩ := Option.map_eq_some_iff.mp hstep
    rfl
  | read entries =>
    obtain ⟨r, -, rfl⟩ := Option.map_eq_some_iff.mp hstep
    rfl
  | deliver i now =>
    simp only [step, State.deliver] at hstep
    simp only [State.ledgerAction]
    cases hd : s.deliveries[i]? with
    | none => simp [hd] at hstep
    | some d =>
      simp only [hd] at hstep
      split at hstep
      · cases hstep
      · cases hentries : d.entries with
        | nil =>
          simp only [hentries, Option.some.injEq] at hstep ⊢
          subst hstep
          rfl
        | cons entry rest =>
          simp only [hentries, Option.some.injEq] at hstep ⊢
          subst hstep
          exact handleEntry_ledger d entry now
  | tick now =>
    cases hstep
    exact tick_ledger now

/-- The snapshot as a frame of the first epoch. -/
def Startup.frames (u : Startup P Id) : List SeenFrame :=
  match u.snapshot with
  | none => []
  | some entry =>
    [{ epoch := 1
       id := entry.frame.toOption.map NDArrayFrame.uniqueId
       maxFrameGap := u.config.maxFrameGap }]

theorem start_ledger (u : Startup P Id) :
    (initializeRuntime u).ledger =
      { alive := true
        committed := false
        stats := {}
        pending := frameTotals none u.frames
        last := lastGood none u.frames } := by
  unfold initializeRuntime Startup.frames
  cases u.snapshot with
  | none => rfl
  | some entry =>
    cases hframe : entry.frame with
    | ok frame => simp only [hframe]; rfl
    | error error => simp only [hframe]; rfl

/-! ## What the shared statistics receive -/

namespace LedgerAction

def frames : LedgerAction → List SeenFrame
  | .frame f => [f]
  | _ => []

def activates : LedgerAction → Bool
  | .activate => true
  | _ => false

end LedgerAction

/-- The frames that a runtime has met, and whether it was ever activated while it was alive. -/
structure FrameHistory where
  frames : List SeenFrame
  activated : Bool

def FrameHistory.note (h : FrameHistory) (alive : Bool) (action : LedgerAction) : FrameHistory :=
  { frames := h.frames ++ action.frames
    activated := h.activated || (alive && action.activates) }

/-- The history of a run. -/
def frameHistory (u : Startup P Id) (as : List (Label P Id)) : FrameHistory :=
  machine.record (fun s a _ h => h.note s.alive (s.ledgerAction a))
    { frames := u.frames, activated := false } (initializeRuntime u) as

/-- The books are right: everything that was counted is there once, and it is in the shared
    statistics exactly if the runtime was activated. -/
structure Accounted (l : Ledger) (h : FrameHistory) : Prop where
  total : l.total = frameTotals none h.frames
  last : l.last = lastGood none h.frames
  staged : h.activated = false → l.stats = {} ∧ l.committed = false
  shared : h.activated = true → l.pending = {} ∧ (l.alive = true → l.committed = true)

theorem Ledger.count_total (l : Ledger) (c : FrameCounts) :
    (l.count c).total = l.total.add c := by
  unfold Ledger.count Ledger.total
  split
  · rw [FrameCounts.add_assoc, FrameCounts.add_comm c, FrameCounts.add_assoc]
  · rw [FrameCounts.add_assoc]

theorem accounted_start (u : Startup P Id) :
    Accounted (initializeRuntime u).ledger { frames := u.frames, activated := false } := by
  rw [start_ledger]
  exact ⟨FrameCounts.zero_add _, rfl, fun _ => ⟨rfl, rfl⟩, fun h => by cases h⟩

variable {l : Ledger}

theorem accounted_frame {h : FrameHistory} (hacc : Accounted l h) (halive : l.alive = true)
    (f : SeenFrame) :
    Accounted (l.act (.frame f)) (h.note l.alive (.frame f)) := by
  obtain ⟨frames, activated⟩ := h
  have hactivated : (FrameHistory.note ⟨frames, activated⟩ l.alive (.frame f)).activated =
      activated := by
    simp [FrameHistory.note, LedgerAction.activates]
  refine ⟨?_, ?_, ?_, ?_⟩
  · calc (l.act (.frame f)).total = (l.count (f.counts l.last)).total := rfl
      _ = l.total.add (f.counts l.last) := l.count_total _
      _ = frameTotals none (frames ++ [f]) := by rw [frameTotals_concat, hacc.total, hacc.last]
  · calc (l.act (.frame f)).last = f.next l.last := rfl
      _ = lastGood none (frames ++ [f]) := by rw [lastGood_concat, hacc.last]
  · rw [hactivated]
    intro hstaged
    -- a staged runtime is not committed, so the frame is counted beside it
    obtain ⟨hstats, hcommitted⟩ := hacc.staged hstaged
    simp [Ledger.act, Ledger.count, hcommitted, hstats]
  · rw [hactivated]
    intro hshared
    obtain ⟨hpending, hcommitted⟩ := hacc.shared hshared
    simp [Ledger.act, Ledger.count, hcommitted halive, hpending]

theorem accounted_act {h : FrameHistory} (hacc : Accounted l h) {action : LedgerAction}
    (hlive : ∀ f, action = .frame f → l.alive = true) :
    Accounted (l.act action) (h.note l.alive action) := by
  cases action with
  | silent => simpa [Ledger.act, FrameHistory.note, LedgerAction.frames, LedgerAction.activates]
      using hacc
  | frame f => exact accounted_frame hacc (hlive f rfl) f
  | deactivate =>
    have hnote : h.note l.alive .deactivate = h := by
      simp [FrameHistory.note, LedgerAction.frames, LedgerAction.activates]
    rw [hnote]
    cases halive : l.alive with
    | false => simpa [Ledger.act, halive] using hacc
    | true =>
      simp only [Ledger.act, halive, if_true]
      exact ⟨hacc.total, hacc.last, fun hs => ⟨(hacc.staged hs).1, rfl⟩,
        fun hs => ⟨(hacc.shared hs).1, fun h => by cases h⟩⟩
  | activate =>
    cases halive : l.alive with
    | false =>
      have hnote : h.note false .activate = h := by
        simp [FrameHistory.note, LedgerAction.frames]
      rw [hnote]
      simpa [Ledger.act, halive] using hacc
    | true =>
      have hnote : h.note true .activate = { h with activated := true } := by
        simp [FrameHistory.note, LedgerAction.frames, LedgerAction.activates]
      rw [hnote]
      cases hcommitted : l.committed with
      | true =>
        -- only an activation commits, so the books were closed already
        have hactivated : h.activated = true := by
          cases hstaged : h.activated with
          | true => rfl
          | false => exact absurd ((hacc.staged hstaged).2.symm.trans hcommitted) (by decide)
        simp only [Ledger.act, hcommitted, Bool.true_or, if_true]
        exact ⟨hacc.total, hacc.last, (fun h => by cases h), fun _ => hacc.shared hactivated⟩
      | false =>
        simp only [Ledger.act, hcommitted, halive, Bool.not_true, Bool.or_self, Bool.false_eq_true,
          if_false]
        exact ⟨hacc.total, hacc.last, (fun h => by cases h), fun _ => ⟨rfl, fun _ => rfl⟩⟩

/-- Only a live runtime meets frames. -/
theorem alive_of_frame {a : Label P Id} {f : SeenFrame} (h : s.ledgerAction a = .frame f) :
    s.alive = true := by
  unfold State.ledgerAction at h
  split at h
  · cases h
  · cases h
  · split at h
    · cases h
    · split at h
      · cases h
      · split at h
        · rename_i haccepts
          exact (Bool.and_eq_true _ _ ▸ haccepts).1
        · cases h
  · cases h

variable {t : State P Id}

theorem accounted_exec {u : Startup P Id} {as : List (Label P Id)}
    (hrun : machine.exec (initializeRuntime u) as = some t) :
    Accounted t.ledger (frameHistory u as) := by
  refine machine.exec_record_invariant (P := fun s h => Accounted s.ledger h) ?_
    (accounted_start u) hrun
  intro s a s' h hacc hstep
  rw [step_ledger hstep]
  exact accounted_act hacc fun f hf => alive_of_frame hf

/-- A retired runtime adds nothing. -/
theorem stats_retired {t' : State P Id} (hdead : t.alive = false) {bs : List (Label P Id)}
    (hrun : machine.exec t bs = some t') : t'.stats = t.stats := by
  have hend : t'.ledger.alive = false ∧ t'.ledger.stats = t.stats := by
    refine machine.exec_invariant (P := fun s => s.ledger.alive = false ∧ s.ledger.stats = t.stats)
      ?_ ⟨hdead, rfl⟩ hrun
    rintro s a s' ⟨halive, hstats⟩ hstep
    rw [step_ledger hstep]
    cases haction : s.ledgerAction a with
    | silent => exact ⟨halive, hstats⟩
    | activate => simpa [Ledger.act, halive] using hstats
    | deactivate => simpa [Ledger.act, halive] using hstats
    | frame f => exact absurd ((alive_of_frame haction).symm.trans halive) (by decide)
  exact hend.2

/-- **The statistics of a staged runtime are counted once or not at all**: nothing before it is
    activated while it lives, from then on all that its frames count since its construction, and
    nothing more once it is retired. -/
theorem statsCountedOnce {u : Startup P Id} {as : List (Label P Id)} {t : State P Id}
    (hrun : machine.exec (initializeRuntime u) as = some t) :
    ((frameHistory u as).activated = false → t.stats = {}) ∧
      ((frameHistory u as).activated = true → t.stats = frameTotals none (frameHistory u as).frames) ∧
      (t.alive = false → ∀ bs t', machine.exec t bs = some t' → t'.stats = t.stats) := by
  have hacc := accounted_exec hrun
  refine ⟨fun hstaged => (hacc.staged hstaged).1, ?_, fun hdead _ _ => stats_retired hdead⟩
  intro hshared
  have hpending : t.pending = {} := (hacc.shared hshared).1
  calc t.stats = t.stats.add t.pending := by rw [hpending, FrameCounts.add_zero]
    _ = frameTotals none (frameHistory u as).frames := hacc.total

/-- An image PV whose snapshot has the last but one positive frame number. -/
def rollingImage : Startup Unit Nat where
  fullName := "NS:IMAGE"
  config := { name := "IMAGE", read := { backend := "default", key := "k" } }
  generation := 1
  probeMs := 0
  publisher := none
  snapshot := some { id := 1, frame := .ok { uniqueId := 0x7ffffffe, content := () } }
  status := { active := true, connected := true, streamKind := .stream }
  now := 1
  now_pos := Nat.one_pos

/-- Two numbers are missing over the rollover, a malformed frame and a repeated one follow;
    then the runtime is activated. -/
def rolledOver : List (Label Unit Nat) :=
  [.read [{ id := 2, frame := .ok { uniqueId := 0x80000001, content := () } },
          { id := 3, frame := .error "unsupported schema" },
          { id := 4, frame := .ok { uniqueId := 0x80000001, content := () } }],
   .deliver 0 10,
   .deliver 0 11,
   .deliver 0 12,
   .activate]

theorem statsCountedOnce_late :
    ∃ t : State Unit Nat, machine.exec (initializeRuntime rollingImage) rolledOver = some t ∧
      t.stats = { invalid := 1, skipped := 2 } := by
  have hrun : (machine.exec (initializeRuntime rollingImage) rolledOver).isSome = true := by
    decide +kernel
  obtain ⟨t, ht⟩ := Option.isSome_iff_exists.mp hrun
  refine ⟨t, ht, ?_⟩
  rw [(statsCountedOnce ht).2.1 (by decide +kernel)]
  decide +kernel

/-! ## Gaps add up to distances -/

/-- A good frame of a run with what the counters gained when it was processed. -/
structure CountedFrame where
  epoch : Nat
  id : BitVec 32
  maxFrameGap : Nat
  counted : FrameCounts
  deriving DecidableEq, Repr

def SeenFrame.counted? (f : SeenFrame) (counted : FrameCounts) : Option CountedFrame :=
  f.id.map fun id => { epoch := f.epoch, id, maxFrameGap := f.maxFrameGap, counted }

/-- The good frames of a run; the snapshot was counted when the runtime was constructed. -/
def countedFrames (u : Startup P Id) (as : List (Label P Id)) : List CountedFrame :=
  machine.record
    (fun s a s' fs => fs ++ (s.ledgerAction a).frames.filterMap fun f =>
      f.counted? (s'.ledger.total.since s.ledger.total))
    (u.frames.filterMap fun f => f.counted? (initializeRuntime u).ledger.total)
    (initializeRuntime u) as

/-- Each frame counted the gap in front of it. -/
def GapsCounted : Option (Nat × BitVec 32) → List CountedFrame → Prop
  | _, [] => True
  | last, f :: fs => f.counted = gapCounts last f.epoch f.id f.maxFrameGap ∧
      GapsCounted (some (f.epoch, f.id)) fs

def lastCounted (last : Option (Nat × BitVec 32)) (fs : List CountedFrame) :
    Option (Nat × BitVec 32) :=
  fs.foldl (fun _ f => some (f.epoch, f.id)) last

theorem gapsCounted_append {last : Option (Nat × BitVec 32)} {fs gs : List CountedFrame} :
    GapsCounted last (fs ++ gs) ↔ GapsCounted last fs ∧ GapsCounted (lastCounted last fs) gs := by
  induction fs generalizing last with
  | nil => simp [GapsCounted, lastCounted]
  | cons f fs ih =>
    rw [List.cons_append, GapsCounted, ih, GapsCounted, and_assoc]
    rfl

/-- One more good frame, if the action meets one. -/
theorem gapsCounted_act {fs : List CountedFrame} (hfs : GapsCounted none fs)
    (hlast : l.last = lastCounted none fs) (action : LedgerAction) :
    GapsCounted none (fs ++ action.frames.filterMap fun f =>
      f.counted? ((l.act action).total.since l.total)) ∧
      (l.act action).last = lastCounted none (fs ++ action.frames.filterMap fun f =>
        f.counted? ((l.act action).total.since l.total)) := by
  cases action with
  | silent => simpa [LedgerAction.frames, Ledger.act] using ⟨hfs, hlast⟩
  | activate =>
    simp only [LedgerAction.frames, List.filterMap_nil, List.append_nil, Ledger.act]
    split <;> exact ⟨hfs, hlast⟩
  | deactivate =>
    simp only [LedgerAction.frames, List.filterMap_nil, List.append_nil, Ledger.act]
    split <;> exact ⟨hfs, hlast⟩
  | frame f =>
    have htotal : (l.act (.frame f)).total = l.total.add (f.counts l.last) := l.count_total _
    cases hid : f.id with
    | none => simpa [LedgerAction.frames, SeenFrame.counted?, hid, Ledger.act, SeenFrame.next]
        using ⟨hfs, hlast⟩
    | some id =>
      rw [htotal, FrameCounts.since_add]
      simp only [LedgerAction.frames, SeenFrame.counted?, hid, List.filterMap_cons, Option.map_some,
        List.filterMap_nil]
      refine ⟨gapsCounted_append.mpr ⟨hfs, ?_, trivial⟩, ?_⟩
      · rw [← hlast]
        simp only [SeenFrame.counts, hid]
      · simp [lastCounted, Ledger.act, SeenFrame.next, hid]

theorem gapsCounted_exec {u : Startup P Id} {as : List (Label P Id)}
    (hrun : machine.exec (initializeRuntime u) as = some t) :
    GapsCounted none (countedFrames u as) := by
  refine (machine.exec_record_invariant
    (P := fun s fs => GapsCounted none fs ∧ s.ledger.last = lastCounted none fs) ?_ ?_ hrun).1
  · rintro s a s' fs ⟨hfs, hlast⟩ hstep
    rw [step_ledger hstep]
    exact gapsCounted_act hfs hlast _
  · rw [start_ledger]
    unfold Startup.frames
    cases u.snapshot with
    | none => exact ⟨trivial, rfl⟩
    | some entry =>
      cases hframe : entry.frame.toOption with
      | none => simp [SeenFrame.counted?, hframe, GapsCounted, lastCounted, lastGood, SeenFrame.next]
      | some frame =>
        simp [SeenFrame.counted?, hframe, GapsCounted, lastCounted, lastGood, SeenFrame.next,
          Ledger.total, frameTotals, SeenFrame.counts, gapCounts]

/-- What a good frame counts that follows another one in the same epoch. -/
structure GapLaw (f g : CountedFrame) : Prop where
  skipped_le : g.counted.skipped ≤ g.maxFrameGap
  repeated : g.id = f.id → g.counted = {}
  discontinuity : g.counted.discontinuities =
    if 2 ^ 31 ≤ (g.id - f.id).toNat ∨ g.maxFrameGap + 1 < (g.id - f.id).toNat then 1 else 0

/-- The gap in front of a frame, by the distance from the frame before it. -/
theorem assess_cases (previous current : BitVec 32) (maxFrameGap : Nat) :
    ((current - previous).toNat ≤ 1 ∧
      assessNDArrayFrameGap previous current maxFrameGap = {}) ∨
    ((2 ^ 31 ≤ (current - previous).toNat ∨ maxFrameGap + 1 < (current - previous).toNat) ∧
      assessNDArrayFrameGap previous current maxFrameGap = { discontinuity := true }) ∨
    (1 < (current - previous).toNat ∧ (current - previous).toNat < 2 ^ 31 ∧
      (current - previous).toNat ≤ maxFrameGap + 1 ∧
      assessNDArrayFrameGap previous current maxFrameGap =
        { skipped := (current - previous).toNat - 1 }) := by
  unfold assessNDArrayFrameGap
  generalize (current - previous).toNat = step
  dsimp only
  split_ifs with hnear hfar
  · exact .inl ⟨hnear, rfl⟩
  · simp only [Bool.or_eq_true, decide_eq_true_eq] at hfar
    exact .inr (.inl ⟨by omega, rfl⟩)
  · simp only [Bool.or_eq_true, decide_eq_true_eq, not_or] at hfar
    exact .inr (.inr ⟨by omega, by omega, by omega, rfl⟩)

theorem gapLaw_of_counted {f g : CountedFrame} (hepoch : g.epoch = f.epoch)
    (h : g.counted = gapCounts (some (f.epoch, f.id)) g.epoch g.id g.maxFrameGap) :
    GapLaw f g := by
  simp only [gapCounts, hepoch, if_true] at h
  have hself : g.id = f.id → (g.id - f.id).toNat ≤ 1 := by
    intro hid
    simp [hid]
  rcases assess_cases f.id g.id g.maxFrameGap with ⟨hnear, hgap⟩ | ⟨hfar, hgap⟩ |
    ⟨hlow, hhigh, hceiling, hgap⟩
  · refine ⟨by simp [h, hgap], fun _ => by simp [h, hgap], ?_⟩
    rw [if_neg (by omega), h, hgap]
    rfl
  · refine ⟨by simp [h, hgap], fun hid => absurd (hself hid) (by omega), ?_⟩
    rw [if_pos hfar, h, hgap]
    rfl
  · refine ⟨?_, fun hid => absurd (hself hid) (by omega), ?_⟩
    · rw [h, hgap]
      dsimp only
      omega
    · rw [if_neg (by omega), h, hgap]
      rfl

/-- Without a discontinuity the numbers skipped, and one for a frame with another number than
    the one before it, are the distance. -/
theorem distance_of_counted {f g : CountedFrame} (hepoch : g.epoch = f.epoch)
    (h : g.counted = gapCounts (some (f.epoch, f.id)) g.epoch g.id g.maxFrameGap)
    (hjoined : g.counted.discontinuities = 0) :
    BitVec.ofNat 32 (g.counted.skipped + if g.id = f.id then 0 else 1) = g.id - f.id := by
  simp only [gapCounts, hepoch, if_true] at h
  have hofNat : BitVec.ofNat 32 (g.id - f.id).toNat = g.id - f.id := by
    rw [BitVec.ofNat_toNat, BitVec.setWidth_eq]
  rcases assess_cases f.id g.id g.maxFrameGap with ⟨hnear, hgap⟩ | ⟨-, hgap⟩ |
    ⟨hlow, -, -, hgap⟩
  · rw [h, hgap]
    by_cases hid : g.id = f.id
    · simp [hid]
    · have hone : (g.id - f.id).toNat = 1 := by
        have hne : (g.id - f.id).toNat ≠ 0 := by
          intro hzero
          exact hid (by bv_omega)
        omega
      rw [if_neg hid, ← hofNat, hone]
  · rw [h, hgap] at hjoined
    cases hjoined
  · have hid : g.id ≠ f.id := by
      intro hid
      simp [hid] at hlow
    rw [h, hgap, if_neg hid]
    have hsum : (g.id - f.id).toNat - 1 + 1 = (g.id - f.id).toNat := by omega
    dsimp only
    rw [hsum, hofNat]

/-- How far the counters say that the frame numbers moved over a segment. -/
def countedDistance (previous : BitVec 32) : List CountedFrame → Nat
  | [] => 0
  | f :: fs => f.counted.skipped + (if f.id = previous then 0 else 1) + countedDistance f.id fs

def lastId (previous : BitVec 32) (fs : List CountedFrame) : BitVec 32 :=
  fs.foldl (fun _ f => f.id) previous

theorem countedDistance_eq {first : CountedFrame} {segment : List CountedFrame}
    (hcounted : GapsCounted (some (first.epoch, first.id)) segment)
    (hsegment : ∀ f ∈ segment, f.epoch = first.epoch ∧ f.counted.discontinuities = 0) :
    BitVec.ofNat 32 (countedDistance first.id segment) = lastId first.id segment - first.id := by
  induction segment generalizing first with
  | nil => simp [countedDistance, lastId]
  | cons f segment ih =>
    obtain ⟨⟨hepoch, hjoined⟩, hrest⟩ := List.forall_mem_cons.mp hsegment
    have hhead := distance_of_counted hepoch hcounted.1 hjoined
    have htail := ih hcounted.2 fun g hg => ⟨(hrest g hg).1.trans hepoch.symm, (hrest g hg).2⟩
    rw [countedDistance, BitVec.ofNat_add, hhead, htail]
    show f.id - first.id + (lastId f.id segment - f.id) = lastId f.id segment - first.id
    bv_omega

/-- The laws of the counters over the good frames of a run. -/
structure FrameAccounting (frames : List CountedFrame) : Prop where
  first : ∀ f ∈ frames.head?, f.counted = ({} : FrameCounts)
  newEpoch : ∀ before f g after, frames = before ++ f :: g :: after → g.epoch ≠ f.epoch →
    g.counted = ({} : FrameCounts)
  step : ∀ before f g after, frames = before ++ f :: g :: after → g.epoch = f.epoch → GapLaw f g
  segment : ∀ before first segment after, frames = before ++ first :: (segment ++ after) →
    (∀ f ∈ segment, f.epoch = first.epoch ∧ f.counted.discontinuities = 0) →
    BitVec.ofNat 32 (countedDistance first.id segment) = lastId first.id segment - first.id

theorem GapsCounted.accounting {frames : List CountedFrame} (h : GapsCounted none frames) :
    FrameAccounting frames where
  first := by
    cases frames with
    | nil => simp
    | cons f fs => simpa [gapCounts] using h.1
  newEpoch := by
    rintro before f g after rfl hepoch
    obtain ⟨-, -, hg, -⟩ := gapsCounted_append.mp h
    rw [hg, gapCounts, if_neg (Ne.symm hepoch)]
  step := by
    rintro before f g after rfl hepoch
    obtain ⟨-, -, hg, -⟩ := gapsCounted_append.mp h
    exact gapLaw_of_counted hepoch hg
  segment := by
    rintro before first segment after rfl hsegment
    obtain ⟨-, -, hrest⟩ := gapsCounted_append.mp h
    exact countedDistance_eq (gapsCounted_append.mp hrest).1 hsegment

/-- **Frame-loss accounting telescopes**: between discontinuities the counters of a run add up
    to the distance between the frame numbers, modulo 2³². -/
theorem frameAccounting {u : Startup P Id} {as : List (Label P Id)} {t : State P Id}
    (hrun : machine.exec (initializeRuntime u) as = some t) :
    FrameAccounting (countedFrames u as) :=
  (gapsCounted_exec hrun).accounting

/-- Over the rollover the counters say that the numbers moved by three. -/
theorem frameAccounting_rollover :
    (countedFrames rollingImage rolledOver).map CountedFrame.id =
      [0x7ffffffe, 0x80000001, 0x80000001] ∧
    FrameAccounting (countedFrames rollingImage rolledOver) := by
  have hrun : (machine.exec (initializeRuntime rollingImage) rolledOver).isSome = true := by
    decide +kernel
  obtain ⟨t, ht⟩ := Option.isSome_iff_exists.mp hrun
  exact ⟨by decide +kernel, frameAccounting ht⟩

end RedisPvxsIoc.Runtime.NDArray
