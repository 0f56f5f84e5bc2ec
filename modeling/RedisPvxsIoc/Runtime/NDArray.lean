import RedisPvxsIoc.Runtime.Value
import RedisPvxsIoc.Runtime.SourceHealth

/-!
# The Runtime of an Image PV

Model of `NDArrayRuntime` in `src/runtime.cpp`: a read-only PV whose entries are image
frames.  Every public call and every turn of `handleRead` is one section of its mutex, so
the labels are those sections.

A frame is its `uniqueId` and the rest (`P`: pixels, dimensions, acquisition time); parsing
is decided by the entry.  `log` is a ghost.
-/

namespace RedisPvxsIoc.Runtime.NDArray

open Config Foundations
open Alarm (AlarmState)

/-! ## Data -/

structure NDArrayFrame (P : Type) where
  uniqueId : BitVec 32
  content : P
  deriving DecidableEq, Repr

structure NDArrayFrameGap where
  skipped : Nat := 0
  discontinuity : Bool := false
  deriving DecidableEq, Repr

/-- Serial arithmetic on 32-bit frame numbers. -/
def assessNDArrayFrameGap (previous current : BitVec 32) (maxFrameGap : Nat) : NDArrayFrameGap :=
  let step := (current - previous).toNat
  if step ≤ 1 then {}
  else if 0x80000000 ≤ step || maxFrameGap < step - 1 then { discontinuity := true }
  else { skipped := step - 1 }

/-- An entry of the stream: `frame` is the result of parsing it and of building its value, an
    error being the first 512 bytes of the exception's text. -/
structure StreamEntry (P Id : Type) where
  id : Id
  frame : Except String (NDArrayFrame P)

structure Delivery (P Id : Type) where
  metadata : StreamBatchMetadata
  entries : List (StreamEntry P Id)
  /-- Ghost: when the batch was read. -/
  readAt : Nat

/-- The content of the served PV; there is no frame before the first good one. -/
structure Served (P : Type) where
  frame : Option (NDArrayFrame P)
  alarm : AlarmState

/-- The counters of `RuntimeStats`, or of a runtime that is not committed yet. -/
structure FrameCounts where
  invalid : Nat := 0
  skipped : Nat := 0
  discontinuities : Nat := 0
  deriving DecidableEq, Repr

def FrameCounts.add (x y : FrameCounts) : FrameCounts :=
  { invalid := x.invalid + y.invalid
    skipped := x.skipped + y.skipped
    discontinuities := x.discontinuities + y.discontinuities }

structure Update where
  config : PVConfig
  generation : Nat
  publisher : Option Nat
  alarm : Option Nat

structure State (P Id : Type) where
  fullName : String
  probeMs : Nat
  config : PVConfig
  generation : Nat
  alive : Bool := true
  committed : Bool := false
  reader : Option Reader
  sample : SourceSampleState Id := {}
  healthError : String := ""
  currentAlarm : AlarmState
  haveGoodFrame : Bool := false
  lastUniqueId : BitVec 32 := 0
  pending : FrameCounts := {}
  /-- What this runtime has added to the shared statistics. -/
  stats : FrameCounts := {}
  pv : Served P
  alarm : AlarmLink := {}
  updates : List Update := []
  deliveries : List (Delivery P Id) := []
  /-- Ghost: the entries that passed the epoch check. -/
  log : List (Processed (NDArrayFrame P) Id) := []

variable {P Id : Type}

namespace State

def serving (s : State P Id) : Bool := s.alive && s.committed

/-- `publishAlarmLocked` -/
def publishAlarm (s : State P Id) : State P Id :=
  { s with alarm := s.alarm.publish s.serving s.currentAlarm }

/-- Frame counts go to the shared statistics once the runtime is committed. -/
def count (s : State P Id) (c : FrameCounts) : State P Id :=
  { s with
    stats := if s.committed then s.stats.add c else s.stats
    pending := if s.committed then s.pending else s.pending.add c }

/-! ## Deliveries -/

/-- The alarm of a frame, given what the reader did since the frame was read. -/
def frameAlarm (healthError : String) : AlarmState :=
  if healthError = "" then noAlarm else invalidAlarm healthError

def processed (d : Delivery P Id) (entry : StreamEntry P Id) (value : Option (NDArrayFrame P))
    (now : Nat) : Processed (NDArrayFrame P) Id :=
  { id := entry.id, value := value, metadata := d.metadata, readAt := d.readAt, received := now }

/-- The gap in front of a frame; the first good frame of an epoch has none. -/
def frameGap (s : State P Id) (epoch : Nat) (frame : NDArrayFrame P) : NDArrayFrameGap :=
  let newEpoch := s.sample.epoch != epoch
  if s.haveGoodFrame && !newEpoch then
    assessNDArrayFrameGap s.lastUniqueId frame.uniqueId s.config.maxFrameGap
  else {}

/-- A good frame in the current epoch. -/
def acceptFrame (s : State P Id) (d : Delivery P Id) (entry : StreamEntry P Id)
    (frame : NDArrayFrame P) (now : Nat) : State P Id :=
  let gap := s.frameGap d.metadata.epoch frame
  let healthError := batchHealthError (handleStatus s.reader) d.metadata
  let s := s.count
    { skipped := gap.skipped, discontinuities := if gap.discontinuity then 1 else 0 }
  publishAlarm { s with
    lastUniqueId := frame.uniqueId
    haveGoodFrame := true
    sample := { s.sample.accept entry.id d.metadata.epoch now with
      acceptedReadRejections := d.metadata.readRejections }
    healthError := healthError
    currentAlarm := frameAlarm healthError
    pv := { frame := some frame, alarm := frameAlarm healthError }
    log := s.log ++ [processed d entry (some frame) now] }

/-- A frame that could not be parsed: the last good one stays, with an invalid alarm. -/
def rejectFrame (s : State P Id) (d : Delivery P Id) (entry : StreamEntry P Id)
    (error : String) (now : Nat) : State P Id :=
  let s := s.count { invalid := 1 }
  publishAlarm { s with
    currentAlarm := invalidAlarm error
    sample := s.sample.reject error d.metadata.epoch
    pv := { s.pv with alarm := invalidAlarm error }
    log := s.log ++ [processed d entry none now] }

/-- One turn of the loop in `handleRead`, with the answer of `acceptEpochLocked`. -/
def handleEntry (s : State P Id) (d : Delivery P Id) (entry : StreamEntry P Id) (now : Nat) :
    State P Id × Bool :=
  if !s.alive then (s, false)
  else if (handleStatus s.reader).epoch ≠ d.metadata.epoch then
    ({ s with sample := s.sample.countStale }, false)
  else match entry.frame with
    | .ok frame => (s.acceptFrame d entry frame now, true)
    | .error error => (s.rejectFrame d entry error now, true)

/-- The batch after a turn of the loop: its other entries remain unless the loop returned. -/
def finishTurn (s : State P Id) (i : Nat) (d : Delivery P Id) (rest : List (StreamEntry P Id))
    (turn : State P Id × Bool) : State P Id :=
  let s' := turn.1
  { s' with deliveries :=
      if turn.2 then s.deliveries.set i { d with entries := rest } else s.deliveries.eraseIdx i }

/-- The next turn of `handleRead` for a batch. -/
def deliver (s : State P Id) (i now : Nat) : Option (State P Id) :=
  match s.deliveries[i]? with
  | none => none
  | some d =>
    if now == 0 then none
    else match d.entries with
      | [] => some { s with deliveries := s.deliveries.eraseIdx i }
      | entry :: rest =>
        some (s.finishTurn i d rest (s.handleEntry d entry now))

def read (s : State P Id) (entries : List (StreamEntry P Id)) : Option (State P Id) :=
  s.reader.map fun r =>
    let (r', metadata, readAt) := r.capture
    { s with
      reader := some r'
      deliveries := s.deliveries ++
        [{ metadata := metadata, entries := entries, readAt := readAt }] }

/-! ## Health ticks, reload and retirement -/

/-- `sourceHealth`: the state it leaves and the status it returns. -/
def sourceHealth (s : State P Id) (now : Nat) : State P Id × SourceStatus Id :=
  let (status, sample) := assessSource s.sample (handleStatus s.reader) s.config s.fullName
    s.config.read .read s.serving s.probeMs now
  let s := { s with sample := sample }
  if s.serving && status.error ≠ s.healthError then
    let alarm := if status.ready then noAlarm else invalidAlarm status.error
    (publishAlarm { s with
      healthError := status.error
      currentAlarm := alarm
      pv := { s.pv with alarm := alarm } }, status)
  else (s, status)

/-- `prepareReconfigure`; `none` when it throws. -/
def prepareReconfigure (s : State P Id) (config : PVConfig) (generation : Nat)
    (publisher : Option Nat) : Option (State P Id) :=
  if !s.alive || !sameReaderTopology s.config config then none
  else
    let target := publisher.or s.alarm.alarmPublisher
    let (link, alarm) := s.alarm.prepare target s.currentAlarm
    some { s with
      alarm := link
      updates := s.updates ++ [{ config, generation, publisher := target, alarm := alarm }] }

/-- `Update::commit` -/
def commit (s : State P Id) (update : Update) : State P Id :=
  { s with
    config := update.config
    generation := update.generation
    alarm := s.alarm.commit update.publisher update.alarm }

/-- `Update::refresh` -/
def refresh (s : State P Id) : State P Id := if s.alive then s.publishAlarm else s

def activate (s : State P Id) : State P Id :=
  if s.committed || !s.alive then s
  else
    { s with
      committed := true
      stats := s.stats.add s.pending
      pending := {}
      alarm := s.alarm.activate }

def deactivate (s : State P Id) : State P Id :=
  if !s.alive then s
  else
    { s with alive := false, committed := false, alarm := s.alarm.retire, reader := none }

end State

/-! ## Start and steps -/

/-- What the construction of a runtime is given, and what the stream answers to it. -/
structure Startup (P Id : Type) where
  fullName : String
  config : PVConfig
  generation : Nat
  probeMs : Nat
  publisher : Option Nat
  snapshot : Option (StreamEntry P Id)
  status : ReaderStatus
  now : Nat
  now_pos : 0 < now

/-- Ghost: the startup snapshot as a sample read in epoch 1. -/
def snapshotSample (entry : StreamEntry P Id) (value : Option (NDArrayFrame P)) (now : Nat) :
    Processed (NDArrayFrame P) Id :=
  { id := entry.id
    value := value
    metadata := { epoch := 1, readRejections := 0 }
    readAt := 1
    received := now }

/-- Constructor and `initialize`. -/
def initializeRuntime (u : Startup P Id) : State P Id :=
  let s : State P Id :=
    { fullName := u.fullName
      probeMs := u.probeMs
      config := u.config
      generation := u.generation
      reader := some (Reader.subscribed u.status)
      currentAlarm := invalidAlarm "no valid frame"
      pv := { frame := none, alarm := invalidAlarm "no valid frame" } }
  let s := match u.snapshot with
    | none => s
    | some entry =>
      match entry.frame with
      | .ok frame =>
        { s with
          lastUniqueId := frame.uniqueId
          haveGoodFrame := true
          sample := SourceSampleState.accept {} entry.id 1 u.now
          currentAlarm := noAlarm
          pv := { frame := some frame, alarm := noAlarm }
          log := [snapshotSample entry (some frame) u.now] }
      | .error error =>
        { s with
          pending := { invalid := 1 }
          sample := SourceSampleState.reject {} error 1
          currentAlarm := invalidAlarm error
          pv := { s.pv with alarm := invalidAlarm error }
          log := [snapshotSample entry none u.now] }
  { s with alarm := AlarmLink.start u.publisher s.currentAlarm }

inductive Label (P Id : Type) where
  | prepare (config : PVConfig) (generation : Nat) (publisher : Option Nat)
  | commit (i : Nat)
  | refresh
  | activate
  | deactivate
  | reader (event : ReaderEvent)
  | read (entries : List (StreamEntry P Id))
  | deliver (i now : Nat)
  | tick (now : Nat)

def step (s : State P Id) : Label P Id → Option (State P Id)
  | .prepare config generation publisher => s.prepareReconfigure config generation publisher
  | .commit i => (s.updates[i]?).map fun update =>
      { s.commit update with updates := s.updates.eraseIdx i }
  | .refresh => some s.refresh
  | .activate => some s.activate
  | .deactivate => some s.deactivate
  | .reader event => s.reader.map fun r => { s with reader := some (r.apply event) }
  | .read entries => s.read entries
  | .deliver i now => s.deliver i now
  | .tick now => some (s.sourceHealth now).1

def machine : Machine (State P Id) (Label P Id) where
  start s := ∃ u, s = initializeRuntime u
  step := step

end RedisPvxsIoc.Runtime.NDArray
