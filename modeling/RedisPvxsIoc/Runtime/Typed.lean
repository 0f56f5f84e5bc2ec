import RedisPvxsIoc.Runtime.Value
import RedisPvxsIoc.Runtime.SourceHealth

/-!
# The Runtime of a Scalar or Array PV

Model of `TypedRuntime` in `src/runtime.cpp`: one served PV with its read subscription, an
optional confirmation subscription, the put path, reload and retirement.

Labels are the sections of `mutex_` and the reads of atomics between them, so a run is an
interleaving of PVXS threads, one write worker, two reader threads and the application
thread.  `mutex` names the put whose dispatch holds the lock across several of its own
steps; every other locked section waits for it.  What the outside decides (a stream
snapshot, a deadline, an authorisation, the answer to a write) is part of the label.

The write queue runs the puts of one PV one after another; cancellation and expiry of a
queued put remove it, and both may stop the request of a put at any moment.  The
application thread calls `deactivate` again only when an earlier call has returned.

`log` is a ghost: it records what happened, in order, for the statements about runs.
-/

namespace RedisPvxsIoc.Runtime.Typed

open Config Foundations
open Alarm (AlarmState)

/-! ## Data -/

/-- The two subscriptions of a runtime. -/
inductive Route where
  | read | confirm
  deriving DecidableEq, Repr

/-- An entry of a stream: `payload` is what `decode` makes of its fields, `time` is
    `RA_Time(id)` when that is ok. -/
structure StreamEntry (V Id : Type) where
  id : Id
  payload : Option V
  time : Option Nat
  deriving DecidableEq, Repr

/-- A batch between its read and the end of `handleRead`. -/
structure Delivery (V Id : Type) where
  route : Route
  metadata : StreamBatchMetadata
  entries : List (StreamEntry V Id)
  /-- Ghost: when the batch was read. -/
  readAt : Nat
  deriving DecidableEq, Repr

structure PendingPut (V Id : Type) where
  expectedRaw : V
  afterId : Id
  sourceEpoch : Nat
  done : Bool := false
  error : Option String := none
  /-- Ghost: the entry that set `done` without an error. -/
  confirmedBy : Option (Processed V Id) := none
  deriving DecidableEq, Repr

/-- The content of the served PV. -/
structure Served (V : Type) where
  payload : V
  timestampNs : Nat
  metadata : MetadataConfig
  alarms : AlarmConfig
  alarm : AlarmState
  deriving DecidableEq, Repr

/-- Why a runtime is deactivated, by its destructor or by the application. -/
inductive Retirement where
  | runtimeDestroyed | applicationStopping | generationRetired
  deriving DecidableEq, Repr

def Retirement.reason : Retirement → String
  | .runtimeDestroyed => "runtime destroyed"
  | .applicationStopping => "application stopping"
  | .generationRetired => "generation retired"

structure Update where
  config : PVConfig
  generation : Nat
  publisher : Option Nat
  alarm : Option Nat
  deriving DecidableEq, Repr

inductive Outcome where
  | reply
  | error (message : String)
  deriving DecidableEq, Repr

/-- The `QueuedExec` of a put. -/
structure Request where
  stopped : Bool := false
  outcome : Option Outcome := none
  deriving DecidableEq, Repr

/-- `finish(message)`: the first terminal call decides; an empty message is a reply. -/
def Request.finish (r : Request) (message : String) : Request :=
  if r.stopped then r
  else { stopped := true, outcome := some (if message = "" then .reply else .error message) }

/-- `finish("", true)` -/
def Request.cancel (r : Request) : Request := { r with stopped := true }

abbrev PutId := Nat

/-- The local variables of `dispatchPut` once the raw value is known. -/
structure Locals (V Id : Type) where
  current : PVConfig
  raw : V
  pending : Option (PendingPut V Id)
  deriving DecidableEq, Repr

/-- Where `dispatchPut` stands.  From `fenced` to `registered` it holds the lock. -/
inductive Stage (V Id : Type) where
  | entered
  | unstopped
  | copied (current : PVConfig)
  | sampling (current : PVConfig) (raw : V)
  | asking (current : PVConfig) (raw : V) (sourceEpoch : Nat)
  | prepared (locals : Locals V Id)
  | fenced (locals : Locals V Id)
  | checked (locals : Locals V Id)
  | authorized (locals : Locals V Id)
  | cleared (locals : Locals V Id)
  | registered (locals : Locals V Id) (id : Option Nat)
  | written (locals : Locals V Id) (id : Option Nat) (time : Option Nat)
  | echoing (locals : Locals V Id) (time : Nat)
  | concluding
  | waiting (id : Nat)
  | woken (error : Option String) (confirmed : Bool) (by_ : Option (Processed V Id))
  deriving DecidableEq, Repr

/-- The life of a put: `alive_` was read, `committed_` was read, it is in the queue with the
    command epoch of its admission, it is being dispatched, it is over. -/
inductive Phase (V Id : Type) where
  | arriving
  | arrived
  | queued (epoch : Nat)
  | running (epoch : Nat) (stage : Stage V Id)
  | finished
  deriving DecidableEq, Repr

/-- A put; `value` is the client's value, `none` when it cannot be converted. -/
structure Put (V Id : Type) where
  value : Option V
  request : Request := {}
  phase : Phase V Id
  deriving DecidableEq, Repr

/-- Ghost: a call of `writeToRedis` with `commandEpoch_` and `config_` at that instant. -/
structure Write (V : Type) where
  raw : V
  key : Option String
  commandEpoch : Nat
  config : PVConfig
  deriving DecidableEq, Repr

inductive PutEvent (V Id : Type) where
  | admitted (epoch : Nat)
  | sourceEpoch (epoch : Nat)
  | snapshot (id : Id)
  | lastCheck (stopped : Bool)
  | registered (id : Nat)
  | written (write : Write V)
  | replied (confirmedBy : Option (Processed V Id))
  deriving DecidableEq, Repr

/-- `processed` also records which pending puts were registered at that moment. -/
inductive Event (V Id : Type) where
  | put (p : PutId) (event : PutEvent V Id)
  | processed (route : Route) (sample : Processed V Id) (registered : List Nat)
  | deactivated
  deriving DecidableEq, Repr

/-- What clients and alarm publishers see, and the retained sample it is computed from. -/
structure View (V : Type) where
  healthError : String := ""
  lastRaw : V
  lastTimestampNs : Nat := 0
  sourceValid : Bool := false
  sourceError : String := ""
  pv : Served V
  alarm : AlarmLink := {}
  deriving DecidableEq, Repr

/-- The members of the runtime, the threads that use it, and the log. -/
structure State (V Id : Type) where
  fullName : String
  maxPayloadBytes : Nat
  readProbeMs : Nat
  confirmProbeMs : Nat
  /-- Captured by the read subscription when it was made. -/
  readConfirms : Bool
  config : PVConfig
  generation : Nat
  alive : Bool := true
  committed : Bool := false
  commandEpoch : Nat := 0
  /-- `readReader_` and `confirmReader_` -/
  reader : Route → Option Reader
  /-- `readSample_` and `confirmSample_` -/
  sample : Route → SourceSampleState Id
  view : View V
  nextPendingId : Nat := 0
  pendingPuts : FinMap Nat (PendingPut V Id) := ∅
  mutex : Option PutId := none
  /-- `deactivate` has cleared `alive_` and not yet left its locked section. -/
  retiring : Option Retirement := none
  puts : List (Put V Id) := []
  updates : List Update := []
  deliveries : List (Delivery V Id) := []
  log : List (Event V Id) := []

variable {V Id : Type} [ValueType V] [LinearOrder Id]

/-! ## Presentation -/

namespace View

/-- The alarm that `populateValue` computes. -/
def alarmFor (v : View V) (config : PVConfig) (present : V) (prior : Int) : AlarmState :=
  if v.healthError ≠ "" then invalidAlarm v.healthError
  else if !v.sourceValid then invalidAlarm v.sourceError
  else match ValueType.alarmValue present with
    | some value => evaluateNumericAlarm config value prior
    | none => noAlarm

/-- Fill a value whose alarm status was `prior`. -/
def populateValue (v : View V) (config : PVConfig) (prior : Int) : Served V :=
  let present := ValueType.forward config.transform v.lastRaw
  { payload := present
    timestampNs := v.lastTimestampNs
    metadata := config.metadata
    alarms := config.alarms
    alarm := v.alarmFor config present prior }

/-- Fetch the value, populate it, post it and record its alarm. -/
def present (v : View V) (config : PVConfig) (serving : Bool) : View V :=
  let value := v.populateValue config v.pv.alarm.status
  { v with pv := value, alarm := v.alarm.publish serving value.alarm }

/-- The sample becomes the retained value; `health` is set for an entry of the stream. -/
def retain (v : View V) (raw : V) (timestamp : Nat) (health : Option String) : View V :=
  { v with
    lastRaw := raw
    lastTimestampNs := timestamp
    sourceValid := true
    sourceError := ""
    healthError := health.getD v.healthError }

end View

namespace State

/-! ## Small accessors -/

def record (s : State V Id) (event : Event V Id) : State V Id :=
  { s with log := s.log ++ [event] }

def setSample (s : State V Id) (route : Route) (x : SourceSampleState Id) : State V Id :=
  { s with sample := Function.update s.sample route x }

def setReader (s : State V Id) (route : Route) (r : Reader) : State V Id :=
  { s with reader := Function.update s.reader route (some r) }

/-- `alive_ && committed_` -/
def serving (s : State V Id) : Bool := s.alive && s.committed

/-- The value is presented again from what the view holds now. -/
def present (s : State V Id) : State V Id :=
  { s with view := s.view.present s.config s.serving }

/-- `(sameRouteTarget(read, *confirm) ? readReader_ : confirmReader_)` -/
def confirmationRoute (config : PVConfig) : Route :=
  match config.confirm with
  | some confirm =>
    if config.read.backend = confirm.backend ∧ config.read.key = confirm.key then .read
    else .confirm
  | none => .confirm

def sourceEpoch (s : State V Id) (route : Route) : Nat := (handleStatus (s.reader route)).epoch

/-- `config.confirm && sameRouteTarget(config.read, *config.confirm)` -/
def readConfirmsOf (config : PVConfig) : Bool :=
  config.confirm.isSome && confirmationRoute config == .read

/-! ## Deliveries -/

/-- What `handleRead` knows about an entry besides its payload. -/
structure Arrival (Id : Type) where
  canConfirm : Bool
  streamId : Id
  metadata : StreamBatchMetadata
  readAt : Nat
  now : Nat

def Arrival.processed (a : Arrival Id) (value : Option V) : Processed V Id :=
  { id := a.streamId
    value := value
    metadata := a.metadata
    readAt := a.readAt
    received := a.now }

/-- `updateValue ? read : confirm` -/
def routeOf (updateValue : Bool) : Route := if updateValue then .read else .confirm

/-- The epoch check of `acceptEpochLocked` on a live runtime. -/
def epochMatches (s : State V Id) (route : Route) (epoch : Nat) : Bool :=
  s.sourceEpoch route == epoch

/-- The other outcome of `acceptEpochLocked`: only the counter moves. -/
def countStale (s : State V Id) (route : Route) : State V Id :=
  s.setSample route (s.sample route).countStale

/-- `sample.accept(..)` and the rejection count captured with the batch. -/
def acceptSample (s : State V Id) (route : Route) (a : Arrival Id) (raw : V) : State V Id :=
  let accepted := (s.sample route).accept a.streamId a.metadata.epoch a.now
  (s.setSample route { accepted with acceptedReadRejections := a.metadata.readRejections }).record
    (.processed route (a.processed (some raw)) s.pendingPuts.keys)

def epochChanged : String := "confirmation source epoch changed; not retried"

end State

/-- What an entry of the confirmation route does to one pending put. -/
def PendingPut.observe (pending : PendingPut V Id) (o : Processed V Id) (raw : V) :
    PendingPut V Id :=
  if !pending.done && pending.sourceEpoch ≠ o.metadata.epoch then
    { pending with done := true, error := some State.epochChanged }
  else if !pending.done && decide (pending.afterId < o.id) &&
      ValueType.valuesEqual pending.expectedRaw raw then
    { pending with done := true, confirmedBy := some o }
  else pending

/-- What a tick that found the confirmation route in epoch `e` does to one pending put. -/
def PendingPut.expire (e : Nat) (pending : PendingPut V Id) : PendingPut V Id :=
  if !pending.done && pending.sourceEpoch ≠ e then
    { pending with done := true, error := some State.epochChanged }
  else pending

/-- The loop of `failPendingLocked`. -/
def PendingPut.fail (pending : PendingPut V Id) (reason : String) : PendingPut V Id :=
  { pending with done := true, error := some reason }

namespace State

def observePending (s : State V Id) (o : Processed V Id) (raw : V) : State V Id :=
  { s with pendingPuts := s.pendingPuts.mapValues fun pending => pending.observe o raw }

/-- The sample becomes the retained value and is presented. -/
def retain (s : State V Id) (raw : V) (timestamp : Nat) (health : Option String) : State V Id :=
  present { s with view := s.view.retain raw timestamp health }

/-- `handleRawUpdate`; without an `Arrival` it is the echo of a write. -/
def handleRawUpdate (s : State V Id) (raw : V) (timestamp : Nat) (updateValue : Bool)
    (arrival : Option (Arrival Id)) : State V Id × Bool :=
  if !s.alive then (s, false)
  else match arrival with
    | none => (if updateValue then s.retain raw timestamp none else s, true)
    | some a =>
      let route := routeOf updateValue
      let tagged := a.metadata.epoch ≠ 0
      if tagged && !s.epochMatches route a.metadata.epoch then (s.countStale route, false)
      else
        let health := if tagged then
          some (batchHealthError (handleStatus (s.reader route)) a.metadata) else none
        let s := if tagged then s.acceptSample route a raw else s
        let s := if a.canConfirm then s.observePending (a.processed (some raw)) raw else s
        (if updateValue then s.retain raw timestamp health else s, true)

def markInvalid (s : State V Id) (error : String) (updateValue : Bool) (a : Arrival Id) :
    State V Id × Bool :=
  let route := routeOf updateValue
  if !s.alive then (s, false)
  else if !s.epochMatches route a.metadata.epoch then (s.countStale route, false)
  else
    let s := (s.setSample route ((s.sample route).reject error a.metadata.epoch)).record
      (.processed route (a.processed none) s.pendingPuts.keys)
    (if updateValue then
      present { s with view :=
        { s.view with sourceValid := false, sourceError := error, healthError := "" } }
    else s, true)

/-- One turn of the loop in `handleRead`. -/
def handleEntry (s : State V Id) (d : Delivery V Id) (entry : StreamEntry V Id) (now : Nat) :
    State V Id × Bool :=
  let updateValue := d.route = .read
  let a : Arrival Id :=
    { canConfirm := if d.route = .read then s.readConfirms else true
      streamId := entry.id
      metadata := d.metadata
      readAt := d.readAt
      now := now }
  match entry.payload, entry.time with
  | some raw, some timestamp => s.handleRawUpdate raw timestamp updateValue (some a)
  | _, _ => s.markInvalid "Invalid Redis payload or source timestamp" updateValue a

/-- The batch after a turn of the loop: its other entries remain unless the loop returned. -/
def finishTurn (s : State V Id) (i : Nat) (d : Delivery V Id) (rest : List (StreamEntry V Id))
    (turn : State V Id × Bool) : State V Id :=
  let s' := turn.1
  { s' with deliveries :=
      if turn.2 then s.deliveries.set i { d with entries := rest } else s.deliveries.eraseIdx i }

/-- The next turn of `handleRead` for a batch: the batch is dropped when it is exhausted, when
    the runtime is retired, or when its epoch is over. -/
def deliver (s : State V Id) (i now : Nat) : Option (State V Id) :=
  match s.deliveries[i]? with
  | none => none
  | some d =>
    if s.mutex.isSome || now == 0 then none
    else
      let dropped := { s with deliveries := s.deliveries.eraseIdx i }
      match d.entries with
      | [] => some dropped
      | entry :: rest =>
        if !s.alive then some dropped
        else some (s.finishTurn i d rest (s.handleEntry d entry now))

/-- The reader of a route reads a batch. -/
def read (s : State V Id) (route : Route) (entries : List (StreamEntry V Id)) :
    Option (State V Id) :=
  (s.reader route).map fun r =>
    let (r', metadata, readAt) := r.capture
    { s.setReader route r' with
      deliveries := s.deliveries ++
        [{ route := route, metadata := metadata, entries := entries, readAt := readAt }] }

/-! ## Health ticks -/

/-- The loop of `sourceHealth` over the pending puts. -/
def expirePending (s : State V Id) (confirmationEpoch : Nat) : State V Id :=
  { s with pendingPuts := s.pendingPuts.mapValues (PendingPut.expire confirmationEpoch) }

def showHealth (s : State V Id) (error : String) : State V Id :=
  if error ≠ s.view.healthError then
    present { s with view := { s.view with healthError := error } }
  else s

/-- The status of a route, and the sample state after the assessment. -/
def assess (s : State V Id) (route : Route) (target : RouteConfig) (role : Role)
    (probeMs now : Nat) : SourceStatus Id × SourceSampleState Id :=
  assessSource (s.sample route) (handleStatus (s.reader route)) s.config s.fullName target role
    s.serving probeMs now

def readRole (config : PVConfig) : Role := if readConfirmsOf config then .readConfirm else .read

/-- The part of `sourceHealth` about the read route and the pending puts. -/
def tickRead (s : State V Id) (now : Nat) : State V Id × SourceStatus Id :=
  let (read, readSample) :=
    s.assess .read s.config.read (readRole s.config) s.readProbeMs now
  let confirmationEpoch := s.sourceEpoch (confirmationRoute s.config)
  let s := s.setSample .read readSample
  (if s.serving then (s.expirePending confirmationEpoch).showHealth read.error else s, read)

/-- `sourceHealth`: the state it leaves and the statuses it returns. -/
def sourceHealth (s : State V Id) (now : Nat) : State V Id × List (SourceStatus Id) :=
  let (s, read) := s.tickRead now
  match s.config.confirm with
  | some confirm =>
    if readConfirmsOf s.config then (s, [read])
    else
      let (status, confirmSample) := s.assess .confirm
        { backend := confirm.backend, key := confirm.key } .confirm s.confirmProbeMs now
      (s.setSample .confirm confirmSample, [read, status])
  | none => (s, [read])

/-! ## Reload and retirement -/

def failPending (s : State V Id) (reason : String) : State V Id :=
  { s with pendingPuts := s.pendingPuts.mapValues fun pending => pending.fail reason }

/-- `prepareReconfigure`; `none` when it throws or has to wait. -/
def prepareReconfigure (s : State V Id) (config : PVConfig) (generation : Nat)
    (publisher : Option Nat) : Option (State V Id) :=
  if s.mutex.isSome || !s.alive || !sameReaderTopology s.config config then none
  else
    let target := publisher.or s.view.alarm.alarmPublisher
    let state := (s.view.populateValue config s.view.pv.alarm.status).alarm
    let (link, alarm) := s.view.alarm.prepare target state
    some { s with
      view := { s.view with alarm := link }
      updates := s.updates ++ [{ config, generation, publisher := target, alarm := alarm }] }

/-- `Update::commit` -/
def commit (s : State V Id) (update : Update) : State V Id :=
  let changed := s.config.transform ≠ update.config.transform
  let reason := "write transform changed during reload"
  { s with
    commandEpoch := if changed then s.commandEpoch + 1 else s.commandEpoch
    pendingPuts := if changed then s.pendingPuts.mapValues fun pending => pending.fail reason
      else s.pendingPuts
    view := { s.view with alarm := s.view.alarm.commit update.publisher update.alarm }
    config := update.config
    generation := update.generation }

/-- `refreshMetadata`; the retained sample and its timestamp are presented again. -/
def refreshMetadata (s : State V Id) : State V Id :=
  if s.alive then s.present else s

def activate (s : State V Id) : State V Id :=
  { s with committed := true, view := { s.view with alarm := s.view.alarm.activate } }

/-- The first half of `deactivate`: the exchange of `alive_`.  A later call returns at once. -/
def deactivate (s : State V Id) (cause : Retirement) : State V Id :=
  if s.alive then { s with alive := false, retiring := some cause } else s.record .deactivated

/-- The locked half of `deactivate`. -/
def retire (s : State V Id) (cause : Retirement) : State V Id :=
  { s.failPending cause.reason with
    commandEpoch := s.commandEpoch + 1
    view := { s.view with alarm := s.view.alarm.retire }
    reader := fun _ => none
    retiring := none }.record .deactivated

/-! ## Puts -/

def modifyPut (s : State V Id) (p : PutId) (f : Put V Id → Put V Id) : State V Id :=
  { s with puts := s.puts.modify p f }

def toPhase (s : State V Id) (p : PutId) (phase : Phase V Id) : State V Id :=
  s.modifyPut p fun put => { put with phase := phase }

/-- `dispatchPut` or `handlePut` returns without a word. -/
def leave (s : State V Id) (p : PutId) : State V Id := s.toPhase p .finished

/-- `request->error(message)` and return. -/
def fail (s : State V Id) (p : PutId) (message : String) : State V Id :=
  s.modifyPut p fun put =>
    { put with phase := .finished, request := put.request.finish message }

def unlock (s : State V Id) : State V Id := { s with mutex := none }

/-- `handlePut`, in three reads of atomics; `refusal` is the message of a queue that does not
    take the put. -/
def handlePut (s : State V Id) (p : PutId) (refusal : Option String) : Option (State V Id) :=
  match s.puts[p]? with
  | none => none
  | some put =>
    match put.phase with
    | .arriving =>
      if s.committed then some (s.toPhase p .arrived)
      else some (s.fail p "generation is no longer active")
    | .arrived =>
      if put.value.any fun v => s.maxPayloadBytes < ValueType.bytes v then
        some (s.fail p "write payload exceeds max_payload_bytes")
      else match refusal with
        | some message => some (s.fail p message)
        | none =>
          some ((s.toPhase p (.queued s.commandEpoch)).record (.put p (.admitted s.commandEpoch)))
    | _ => none

def arrive (s : State V Id) (value : Option V) : Option (State V Id) :=
  if s.config.write.isNone then none
  else if s.alive then some { s with puts := s.puts ++ [{ value := value, phase := .arriving }] }
  else some { s with puts := s.puts ++
    [{ value := value, phase := .finished
       request := { stopped := true, outcome := some (.error "generation is no longer active") } }] }

end State

def Phase.isRunning : Phase V Id → Bool
  | .running _ _ => true
  | _ => false

namespace State

/-- A worker takes the put from the queue: no other put of the PV is being dispatched. -/
def startPut (s : State V Id) (p : PutId) : Option (State V Id) :=
  match s.puts[p]? with
  | none => none
  | some put =>
    match put.phase with
    | .queued epoch =>
      if s.puts.any fun q => q.phase.isRunning then none
      else some (s.toPhase p (.running epoch .entered))
    | _ => none

/-- The queue drops a put that it has not started. -/
def dropPut (s : State V Id) (p : PutId) : Option (State V Id) :=
  match s.puts[p]? with
  | none => none
  | some put =>
    match put.phase with
    | .queued _ => some (s.leave p)
    | _ => none

/-- The client cancels, or the queue reports an error for the request: its deadline, or what
    the dispatch threw. -/
def stopPut (s : State V Id) (p : PutId) (message : Option String) : State V Id :=
  s.modifyPut p fun put =>
    { put with request := match message with
        | some text => put.request.finish text
        | none => put.request.cancel }

end State

/-! ## The dispatch of a put -/

inductive WriteResult where
  | threw
  | failed
  | ok (time : Nat)
  deriving DecidableEq, Repr

/-- What the outside answers to a step of `dispatchPut`. -/
structure Answer (Id : Type) where
  /-- The last ID of the confirmation stream, `none` without a connection. -/
  snapshot : Option Id := none
  deadlinePassed : Bool := false
  authorized : Bool := true
  write : WriteResult := .failed
  timedOut : Bool := false
  conversionError : String := ""
  deriving DecidableEq, Repr

namespace State

/-- The confirmation stream's IDs that were delivered in its current epoch. -/
def deliveredIds (s : State V Id) (route : Route) : List Id :=
  s.log.filterMap fun event =>
    match event with
    | .processed r o _ =>
      if r = route ∧ o.metadata.epoch = s.sourceEpoch route then some o.id else none
    | _ => none

/-- A snapshot answers with an ID that is not below any ID delivered in the same epoch. -/
def snapshotOk (s : State V Id) (config : PVConfig) (id : Id) : Bool :=
  (s.deliveredIds (confirmationRoute config)).all fun delivered => decide (delivered ≤ id)

/-- `request->reply()` and return; the event is recorded when the reply takes effect. -/
def replyPut (s : State V Id) (p : PutId) (put : Put V Id)
    (confirmedBy : Option (Processed V Id)) : State V Id :=
  if put.request.stopped then s.leave p
  else (s.fail p "").record (.put p (.replied confirmedBy))

/-- The fields read by the locked section that registers and writes. -/
def enterPending (s : State V Id) (p epoch : Nat) (l : Locals V Id) : State V Id :=
  match l.pending with
  | none => s.toPhase p (.running epoch (.registered l none))
  | some pending =>
    if pending.sourceEpoch ≠ s.sourceEpoch (confirmationRoute l.current) then
      (s.fail p "confirmation source epoch changed before dispatch").unlock
    else
      let id := s.nextPendingId + 1
      ({ s with nextPendingId := id, pendingPuts := s.pendingPuts.insert id pending }.toPhase p
        (.running epoch (.registered l (some id)))).record (.put p (.registered id))

def erasePending (s : State V Id) (id : Option Nat) : State V Id :=
  match id with
  | some id => { s with pendingPuts := s.pendingPuts.erase id }
  | none => s

/-- `writeToRedis` inside the locked section, and what follows until the lock is released.  An
    exception leaves `dispatchPut`; the queue then reports it to the request (`stopPut`). -/
def writeToRedis (s : State V Id) (p epoch : Nat) (l : Locals V Id) (id : Option Nat)
    (result : WriteResult) : State V Id :=
  let s := s.record (.put p (.written
    { raw := l.raw, key := l.current.write.map RouteConfig.key
      commandEpoch := s.commandEpoch, config := s.config }))
  match result with
  | .threw => ((s.erasePending id).leave p).unlock
  | .failed => ((s.erasePending id).toPhase p (.running epoch (.written l id none))).unlock
  | .ok time => (s.toPhase p (.running epoch (.written l id (some time)))).unlock

/-- The wait for a confirmation ends. -/
def wake (s : State V Id) (p epoch : Nat) (put : Put V Id) (id : Nat) (timedOut : Bool) :
    Option (State V Id) :=
  match s.pendingPuts.find? id with
  | none => none
  | some pending =>
    let completed := pending.done || put.request.stopped || !s.alive || s.commandEpoch != epoch
    if !completed && !timedOut then none
    else
      some ({ s with pendingPuts := s.pendingPuts.erase id }.toPhase p
        (.running epoch (.woken pending.error (completed && pending.done) pending.confirmedBy)))

/-- The end of a confirmed put. -/
def concludeConfirmed (s : State V Id) (p : PutId) (put : Put V Id) (error : Option String)
    (confirmed : Bool) (confirmedBy : Option (Processed V Id)) (deadlinePassed : Bool) :
    State V Id :=
  if put.request.stopped then s.leave p
  else match error with
    | some message => s.fail p message
    | none =>
      if deadlinePassed then
        s.fail p "total operation deadline exceeded after dispatch; not retried"
      else if !confirmed then s.fail p "backend confirmation timeout; not retried"
      else s.replyPut p put confirmedBy

/-- One step of `dispatchPut`; `none` while the step has to wait. -/
def dispatchPut (s : State V Id) (p : PutId) (put : Put V Id) (epoch : Nat) (a : Answer Id) :
    Stage V Id → Option (State V Id)
  | .entered =>
    if put.request.stopped then some (s.leave p)
    else some (s.toPhase p (.running epoch .unstopped))
  | .unstopped =>
    if s.mutex.isSome then none
    else if !s.alive || !s.committed || s.commandEpoch != epoch then
      some (s.fail p "write configuration changed before dispatch")
    else some (s.toPhase p (.running epoch (.copied s.config)))
  | .copied current =>
    match put.value with
    | none => some (s.fail p ("invalid put value: " ++ a.conversionError))
    | some present =>
      let raw := ValueType.inverse current.transform present
      if current.confirm.isNone then
        some (s.toPhase p (.running epoch (.prepared { current, raw, pending := none })))
      else if put.request.stopped then some (s.leave p)
      else some (s.toPhase p (.running epoch (.sampling current raw)))
  | .sampling current raw =>
    if s.mutex.isSome then none
    else
      let sourceEpoch := s.sourceEpoch (confirmationRoute current)
      some ((s.toPhase p (.running epoch (.asking current raw sourceEpoch))).record
        (.put p (.sourceEpoch sourceEpoch)))
  | .asking current raw sourceEpoch =>
    match a.snapshot with
    | none => some (s.fail p "confirmation backend unavailable")
    | some id =>
      if !s.snapshotOk current id then none
      else
        let pending := { expectedRaw := raw, afterId := id, sourceEpoch := sourceEpoch }
        some ((s.toPhase p (.running epoch (.prepared { current, raw, pending := some pending
          }))).record (.put p (.snapshot id)))
  | .prepared l =>
    if s.mutex.isSome then none
    else if !s.alive || s.commandEpoch != epoch then
      some (s.fail p "write configuration changed")
    else some { s.toPhase p (.running epoch (.fenced l)) with mutex := some p }
  | .fenced l =>
    if put.request.stopped then some (s.leave p).unlock
    else if a.deadlinePassed then
      some (s.fail p "total operation deadline exceeded before dispatch").unlock
    else some (s.toPhase p (.running epoch (.checked l)))
  | .checked l =>
    -- the operation is gone as soon as the request is stopped
    if put.request.stopped then some (s.leave p).unlock
    else if !a.authorized then some (s.fail p "write no longer authorized at dispatch").unlock
    else some (s.toPhase p (.running epoch (.authorized l)))
  | .authorized l =>
    let s := s.record (.put p (.lastCheck put.request.stopped))
    if put.request.stopped then some (s.leave p).unlock
    else some (s.toPhase p (.running epoch (.cleared l)))
  | .cleared l => some (s.enterPending p epoch l)
  | .registered l id => some (s.writeToRedis p epoch l id a.write)
  | .written _ _ none => some (s.fail p "redis write failed; not retried")
  | .written l none (some time) =>
    if put.request.stopped then some (s.leave p)
    else if l.current.write = some l.current.read then
      some (s.toPhase p (.running epoch (.echoing l time)))
    else some (s.toPhase p (.running epoch .concluding))
  | .written _ (some id) (some _) => some (s.toPhase p (.running epoch (.waiting id)))
  | .echoing l time =>
    if s.mutex.isSome then none
    else some ((s.handleRawUpdate l.raw time true none).1.toPhase p (.running epoch .concluding))
  | .concluding =>
    if a.deadlinePassed then
      some (s.fail p "total operation deadline exceeded after dispatch; not retried")
    else some (s.replyPut p put none)
  | .waiting id => if s.mutex.isSome then none else s.wake p epoch put id a.timedOut
  | .woken error confirmed confirmedBy =>
    some (s.concludeConfirmed p put error confirmed confirmedBy a.deadlinePassed)

def dispatch (s : State V Id) (p : PutId) (a : Answer Id) : Option (State V Id) :=
  match s.puts[p]? with
  | none => none
  | some put =>
    match put.phase with
    | .running epoch stage => s.dispatchPut p put epoch a stage
    | _ => none

end State

/-! ## Start and steps -/

/-- What the construction of a runtime is given, and what the streams answer to it. -/
structure Startup (V Id : Type) where
  fullName : String
  config : PVConfig
  generation : Nat
  maxPayloadBytes : Nat
  readProbeMs : Nat
  confirmProbeMs : Nat
  /-- The configured initial value. -/
  fallback : V
  publisher : Option Nat
  /-- The last entry of the read stream, if there is one. -/
  snapshot : Option (StreamEntry V Id)
  confirmation : Option (StreamEntry V Id)
  readStatus : ReaderStatus
  confirmStatus : ReaderStatus
  now : Nat
  now_pos : 0 < now

/-- Ghost: the startup snapshot as a sample read in epoch 1. -/
def snapshotSample (entry : StreamEntry V Id) (value : Option V) (now : Nat) : Processed V Id :=
  { id := entry.id
    value := value
    metadata := { epoch := 1, readRejections := 0 }
    readAt := 1
    received := now }

/-- The sample state after the startup snapshot of a route, and what the log says of it. -/
def startSample (route : Route) (entry : Option (StreamEntry V Id)) (reason : String)
    (now : Nat) : SourceSampleState Id × List (Event V Id) :=
  match entry with
  | none => ({}, [])
  | some entry =>
    match entry.payload, entry.time with
    | some raw, some _ =>
      (SourceSampleState.accept {} entry.id 1 now,
        [.processed route (snapshotSample entry (some raw) now) []])
    | _, _ =>
      (SourceSampleState.reject {} reason 1,
        [.processed route (snapshotSample entry none now) []])

/-- The retained value, its timestamp, its validity and its error after the snapshot. -/
def startValue (fallback : V) : Option (StreamEntry V Id) → V × Nat × Bool × String
  | none => (fallback, 0, false, "No source data; using initial fallback")
  | some entry =>
    match entry.payload, entry.time with
    | some raw, some timestamp => (raw, timestamp, true, "")
    | _, _ => (fallback, 0, false, "Invalid Redis snapshot")

/-- The view before anything was subscribed. -/
def startView (u : Startup V Id) : View V :=
  let (raw, timestamp, valid, error) := startValue u.fallback u.snapshot
  let empty : Served V :=
    { payload := raw, timestampNs := 0, metadata := u.config.metadata
      alarms := u.config.alarms, alarm := noAlarm }
  let view : View V :=
    { lastRaw := raw, lastTimestampNs := timestamp, sourceValid := valid, sourceError := error
      pv := empty }
  let value := view.populateValue u.config epicsAlarmNone
  { view with pv := value, alarm := AlarmLink.start u.publisher value.alarm }

/-- The sample state of a route after construction, and its part of the log. -/
def startRoute (u : Startup V Id) : Route → SourceSampleState Id × List (Event V Id)
  | .read => startSample .read u.snapshot "Invalid Redis snapshot" u.now
  | .confirm => startSample .confirm
      (if u.config.confirm.isSome && !State.readConfirmsOf u.config then u.confirmation else none)
      "Invalid confirmation snapshot" u.now

/-- Constructor and `initialize`. -/
def initializeRuntime (u : Startup V Id) : State V Id :=
  { fullName := u.fullName
    maxPayloadBytes := u.maxPayloadBytes
    readProbeMs := u.readProbeMs
    confirmProbeMs := u.confirmProbeMs
    readConfirms := State.readConfirmsOf u.config
    config := u.config
    generation := u.generation
    reader := fun route => match route with
      | .read => some (Reader.subscribed u.readStatus)
      | .confirm =>
        if u.config.confirm.isSome && !State.readConfirmsOf u.config then
          some (Reader.subscribed u.confirmStatus)
        else none
    sample := fun route => (startRoute u route).1
    view := startView u
    log := (startRoute u .read).2 ++ (startRoute u .confirm).2 }

inductive Label (V Id : Type) where
  | arrive (value : Option V)
  | handlePut (p : PutId) (refusal : Option String)
  | startPut (p : PutId)
  | dropPut (p : PutId)
  | stopPut (p : PutId) (message : Option String)
  | dispatch (p : PutId) (answer : Answer Id)
  | prepare (config : PVConfig) (generation : Nat) (publisher : Option Nat)
  | commit (i : Nat)
  | refresh
  | activate
  | deactivate (cause : Retirement)
  | retire
  | reader (route : Route) (event : ReaderEvent)
  | read (route : Route) (entries : List (StreamEntry V Id))
  | deliver (i now : Nat)
  | tick (now : Nat)
  deriving DecidableEq, Repr

def step (s : State V Id) : Label V Id → Option (State V Id)
  | .arrive value => s.arrive value
  | .handlePut p refusal => s.handlePut p refusal
  | .startPut p => s.startPut p
  | .dropPut p => s.dropPut p
  | .stopPut p message => some (s.stopPut p message)
  | .dispatch p answer => s.dispatch p answer
  | .prepare config generation publisher => s.prepareReconfigure config generation publisher
  | .commit i =>
    if s.mutex.isSome then none
    else (s.updates[i]?).map fun update =>
      { s.commit update with updates := s.updates.eraseIdx i }
  | .refresh => if s.mutex.isSome then none else some s.refreshMetadata
  | .activate => if s.mutex.isSome then none else some s.activate
  | .deactivate cause => if s.retiring.isSome then none else some (s.deactivate cause)
  | .retire => if s.mutex.isSome then none else s.retiring.map s.retire
  | .reader route event =>
    (s.reader route).map fun r => s.setReader route (r.apply event)
  | .read route entries => s.read route entries
  | .deliver i now => s.deliver i now
  | .tick now => if s.mutex.isSome then none else some (s.sourceHealth now).1

def machine : Machine (State V Id) (Label V Id) where
  start s := ∃ u, s = initializeRuntime u
  step := step

end RedisPvxsIoc.Runtime.Typed
