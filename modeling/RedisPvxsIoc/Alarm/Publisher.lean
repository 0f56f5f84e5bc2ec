import RedisPvxsIoc.Config.Types
import RedisPvxsIoc.Foundations.Machine
import RedisPvxsIoc.Foundations.RingBuffer

/-!
# The Alarm Publisher

Model of `src/alarm_worker.cpp`.  Any number of registrations update the latest alarm
state of their slot; one worker delivers states to a Redis stream, either as transitions
from a bounded ring or, after a failure or an overflow, as snapshots of the slots that
are still *pending*.

Labels are the critical sections of the publisher's mutex.  The worker's turn is split
where it releases the mutex: `turn` selects what to send, `append` is the moment the
server executes the `XADD`, and `reply` is the section that follows the answer.  An answer
`unavailable` says nothing about whether the server has appended the event; a rejection
means that it has not.

Slots are shared objects and live in a `heap` under their identifier.  The memory budget
and the connection itself are not part of this machine.
-/

namespace RedisPvxsIoc.Alarm

open Foundations

/-! ## Alarm states -/

structure AlarmState where
  severity : Int := 0
  status : Int := 0
  /-- The bytes of the message. -/
  message : List UInt8 := []
  deriving DecidableEq, Repr

/-- `message` holds the first `length` bytes of the buffer; the rest is never read. -/
structure StoredState where
  severity : Int := 0
  status : Int := 0
  message : List UInt8 := []
  deriving DecidableEq, Repr, Inhabited

/-- `std::array<char, 512>` -/
def messageCapacity : Nat := 512

def ellipsis : List UInt8 := [0x2e, 0x2e, 0x2e]

/-- `(byte & 0xc0) == 0x80` -/
def isContinuation (byte : UInt8) : Bool := byte &&& 0xc0 == 0x80

/-- The loop that moves the cut in front of a whole character. -/
def cut (message : List UInt8) : Nat → Nat
  | 0 => 0
  | length + 1 =>
    if isContinuation (message.getD (length + 1) 0) then cut message length else length + 1

/-- `StoredState::encode`, with the flag `truncated`. -/
def encode (state : AlarmState) : StoredState × Bool :=
  let truncated := decide (messageCapacity < state.message.length)
  let length := min state.message.length (messageCapacity - if truncated then 3 else 0)
  let length := if truncated then cut state.message length else length
  let message := state.message.take length
  ({ severity := state.severity
     status := state.status
     message := if truncated then message ++ ellipsis else message }, truncated)

/-! ## Publisher data -/

abbrev SlotId := Nat
abbrev Time := Nat

structure Slot where
  name : String
  revision : Nat := 1
  delivered : Nat := 0
  deliveredEpoch : Nat := 0
  active : Bool := false
  retired : Bool := false
  force : Bool := true
  latest : StoredState
  deriving DecidableEq, Repr

instance : Inhabited Slot := ⟨{ name := "", latest := default }⟩

structure Event where
  slot : SlotId
  state : StoredState
  revision : Nat := 0
  timestamp : Int := 0
  deriving DecidableEq, Repr, Inhabited

/-- What an `XADD` of the worker puts on the stream. -/
structure SinkEvent where
  name : String
  state : StoredState
  timestamp : Int
  deriving DecidableEq, Repr

structure AlarmPublisherOptions where
  stateBytes : Nat := 64 * 1024 * 1024
  queueEntries : Nat := 1024
  ioTimeoutMs : Nat := 500
  retryMs : Nat := 1000
  heartbeatMs : Nat := 1000
  deriving DecidableEq, Repr

/-- The constructor throws unless this holds. -/
structure AlarmPublisherOptions.Valid (options : AlarmPublisherOptions) : Prop where
  queueEntries : 0 < options.queueEntries
  ioTimeoutMs : 0 < options.ioTimeoutMs
  retryMs : 0 < options.retryMs
  heartbeatMs : 0 < options.heartbeatMs
  fits : options.queueEntries ≤ options.stateBytes / Config.kAlarmQueueEntryBytes

/-- The counters of `AlarmPublisherStatus` that the publisher keeps itself. -/
structure Counters where
  lastError : String := ""
  sent : Nat := 0
  transportFailures : Nat := 0
  rejected : Nat := 0
  reconciled : Nat := 0
  coalescedUpdates : Nat := 0
  discardedTransitions : Nat := 0
  messagesTruncated : Nat := 0
  deriving DecidableEq, Repr

inductive SendResult where
  | accepted | rejected | unavailable
  deriving DecidableEq, Repr

/-- A request on its way; `selected = none` is a `PING`. -/
structure Flight where
  selected : Option Event
  reconciliation : Bool
  epoch : Nat
  /-- Whether the server has executed the `XADD`. -/
  appended : Bool := false
  deriving DecidableEq, Repr

/-- Which answers the worker can get: an acceptance tells that the event is on the stream,
    a rejection that it is not. -/
def Flight.allows (flight : Flight) : SendResult → Bool
  | .accepted => flight.selected.isNone || flight.appended
  | .rejected => !flight.appended
  | .unavailable => true

inductive Worker where
  | looping
  | sending (flight : Flight)
  | exited
  deriving DecidableEq, Repr

/-- `AlarmPublisher::Impl`, the worker's position and the stream it feeds. -/
structure Impl where
  options : AlarmPublisherOptions
  ring : RingBuffer Event
  heap : SlotId → Slot := fun _ => default
  slots : List SlotId := []
  names : FinMap String (List SlotId) := ∅
  nextId : SlotId := 0
  lastId : SlotId := 0
  epoch : Nat := 1
  enabled : Bool := false
  stopping : Bool := false
  recovering : Bool := true
  live : Bool := false
  counters : Counters := {}
  worker : Worker := .looping
  retryAt : Time := 0
  heartbeat : Time := 0
  sink : List SinkEvent := []

/-- The publisher as its constructor leaves it, at the time the worker starts. -/
def Impl.init (options : AlarmPublisherOptions) (h : options.Valid) (now : Time) : Impl :=
  { options := options
    ring := .ofSize options.queueEntries h.queueEntries
    heartbeat := now }

/-! ## Helpers of the sections -/

namespace Impl

/-- `active && !retired` -/
def serving (s : Impl) (id : SlotId) : Bool := (s.heap id).active && !(s.heap id).retired

/-- The slot that speaks for its name: the serving one with the greatest identifier. -/
def current (s : Impl) (id : SlotId) : Bool :=
  if !s.serving id then false
  else match s.names.find? (s.heap id).name with
    | none => false
    | some ids =>
      match ids.reverse.find? s.serving with
      | some candidate => candidate == id
      | none => false

def pending (s : Impl) (id : SlotId) : Bool :=
  let slot := s.heap id
  slot.force || slot.deliveredEpoch != s.epoch || slot.delivered < slot.revision

def setSlot (s : Impl) (id : SlotId) (slot : Slot) : Impl :=
  { s with heap := Function.update s.heap id slot }

/-- An event with the latest state of a slot. -/
def snapshot (s : Impl) (id : SlotId) (stamp : Int) : Event :=
  { slot := id
    state := (s.heap id).latest
    revision := (s.heap id).revision
    timestamp := stamp }

def discardQueue (s : Impl) : Impl :=
  { s with
    counters := { s.counters with
      discardedTransitions := s.counters.discardedTransitions + s.ring.count }
    ring := s.ring.discard }

/-! ## Registrations -/

/-- `prepare`, for a caller whose reservation was granted. -/
def prepare (s : Impl) (name : String) (state : AlarmState) : Impl :=
  if s.stopping then s
  else
    let (latest, truncated) := encode state
    let id := s.nextId + 1
    { s with
      nextId := id
      heap := Function.update s.heap id { name := name, latest := latest }
      slots := s.slots ++ [id]
      names := s.names.insert name ((s.names.find? name).getD [] ++ [id])
      counters := if truncated then
        { s.counters with messagesTruncated := s.counters.messagesTruncated + 1 } else s.counters }

def activate (s : Impl) (id : SlotId) : Impl :=
  let slot := s.heap id
  if !slot.retired && !slot.active then s.setSlot id { slot with active := true, force := true }
  else s

def retire (s : Impl) (id : SlotId) : Impl :=
  s.setSlot id { s.heap id with active := false, retired := true }

/-- The registration goes away. -/
def remove (s : Impl) (id : SlotId) : Impl :=
  let name := (s.heap id).name
  let s := s.retire id
  { s with
    slots := s.slots.erase id
    names := match s.names.find? name with
      | none => s.names
      | some ids =>
        if (ids.erase id).isEmpty then s.names.erase name else s.names.insert name (ids.erase id) }

/-- The part of `update` that runs for the current slot of an enabled publisher. -/
def record (s : Impl) (id : SlotId) (stamp : Int) : Impl :=
  if s.live && !s.recovering && s.ring.count < s.ring.size then
    { s with ring := s.ring.push (s.snapshot id stamp) }
  else
    let s := { s with counters :=
      { s.counters with coalescedUpdates := s.counters.coalescedUpdates + 1 } }
    if s.ring.count = s.ring.size then
      { s.discardQueue with epoch := s.epoch + 1, recovering := true }
    else s

def update (s : Impl) (id : SlotId) (state : AlarmState) (stamp : Int) : Impl :=
  let (encoded, truncated) := encode state
  let slot := s.heap id
  if s.stopping || slot.retired || slot.latest == encoded then s
  else
    let s := s.setSlot id { slot with latest := encoded, revision := slot.revision + 1 }
    let s := if truncated then
      { s with counters :=
        { s.counters with messagesTruncated := s.counters.messagesTruncated + 1 } } else s
    if s.enabled && s.current id then s.record id stamp else s

/-! ## The worker -/

/-- Pop events until one belongs to a current slot. -/
def takeCurrent : Nat → Impl → Impl × Option Event
  | 0, s => (s, none)
  | n + 1, s =>
    match s.ring.pop with
    | none => (s, none)
    | some (event, ring) =>
      let s := { s with ring := ring }
      if s.current event.slot then (s, some event)
      else takeCurrent n { s with counters :=
        { s.counters with discardedTransitions := s.counters.discardedTransitions + 1 } }

/-- The slots in the order of the round robin, starting behind `lastId`. -/
def rotation (s : Impl) : List SlotId :=
  (s.slots.filter fun id => s.lastId < id) ++ s.slots.filter fun id => id ≤ s.lastId

def launch (s : Impl) (selected : Option Event) (reconciliation : Bool) : Impl :=
  { s with worker := .sending {
      selected := selected
      reconciliation := reconciliation
      epoch := s.epoch } }

/-- The part of a turn that follows an empty ring. -/
def reconcile (s : Impl) (now : Time) (stamp : Int) : Impl :=
  match s.rotation.find? fun id => s.current id && s.pending id with
  | some id => { s with lastId := id }.launch (some (s.snapshot id stamp)) true
  | none =>
    let s := if s.live then { s with recovering := false } else s
    if !s.slots.any s.current || now < s.heartbeat then s else s.launch none false

/-- One turn of the loop up to the point where the mutex is released.  The clock is read
    against `retryAt` and later against `heartbeat`. -/
def turn (s : Impl) (now now' : Time) (stamp : Int) : Option Impl :=
  match s.worker with
  | .looping =>
    if s.stopping then some { s with worker := .exited }
    else if !s.enabled || now < s.retryAt then some s
    else
      let (s, event) := takeCurrent s.ring.count s
      match event with
      | some event => some (s.launch (some event) false)
      | none => some (s.reconcile now' stamp)
  | _ => none

/-- The server executes the `XADD` of the request on its way. -/
def append (s : Impl) : Option Impl :=
  match s.worker with
  | .sending flight =>
    match flight.selected, flight.appended with
    | some event, false => some { s with
        worker := .sending { flight with appended := true }
        sink := s.sink ++ [{
          name := (s.heap event.slot).name
          state := event.state
          timestamp := event.timestamp }] }
    | _, _ => none
  | _ => none

def countSent (s : Impl) (reconciliation : Bool) : Impl :=
  { s with counters := { s.counters with
      sent := s.counters.sent + 1
      reconciled := if reconciliation then s.counters.reconciled + 1 else s.counters.reconciled } }

def markDelivered (s : Impl) (event : Event) (epoch : Nat) : Impl :=
  let slot := s.heap event.slot
  s.setSlot event.slot { slot with
    delivered := max slot.delivered event.revision
    deliveredEpoch := epoch
    force := false }

/-- An accepted event is booked on its slot, unless the slot has been replaced. -/
def book (s : Impl) (flight : Flight) : Impl :=
  match flight.selected with
  | none => s
  | some event =>
    let s := s.countSent flight.reconciliation
    if s.current event.slot then s.markDelivered event flight.epoch else s

/-- Everything that is not an acceptance starts a recovery. -/
def fail (s : Impl) (rejected : Bool) (now : Time) : Impl :=
  let s := if rejected then
      { s with counters := { s.counters with
        rejected := s.counters.rejected + 1
        lastError := "Redis rejected alarm delivery" } }
    else
      { s with
        live := false
        counters := { s.counters with
          transportFailures := s.counters.transportFailures + 1
          lastError := "Redis alarm transport unavailable" } }
  { s.discardQueue with
    epoch := s.epoch + 1
    recovering := true
    retryAt := now + s.options.retryMs }

def reply (s : Impl) (result : SendResult) (now now' : Time) : Option Impl :=
  match s.worker with
  | .sending flight =>
    if flight.allows result then
      let s := { s with worker := .looping, heartbeat := now + s.options.heartbeatMs }
      match result with
      | .accepted =>
        let s := { s with live := true, counters := { s.counters with lastError := "" } }
        some (s.book flight)
      | .rejected => some (s.fail true now')
      | .unavailable => some (s.fail false now')
    else none
  | _ => none

/-! ## Status -/

/-- The texts of `status().state`. -/
inductive State where
  | stopped | staged | idle | disconnected | recovering | ready
  deriving DecidableEq, Repr

def active (s : Impl) : Nat := s.slots.countP s.current

def pendingCount (s : Impl) : Nat := s.slots.countP fun id => s.current id && s.pending id

def state (s : Impl) : State :=
  if s.stopping then .stopped
  else if !s.enabled then .staged
  else if s.active = 0 then .idle
  else if !s.live then .disconnected
  else if s.recovering || s.pendingCount ≠ 0 || s.ring.count ≠ 0 then .recovering
  else .ready

end Impl

/-! ## The machine -/

inductive Label where
  | enable
  | prepare (name : String) (state : AlarmState)
  | activate (id : SlotId)
  | update (id : SlotId) (state : AlarmState) (stamp : Int)
  | retire (id : SlotId)
  | remove (id : SlotId)
  | turn (now now' : Time) (stamp : Int)
  | append
  | reply (result : SendResult) (now now' : Time)
  | stop
  deriving DecidableEq, Repr

/-- A registration can only be used while it exists. -/
def step (s : Impl) : Label → Option Impl
  | .enable => some { s with enabled := true }
  | .prepare name state => some (s.prepare name state)
  | .activate id => if id ∈ s.slots then some (s.activate id) else none
  | .update id state stamp => if id ∈ s.slots then some (s.update id state stamp) else none
  | .retire id => if id ∈ s.slots then some (s.retire id) else none
  | .remove id => if id ∈ s.slots then some (s.remove id) else none
  | .turn now now' stamp => s.turn now now' stamp
  | .append => s.append
  | .reply result now now' => s.reply result now now'
  | .stop => some { s with stopping := true }

def machine : Machine Impl Label where
  start s := ∃ options h now, s = Impl.init options h now
  step := step

end RedisPvxsIoc.Alarm
