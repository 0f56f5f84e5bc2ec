import RedisPvxsIoc.Config.Types

/-!
# Source Health

Model of `src/source_health.cpp`, together with the part of a Redis reader that a runtime
can observe: its status and the batches it has read but not yet delivered.

Times are nanoseconds of the local monotonic clock.  The source marks a sample that was
never received by the clock's epoch, so a reading of the clock is a positive number.

A `Reader` also carries two ghost counters that order its reads and its rejections; no
definition of the source looks at them.

## Main results

- `assessSource_ready`: everything that a report of `ready` rests on
- `ReadEvidence.mono`: the evidence captured with a batch survives what a reader does later
-/

namespace RedisPvxsIoc.Runtime

open Config

/-! ## What a reader reports -/

/-- `RedisAdapter::StreamKind` -/
inductive StreamKind where
  | unknown | missing | invalid | stream
  deriving DecidableEq, Repr

/-- `RedisAdapter::ReaderStatus`; an empty handle reports the defaults. -/
structure ReaderStatus where
  active : Bool := false
  connected : Bool := false
  epoch : Nat := 0
  streamKind : StreamKind := .unknown
  readRejections : Nat := 0
  inspected : Bool := false
  inspectionRejections : Nat := 0
  inspectionFailures : Nat := 0
  deriving DecidableEq, Repr

/-- `RedisAdapter::StreamBatchMetadata`: captured when the batch is read. -/
structure StreamBatchMetadata where
  epoch : Nat
  readRejections : Nat
  deriving DecidableEq, Repr

/-- A reader of one subscription. -/
structure Reader where
  status : ReaderStatus
  /-- Ghost: the number of reads and rejections so far. -/
  clock : Nat
  /-- Ghost: the `clock` of the latest rejection, 0 when there was none. -/
  rejectedAt : Nat
  deriving DecidableEq, Repr

/-- What happens to a reader besides reading.  Its epoch only grows, and so does its
    rejection count. -/
inductive ReaderEvent where
  | rejected
  | newEpoch (skipped : Nat)
  | connected (value : Bool)
  | active (value : Bool)
  | streamKind (kind : StreamKind)
  | inspection (inspected : Bool) (rejections failures : Nat)
  deriving DecidableEq, Repr

/-- A fresh subscription: its epoch is 1 and the startup snapshot is its first read. -/
def Reader.subscribed (status : ReaderStatus) : Reader :=
  { status := { status with epoch := 1, readRejections := 0 }, clock := 1, rejectedAt := 0 }

def Reader.apply (r : Reader) : ReaderEvent → Reader
  | .rejected =>
    { r with
      status := { r.status with readRejections := r.status.readRejections + 1 }
      clock := r.clock + 1
      rejectedAt := r.clock + 1 }
  | .newEpoch skipped =>
    { r with status := { r.status with epoch := r.status.epoch + skipped + 1 } }
  | .connected value => { r with status := { r.status with connected := value } }
  | .active value => { r with status := { r.status with active := value } }
  | .streamKind kind => { r with status := { r.status with streamKind := kind } }
  | .inspection inspected rejections failures =>
    { r with
      status := { r.status with
        inspected := inspected
        inspectionRejections := rejections
        inspectionFailures := failures } }

/-- The reader reads a batch: what is captured with it, and the ghost instant of the read. -/
def Reader.capture (r : Reader) : Reader × StreamBatchMetadata × Nat :=
  ({ r with clock := r.clock + 1 },
    { epoch := r.status.epoch, readRejections := r.status.readRejections }, r.clock + 1)

/-- The status that a handle reports; a moved-from handle is empty. -/
def handleStatus (handle : Option Reader) : ReaderStatus :=
  (handle.map Reader.status).getD {}

/-! ## The sample state of a route -/

structure SourceSampleState (Id : Type) where
  valid : Bool := false
  wasStale : Bool := false
  cursor : Option Id := none
  error : String := "No valid source data"
  epoch : Nat := 0
  invalidSamples : Nat := 0
  staleTransitions : Nat := 0
  staleCallbacks : Nat := 0
  acceptedReadRejections : Nat := 0
  seenEpoch : Nat := 0
  received : Nat := 0
  deriving DecidableEq, Repr

variable {Id : Type}

def SourceSampleState.accept (sample : SourceSampleState Id) (id : Id) (capturedEpoch : Nat)
    (now : Nat) : SourceSampleState Id :=
  { sample with
    valid := true, wasStale := false, cursor := some id
    epoch := capturedEpoch, seenEpoch := capturedEpoch, received := now, error := "" }

def SourceSampleState.reject (sample : SourceSampleState Id) (reason : String)
    (capturedEpoch : Nat) : SourceSampleState Id :=
  { sample with
    valid := false, seenEpoch := capturedEpoch, error := reason
    invalidSamples := sample.invalidSamples + 1 }

/-- `++sample.staleCallbacks` -/
def SourceSampleState.countStale (sample : SourceSampleState Id) : SourceSampleState Id :=
  { sample with staleCallbacks := sample.staleCallbacks + 1 }

/-! ## The assessment of a route -/

inductive SourceState where
  | inactive | disconnected | missing | wrongType | readRejected | invalid | waiting
  | stale | ready
  deriving DecidableEq, Repr

inductive Inspection where
  | disabled | available | rejected | unavailable | pending
  deriving DecidableEq, Repr

inductive Role where
  | read | readConfirm | confirm
  deriving DecidableEq, Repr

structure SourceStatus (Id : Type) where
  pv : String
  backend : String
  key : String
  role : Role
  state : SourceState
  error : String
  inspection : Inspection
  required : Bool
  valid : Bool
  fresh : Bool
  stale : Bool
  ready : Bool
  staleAfterMs : Nat
  readerProbeMs : Nat
  lastValidAgeMs : Int
  lastValidCursor : Option Id
  lastValidEpoch : Nat
  invalidSamples : Nat
  staleTransitions : Nat
  staleCallbacks : Nat
  reader : ReaderStatus

def nanosecondsPerMs : Nat := 1000000

/-- `lastValidAgeMs`: -1 when nothing was received, never negative otherwise. -/
def lastValidAgeMs (sample : SourceSampleState Id) (now : Nat) : Int :=
  if sample.received ≠ 0 then ((now - sample.received) / nanosecondsPerMs : Nat) else -1

/-- The chain of conditions that names the state, with the error text of each. -/
def sourceState (sample : SourceSampleState Id) (reader : ReaderStatus) (active valid stale : Bool) :
    SourceState × String :=
  if !active || !reader.active then (.inactive, "")
  else if !reader.connected then (.disconnected, "Source reader disconnected")
  else if reader.streamKind = .missing then (.missing, "Source stream missing")
  else if reader.streamKind = .invalid then (.wrongType, "Source key is not a Redis stream")
  else if reader.readRejections > sample.acceptedReadRejections then
    (.readRejected, "Source read rejected; waiting for valid data")
  else if !sample.valid && sample.seenEpoch == reader.epoch then (.invalid, sample.error)
  else if sample.epoch ≠ reader.epoch then
    (.waiting, "Waiting for valid data in current source epoch")
  else if !valid then (.invalid, sample.error)
  else if stale then (.stale, "Source freshness deadline exceeded")
  else (.ready, "")

def inspectionOf (reader : ReaderStatus) (probeMs : Nat) : Inspection :=
  if probeMs = 0 then .disabled
  else if reader.inspected then .available
  else if reader.inspectionRejections ≠ 0 then .rejected
  else if reader.inspectionFailures ≠ 0 then .unavailable
  else .pending

/-- The status of a route and its sample state after the assessment. -/
def assessSource (sample : SourceSampleState Id) (reader : ReaderStatus) (config : PVConfig)
    (name : String) (route : RouteConfig) (role : Role) (active : Bool) (probeMs now : Nat) :
    SourceStatus Id × SourceSampleState Id :=
  let staleAfterMs := config.sourceHealth.staleAfterMs
  let age := lastValidAgeMs sample now
  let valid := sample.valid && sample.epoch == reader.epoch
  let stale := valid && staleAfterMs ≠ 0 && decide ((staleAfterMs : Int) ≤ age)
  let transitions := sample.staleTransitions + if stale && !sample.wasStale then 1 else 0
  let (state, error) := sourceState sample reader active valid stale
  ({ pv := name, backend := route.backend, key := route.key, role := role
     state := state, error := error, inspection := inspectionOf reader probeMs
     required := config.sourceHealth.required, valid := valid, fresh := valid && !stale
     stale := stale, ready := state = .ready, staleAfterMs := staleAfterMs
     readerProbeMs := probeMs, lastValidAgeMs := age, lastValidCursor := sample.cursor
     lastValidEpoch := sample.epoch, invalidSamples := sample.invalidSamples
     staleTransitions := transitions, staleCallbacks := sample.staleCallbacks
     reader := reader },
   { sample with staleTransitions := transitions, wasStale := stale })

/-- `batchHealthError`: what the reader did since the batch was read. -/
def batchHealthError (current : ReaderStatus) (metadata : StreamBatchMetadata) : String :=
  if !current.connected then "Source reader disconnected"
  else if current.readRejections > metadata.readRejections then
    "Source read rejected; waiting for valid data"
  else ""

/-! ## What `ready` rests on -/

/-- The facts about a reader and a sample state that make a route ready at `now`. -/
structure ReadyAt (sample : SourceSampleState Id) (reader : ReaderStatus)
    (staleAfterMs now : Nat) : Prop where
  active : reader.active = true
  connected : reader.connected = true
  present : reader.streamKind ≠ .missing
  isStream : reader.streamKind ≠ .invalid
  acknowledged : reader.readRejections ≤ sample.acceptedReadRejections
  valid : sample.valid = true
  epoch : sample.epoch = reader.epoch
  fresh : staleAfterMs ≠ 0 → lastValidAgeMs sample now < staleAfterMs

variable {sample : SourceSampleState Id}

/-- Only the last branch of the chain is `ready`: every condition before it is false. -/
theorem sourceState_ready {reader : ReaderStatus} {active valid stale : Bool}
    (h : (sourceState sample reader active valid stale).1 = .ready) :
    reader.active = true ∧ reader.connected = true ∧ reader.streamKind ≠ .missing ∧
      reader.streamKind ≠ .invalid ∧ reader.readRejections ≤ sample.acceptedReadRejections ∧
      sample.epoch = reader.epoch ∧ valid = true ∧ stale = false := by
  unfold sourceState at h
  split at h
  · cases h
  rename_i hactive
  split at h
  · cases h
  rename_i hconnected
  split at h
  · cases h
  rename_i hmissing
  split at h
  · cases h
  rename_i hinvalid
  split at h
  · cases h
  rename_i hrejected
  split at h
  · cases h
  split at h
  · cases h
  rename_i hepoch
  split at h
  · cases h
  rename_i hvalid
  split at h
  · cases h
  rename_i hstale
  have hreader : reader.active = true := by
    cases hr : reader.active
    · exact absurd (by rw [hr]; simp) hactive
    · rfl
  exact ⟨hreader, by simpa using hconnected, hmissing, hinvalid, not_lt.mp hrejected,
    not_not.mp hepoch, by simpa using hvalid, by simpa using hstale⟩

variable {now : Nat}

/-- A route that is reported ready meets every condition of the chain. -/
theorem assessSource_ready {reader : ReaderStatus} {config : PVConfig} {name : String}
    {route : RouteConfig} {role : Role} {active : Bool} {probeMs : Nat}
    (h : (assessSource sample reader config name route role active probeMs now).1.ready = true) :
    ReadyAt sample reader config.sourceHealth.staleAfterMs now := by
  obtain ⟨hactive, hconnected, hmissing, hinvalid, hrejected, hepoch, hvalid, hstale⟩ :=
    sourceState_ready (of_decide_eq_true h)
  rw [Bool.and_eq_true] at hvalid
  refine ⟨hactive, hconnected, hmissing, hinvalid, hrejected, hvalid.1, hepoch, ?_⟩
  intro hdeadline
  by_contra hage
  have hlate := not_lt.mp hage
  rw [hvalid.1, hvalid.2] at hstale
  simp [hdeadline, hlate] at hstale

/-! ## The evidence captured with a batch -/

/-- What the epoch, the rejection count and the instant captured with a batch say about the
    reader now: counts are not ahead of the reader, and a count that is still current was
    captured after the latest rejection. -/
structure ReadEvidence (reader : Reader) (metadata : StreamBatchMetadata) (readAt : Nat) :
    Prop where
  epoch_pos : 0 < metadata.epoch
  epoch_le : metadata.epoch ≤ reader.status.epoch
  rejections_le : metadata.readRejections ≤ reader.status.readRejections
  after : metadata.readRejections = reader.status.readRejections → reader.rejectedAt < readAt

/-- The counters of a reader: its epochs start at 1 and its last rejection is in the past. -/
structure Reader.Sound (r : Reader) : Prop where
  epoch_pos : 0 < r.status.epoch
  rejectedAt_le : r.rejectedAt ≤ r.clock

theorem Reader.sound_subscribed (status : ReaderStatus) : (Reader.subscribed status).Sound :=
  ⟨Nat.one_pos, Nat.zero_le _⟩

variable {r : Reader}

theorem Reader.sound_apply (h : r.Sound) (e : ReaderEvent) : (r.apply e).Sound := by
  cases e with
  | rejected => exact ⟨h.epoch_pos, Nat.le_refl _⟩
  | newEpoch skipped => exact ⟨Nat.succ_pos _, h.rejectedAt_le⟩
  | _ => exact ⟨h.epoch_pos, h.rejectedAt_le⟩

theorem Reader.sound_capture (h : r.Sound) : r.capture.1.Sound :=
  ⟨h.epoch_pos, Nat.le_succ_of_le h.rejectedAt_le⟩

/-- A batch is captured with sound evidence. -/
theorem ReadEvidence.of_capture (h : r.Sound) :
    ReadEvidence r.capture.1 r.capture.2.1 r.capture.2.2 :=
  ⟨h.epoch_pos, Nat.le_refl _, Nat.le_refl _, fun _ => Nat.lt_succ_of_le h.rejectedAt_le⟩

/-- The startup snapshot is read in the first epoch, before any rejection. -/
theorem ReadEvidence.of_snapshot (status : ReaderStatus) :
    ReadEvidence (Reader.subscribed status) { epoch := 1, readRejections := 0 } 1 :=
  ⟨Nat.one_pos, Nat.le_refl _, Nat.le_refl _, fun _ => Nat.one_pos⟩

/-- Evidence stays sound whatever the reader does later.  A rejection makes the captured
    count smaller than the reader's, so it can no longer count as current. -/
theorem ReadEvidence.mono {metadata : StreamBatchMetadata} {readAt : Nat}
    (h : ReadEvidence r metadata readAt) (e : ReaderEvent) :
    ReadEvidence (r.apply e) metadata readAt := by
  cases e with
  | rejected =>
    refine ⟨h.epoch_pos, h.epoch_le, Nat.le_succ_of_le h.rejections_le, ?_⟩
    intro heq
    have hahead : metadata.readRejections = r.status.readRejections + 1 := heq
    have hle := h.rejections_le
    omega
  | newEpoch skipped =>
    refine ⟨h.epoch_pos, ?_, h.rejections_le, h.after⟩
    exact Nat.le_trans h.epoch_le (Nat.le_succ_of_le (Nat.le_add_right _ _))
  | _ => exact ⟨h.epoch_pos, h.epoch_le, h.rejections_le, h.after⟩

theorem ReadEvidence.mono_capture {metadata : StreamBatchMetadata} {readAt : Nat}
    (h : ReadEvidence r metadata readAt) : ReadEvidence r.capture.1 metadata readAt :=
  ⟨h.epoch_pos, h.epoch_le, h.rejections_le, h.after⟩

/-! ## Samples and routes -/

/-- Ghost: an entry that passed the epoch check of its route; `value` is `none` when it was
    malformed. -/
structure Processed (V Id : Type) where
  id : Id
  value : Option V
  metadata : StreamBatchMetadata
  readAt : Nat
  received : Nat
  deriving DecidableEq, Repr

variable {V : Type}

/-- A sample state that is valid describes the last entry that was processed on its route,
    with the evidence captured when that entry was read. -/
def RouteOk (handle : Option Reader) (sample : SourceSampleState Id)
    (last : Option (Processed V Id)) : Prop :=
  sample.valid = true → ∃ o, last = some o ∧ o.value.isSome = true ∧
    sample.epoch = o.metadata.epoch ∧
    sample.acceptedReadRejections = o.metadata.readRejections ∧
    sample.received = o.received ∧ 0 < o.received ∧
    ∀ r, handle = some r → ReadEvidence r o.metadata o.readAt

/-- What a report of `ready` says about the reader and about the last processed entry. -/
structure ReadyRests (reader : Reader) (last : Option (Processed V Id)) (staleAfterMs now : Nat) :
    Prop where
  active : reader.status.active = true
  connected : reader.status.connected = true
  notMissing : reader.status.streamKind ≠ .missing
  notWrongType : reader.status.streamKind ≠ .invalid
  /-- The last entry was valid, read in the reader's epoch, read after the latest rejection,
      and is younger than the deadline. -/
  sample : ∃ o, last = some o ∧ o.value.isSome = true ∧
    o.metadata.epoch = reader.status.epoch ∧ reader.rejectedAt < o.readAt ∧
    (staleAfterMs ≠ 0 → now < o.received + staleAfterMs * nanosecondsPerMs)

theorem lastValidAgeMs_lt {limit : Nat} (hreceived : 0 < sample.received)
    (h : lastValidAgeMs sample now < limit) :
    now < sample.received + limit * nanosecondsPerMs := by
  rw [lastValidAgeMs, if_pos (Nat.pos_iff_ne_zero.mp hreceived)] at h
  have hage : (now - sample.received) / nanosecondsPerMs < limit := Int.ofNat_lt.mp h
  have hlt : now - sample.received < limit * nanosecondsPerMs :=
    (Nat.div_lt_iff_lt_mul (by decide)).mp hage
  omega

variable {handle : Option Reader} {last : Option (Processed V Id)}

/-- **A route reported ready rests on the last processed entry.**  The captured rejection
    count is at most the reader's, so acknowledging the reader's count makes the two equal,
    and equal counts mean that no rejection came after the read. -/
theorem RouteOk.ready {staleAfterMs : Nat} (hok : RouteOk handle sample last)
    (h : ReadyAt sample (handleStatus handle) staleAfterMs now) :
    ∃ r, handle = some r ∧ ReadyRests r last staleAfterMs now := by
  cases handle with
  | none => cases h.active
  | some r =>
    obtain ⟨o, hlast, hvalue, hepoch, hrejections, hreceived, hpos, hevidence⟩ := hok h.valid
    have he := hevidence r rfl
    have hcount : r.status.readRejections ≤ o.metadata.readRejections :=
      hrejections ▸ h.acknowledged
    refine ⟨r, rfl, h.active, h.connected, h.present, h.isStream, o, hlast, hvalue, ?_, ?_, ?_⟩
    · rw [← hepoch]
      exact h.epoch
    · exact he.after (Nat.le_antisymm he.rejections_le hcount)
    · intro hdeadline
      rw [← hreceived]
      exact lastValidAgeMs_lt (hreceived ▸ hpos) (h.fresh hdeadline)

/-- A new valid entry becomes the last one, with its own evidence. -/
theorem RouteOk.accept (sample : SourceSampleState Id) {o : Processed V Id}
    (hvalue : o.value.isSome = true) (hpos : 0 < o.received)
    (hevidence : ∀ r, handle = some r → ReadEvidence r o.metadata o.readAt) :
    RouteOk handle
      { sample.accept o.id o.metadata.epoch o.received with
        acceptedReadRejections := o.metadata.readRejections } (some o) := by
  intro _
  exact ⟨o, rfl, hvalue, rfl, rfl, rfl, hpos, hevidence⟩

/-- A sample state that is not valid promises nothing. -/
theorem RouteOk.of_invalid (h : sample.valid = false) : RouteOk handle sample last := by
  intro hvalid
  rw [h] at hvalid
  cases hvalid

/-- The part of a sample state that readiness rests on. -/
structure SameEvidence (x y : SourceSampleState Id) : Prop where
  valid : x.valid = y.valid
  epoch : x.epoch = y.epoch
  acceptedReadRejections : x.acceptedReadRejections = y.acceptedReadRejections
  received : x.received = y.received

theorem RouteOk.congr {x y : SourceSampleState Id} (hok : RouteOk handle x last)
    (h : SameEvidence y x) :
    RouteOk handle y last := by
  unfold RouteOk at *
  rwa [h.valid, h.epoch, h.acceptedReadRejections, h.received]

theorem SameEvidence.refl (x : SourceSampleState Id) : SameEvidence x x := ⟨rfl, rfl, rfl, rfl⟩

theorem sameEvidence_countStale (x : SourceSampleState Id) : SameEvidence x.countStale x :=
  ⟨rfl, rfl, rfl, rfl⟩

theorem sameEvidence_assess (sample : SourceSampleState Id) (reader : ReaderStatus)
    (config : PVConfig) (name : String) (route : RouteConfig) (role : Role) (active : Bool)
    (probeMs now : Nat) :
    SameEvidence (assessSource sample reader config name route role active probeMs now).2 sample :=
  ⟨rfl, rfl, rfl, rfl⟩

/-- A route stays sound whatever its reader does. -/
theorem RouteOk.mono (hok : RouteOk handle sample last) {handle' : Option Reader}
    (hmono : ∀ metadata readAt, (∀ r, handle = some r → ReadEvidence r metadata readAt) →
      ∀ r', handle' = some r' → ReadEvidence r' metadata readAt) :
    RouteOk handle' sample last := by
  intro hvalid
  obtain ⟨o, hlast, hvalue, hepoch, hrejections, hreceived, hpos, hevidence⟩ := hok hvalid
  exact ⟨o, hlast, hvalue, hepoch, hrejections, hreceived, hpos, hmono _ _ hevidence⟩

end RedisPvxsIoc.Runtime
