import RedisPvxsIoc.Foundations.FinMap
import Mathlib.Data.String.Basic

/-!
# Configuration Types

The records of `include/redis_pvxs_ioc/config.h` with the defaults of the source, and the
comparisons of `src/config.cpp` that decide whether a running object can be kept.

A `double` of the configuration is a finite number and is kept as an exact rational;
`std::map` is a `FinMap`, `std::vector` a list.

## Main results

- `sameReaderTopology_iff` says which fields of a PV a kept runtime relies on
- `sameRedisConfig_iff`, `sameServerConfig_iff`, … : the other comparisons are equality of
  the whole section
-/

namespace RedisPvxsIoc.Config

open Foundations

def kDefaultRedisBackendAlias : String := "default"

def kAlarmQueueEntryBytes : Nat := 1024

def kDefaultNDArrayMaxFrameGap : Nat := 10000

inductive PrimitiveType where
  | boolean | int8 | uint8 | int16 | uint16 | int32 | uint32 | int64 | uint64
  | float32 | float64 | string
  deriving DecidableEq, Repr

inductive Shape where
  | scalar | array
  deriving DecidableEq, Repr

inductive PVKind where
  | value | ntNDArray
  deriving DecidableEq, Repr

inductive DisplayForm where
  | default | string | binary | decimal | hex | exponential | engineering
  deriving DecidableEq, Repr

structure RouteConfig where
  backend : String := ""
  key : String := ""
  deriving DecidableEq, Repr

structure ConfirmConfig where
  backend : String := ""
  key : String := ""
  timeoutMs : Int := 250
  deriving DecidableEq, Repr

structure LimitConfig where
  low : Option Rat := none
  high : Option Rat := none
  deriving DecidableEq, Repr

structure AlarmConfig where
  lowAlarm : Option Rat := none
  lowWarning : Option Rat := none
  highWarning : Option Rat := none
  highAlarm : Option Rat := none
  hysteresis : Rat := 0
  deriving DecidableEq, Repr

structure MetadataConfig where
  description : String := ""
  units : String := ""
  precision : Option Int := none
  form : Option DisplayForm := none
  display : LimitConfig := {}
  control : LimitConfig := {}
  minStep : Option Rat := none
  deriving DecidableEq, Repr

structure LinearTransformConfig where
  scale : Rat := 1
  offset : Rat := 0
  deriving DecidableEq, Repr

/-- `staleAfterMs = 0` leaves the cadence of the source unspecified. -/
structure SourceHealthConfig where
  required : Bool := true
  staleAfterMs : Nat := 0
  deriving DecidableEq, Repr

structure AccessAssignment where
  asg : String := "DEFAULT"
  asl : Int := 0
  deriving DecidableEq, Repr

structure AccessDefaultsConfig where
  pv : AccessAssignment := {}
  rpc : AccessAssignment := {}
  adminRead : AccessAssignment := {}
  adminWrite : AccessAssignment := {}
  deriving DecidableEq, Repr

structure AccessWatchConfig where
  enabled : Bool := false
  intervalMs : Nat := 1000
  settleMs : Nat := 250
  deriving DecidableEq, Repr

structure AccessConfig where
  enabled : Bool := false
  file : String := ""
  macros : FinMap String String := ∅
  watch : AccessWatchConfig := {}
  defaults : AccessDefaultsConfig := {}
  deriving DecidableEq

structure RpcServiceConfig where
  endpoint : String := ""
  service : String := ""
  suffix : String := ""
  defaults : FinMap String String := ∅
  methodDefaults : FinMap String (FinMap String String) := ∅
  optional : Bool := false
  discoveryTimeoutMs : Nat := 3000
  timeoutMs : Nat := 10000
  retryIntervalMs : Nat := 5000
  access : Option AccessAssignment := none
  deriving DecidableEq

/-- The alternatives of the variant: nothing, a scalar of a primitive type, or an array of
    one.  Numbers carry the primitive type that selects the alternative. -/
inductive TypedValue where
  | monostate
  | boolean (value : Bool)
  | integer (type : PrimitiveType) (value : Int)
  | floating (type : PrimitiveType) (value : Rat)
  | string (value : String)
  | integers (type : PrimitiveType) (values : List Int)
  | floatings (type : PrimitiveType) (values : List Rat)
  deriving DecidableEq, Repr

structure PVConfig where
  name : String := ""
  aliases : List String := []
  kind : PVKind := .value
  type : PrimitiveType := .float64
  shape : Shape := .scalar
  read : RouteConfig := {}
  write : Option RouteConfig := none
  confirm : Option ConfirmConfig := none
  metadata : MetadataConfig := {}
  alarms : AlarmConfig := {}
  transform : Option LinearTransformConfig := none
  initialValue : TypedValue := .monostate
  access : Option AccessAssignment := none
  maxFrameBytes : Nat := 32 * 1024 * 1024
  maxFrameGap : Nat := kDefaultNDArrayMaxFrameGap
  sourceHealth : SourceHealthConfig := {}
  deriving DecidableEq, Repr

structure ServerConfig where
  «instance» : String := ""
  nameSpace : String := ""
  interfaces : List String := []
  tcpPort : Option Nat := none
  udpPort : Option Nat := none
  autoBeacon : Bool := true
  deriving DecidableEq, Repr

structure RedisConfig where
  baseKey : String := ""
  host : String := "127.0.0.1"
  port : Nat := 6379
  user : String := ""
  password : String := ""
  workers : Nat := 1
  readers : Nat := 1
  readerProbeMs : Nat := 1000
  deriving DecidableEq, Repr

abbrev RedisBackendConfigs := FinMap String RedisConfig

structure AlarmStreamConfig where
  backend : String := ""
  stream : String := "acorn:alarms"
  deriving DecidableEq, Repr

structure ChannelFinderConfig where
  url : String := ""
  owner : String := "redis-pvxs-ioc"
  tags : List String := []
  properties : FinMap String String := ∅
  deriving DecidableEq

structure DiscoveryConfig where
  enabled : Bool := true
  bindAddress : String := "0.0.0.0"
  udpPort : Nat := 5049
  timeoutMs : Nat := 20000
  maxHoldoffMs : Nat := 10000
  maxRecords : Nat := 100000
  maxBytes : Nat := 16 * 1024 * 1024
  deriving DecidableEq, Repr

/-- Without `operationTimeoutMs` the limit is the larger of five seconds and the configured
    confirmation wait plus two seconds. -/
structure OperationLimitsConfig where
  writeWorkers : Nat := 4
  queuedWritesPerPV : Nat := 16
  queuedWriteBytes : Nat := 64 * 1024 * 1024
  rpcWorkers : Nat := 4
  queuedRpcPerMethod : Nat := 16
  queuedRpcBytes : Nat := 64 * 1024 * 1024
  maxPayloadBytes : Nat := 32 * 1024 * 1024
  operationTimeoutMs : Option Nat := none
  alarmQueueEntries : Nat := 1024
  alarmStateBytes : Nat := 64 * 1024 * 1024
  deriving DecidableEq, Repr

structure AppConfig where
  schemaVersion : Nat := 1
  legacyInput : Bool := true
  server : ServerConfig := {}
  access : AccessConfig := {}
  redisBackends : RedisBackendConfigs := ∅
  alarms : AlarmStreamConfig := {}
  channelFinder : ChannelFinderConfig := {}
  discovery : DiscoveryConfig := {}
  limits : OperationLimitsConfig := {}
  pvs : List PVConfig := []
  rpcServices : List RpcServiceConfig := []
  deriving DecidableEq

/-! ## Comparisons -/

def sameAccessAssignment (lhs rhs : AccessAssignment) : Bool :=
  lhs.asg == rhs.asg && lhs.asl == rhs.asl

theorem sameAccessAssignment_iff (lhs rhs : AccessAssignment) :
    sameAccessAssignment lhs rhs = true ↔ lhs = rhs := by
  cases lhs
  cases rhs
  simp [sameAccessAssignment]

/-- The lambda `sameOptionalRoute` of the topology comparison. -/
def sameOptionalRoute : Option RouteConfig → Option RouteConfig → Bool
  | none, none => true
  | some left, some right => left.backend == right.backend && left.key == right.key
  | _, _ => false

def sameConfirm : Option ConfirmConfig → Option ConfirmConfig → Bool
  | none, none => true
  | some lhs, some rhs =>
    lhs.backend == rhs.backend && lhs.key == rhs.key && lhs.timeoutMs == rhs.timeoutMs
  | _, _ => false

def sameReaderTopology (lhs rhs : PVConfig) : Bool :=
  lhs.name == rhs.name && lhs.kind == rhs.kind && lhs.type == rhs.type &&
  lhs.shape == rhs.shape && lhs.maxFrameBytes == rhs.maxFrameBytes &&
  lhs.read.backend == rhs.read.backend && lhs.read.key == rhs.read.key &&
  sameOptionalRoute lhs.write rhs.write && sameConfirm lhs.confirm rhs.confirm

theorem sameOptionalRoute_iff (lhs rhs : Option RouteConfig) :
    sameOptionalRoute lhs rhs = true ↔ lhs = rhs := by
  rcases lhs with _ | ⟨lb, lk⟩ <;> rcases rhs with _ | ⟨rb, rk⟩ <;> simp [sameOptionalRoute]

theorem sameConfirm_iff (lhs rhs : Option ConfirmConfig) :
    sameConfirm lhs rhs = true ↔ lhs = rhs := by
  rcases lhs with _ | ⟨lb, lk, lt⟩ <;> rcases rhs with _ | ⟨rb, rk, rt⟩ <;>
    simp [sameConfirm, and_assoc]

/-- The part of a PV that a runtime cannot change while it lives. -/
structure SameTopology (lhs rhs : PVConfig) : Prop where
  name : lhs.name = rhs.name
  kind : lhs.kind = rhs.kind
  type : lhs.type = rhs.type
  shape : lhs.shape = rhs.shape
  maxFrameBytes : lhs.maxFrameBytes = rhs.maxFrameBytes
  read : lhs.read = rhs.read
  write : lhs.write = rhs.write
  confirm : lhs.confirm = rhs.confirm

theorem sameReaderTopology_iff (lhs rhs : PVConfig) :
    sameReaderTopology lhs rhs = true ↔ SameTopology lhs rhs := by
  have hroute : lhs.read = rhs.read ↔
      lhs.read.backend = rhs.read.backend ∧ lhs.read.key = rhs.read.key := by
    cases lhs.read
    cases rhs.read
    simp
  simp only [sameReaderTopology, Bool.and_eq_true, beq_iff_eq, sameOptionalRoute_iff,
    sameConfirm_iff]
  constructor
  · rintro ⟨⟨⟨⟨⟨⟨⟨⟨hname, hkind⟩, htype⟩, hshape⟩, hbytes⟩, hbackend⟩, hkey⟩, hwrite⟩, hconfirm⟩
    exact ⟨hname, hkind, htype, hshape, hbytes, hroute.mpr ⟨hbackend, hkey⟩, hwrite, hconfirm⟩
  · intro h
    obtain ⟨hbackend, hkey⟩ := hroute.mp h.read
    exact ⟨⟨⟨⟨⟨⟨⟨⟨h.name, h.kind⟩, h.type⟩, h.shape⟩, h.maxFrameBytes⟩, hbackend⟩, hkey⟩,
      h.write⟩, h.confirm⟩

theorem SameTopology.refl (pv : PVConfig) : SameTopology pv pv :=
  ⟨rfl, rfl, rfl, rfl, rfl, rfl, rfl, rfl⟩

theorem SameTopology.symm {a b : PVConfig} (h : SameTopology a b) : SameTopology b a :=
  ⟨h.name.symm, h.kind.symm, h.type.symm, h.shape.symm, h.maxFrameBytes.symm, h.read.symm,
    h.write.symm, h.confirm.symm⟩

theorem SameTopology.trans {a b c : PVConfig} (h : SameTopology a b) (h' : SameTopology b c) :
    SameTopology a c :=
  ⟨h.name.trans h'.name, h.kind.trans h'.kind, h.type.trans h'.type, h.shape.trans h'.shape,
    h.maxFrameBytes.trans h'.maxFrameBytes, h.read.trans h'.read, h.write.trans h'.write,
    h.confirm.trans h'.confirm⟩

/-! ## Comparisons of the other sections -/

def sameServerConfig (lhs rhs : ServerConfig) : Bool :=
  lhs.instance == rhs.instance && lhs.nameSpace == rhs.nameSpace &&
  lhs.interfaces == rhs.interfaces && lhs.tcpPort == rhs.tcpPort &&
  lhs.udpPort == rhs.udpPort && lhs.autoBeacon == rhs.autoBeacon

def sameAccessConfig (lhs rhs : AccessConfig) : Bool :=
  lhs.enabled == rhs.enabled && lhs.file == rhs.file && lhs.macros == rhs.macros &&
  lhs.watch.enabled == rhs.watch.enabled && lhs.watch.intervalMs == rhs.watch.intervalMs &&
  lhs.watch.settleMs == rhs.watch.settleMs &&
  sameAccessAssignment lhs.defaults.pv rhs.defaults.pv &&
  sameAccessAssignment lhs.defaults.rpc rhs.defaults.rpc &&
  sameAccessAssignment lhs.defaults.adminRead rhs.defaults.adminRead &&
  sameAccessAssignment lhs.defaults.adminWrite rhs.defaults.adminWrite

def sameRedisConfig (lhs rhs : RedisConfig) : Bool :=
  lhs.baseKey == rhs.baseKey && lhs.host == rhs.host && lhs.port == rhs.port &&
  lhs.user == rhs.user && lhs.password == rhs.password && lhs.workers == rhs.workers &&
  lhs.readers == rhs.readers && lhs.readerProbeMs == rhs.readerProbeMs

def sameAlarmStreamConfig (lhs rhs : AlarmStreamConfig) : Bool :=
  lhs.backend == rhs.backend && lhs.stream == rhs.stream

def sameOperationLimits (a b : OperationLimitsConfig) : Bool :=
  a.writeWorkers == b.writeWorkers && a.queuedWritesPerPV == b.queuedWritesPerPV &&
  a.queuedWriteBytes == b.queuedWriteBytes && a.maxPayloadBytes == b.maxPayloadBytes &&
  a.rpcWorkers == b.rpcWorkers && a.queuedRpcPerMethod == b.queuedRpcPerMethod &&
  a.queuedRpcBytes == b.queuedRpcBytes && a.operationTimeoutMs == b.operationTimeoutMs &&
  a.alarmQueueEntries == b.alarmQueueEntries && a.alarmStateBytes == b.alarmStateBytes

def sameDiscoveryConfig (lhs rhs : DiscoveryConfig) : Bool :=
  (lhs.enabled, lhs.bindAddress, lhs.udpPort, lhs.timeoutMs, lhs.maxHoldoffMs, lhs.maxRecords,
    lhs.maxBytes) ==
  (rhs.enabled, rhs.bindAddress, rhs.udpPort, rhs.timeoutMs, rhs.maxHoldoffMs, rhs.maxRecords,
    rhs.maxBytes)

theorem sameServerConfig_iff (lhs rhs : ServerConfig) :
    sameServerConfig lhs rhs = true ↔ lhs = rhs := by
  cases lhs
  cases rhs
  simp [sameServerConfig, and_assoc]

theorem sameRedisConfig_iff (lhs rhs : RedisConfig) :
    sameRedisConfig lhs rhs = true ↔ lhs = rhs := by
  cases lhs
  cases rhs
  simp [sameRedisConfig, and_assoc]

theorem sameAlarmStreamConfig_iff (lhs rhs : AlarmStreamConfig) :
    sameAlarmStreamConfig lhs rhs = true ↔ lhs = rhs := by
  cases lhs
  cases rhs
  simp [sameAlarmStreamConfig]

/-- The order of the fields differs from the declaration, so the two sides are permuted
    conjunctions of the same equations. -/
theorem sameOperationLimits_iff (a b : OperationLimitsConfig) :
    sameOperationLimits a b = true ↔ a = b := by
  cases a
  cases b
  simp only [sameOperationLimits, Bool.and_eq_true, beq_iff_eq, OperationLimitsConfig.mk.injEq]
  tauto

theorem sameDiscoveryConfig_iff (lhs rhs : DiscoveryConfig) :
    sameDiscoveryConfig lhs rhs = true ↔ lhs = rhs := by
  cases lhs
  cases rhs
  simp [sameDiscoveryConfig]

end RedisPvxsIoc.Config
