import RedisPvxsIoc.Config.Diff
import RedisPvxsIoc.Config.Parse
import RedisPvxsIoc.Discovery.Catalog
import RedisPvxsIoc.Access.Members

/-!
# The Application

Model of the part of `src/app.cpp` that owns the running configuration: its state, the objects
it builds for a configuration, and what the world outside answers while it builds them.

Redis adapters, alarm publishers, PV runtimes and RPC PVs are heap objects that several owners
share and that the code compares by address.  They live in tables and are referred to by an
`ObjectId`; one counter hands the identifiers out and none is handed out twice.  Of a runtime
the model keeps what the application decides by: its configuration, its generation, the objects
it is bound to and whether it is alive and committed.

`unordered_map` is a `FinMap` as well: nothing depends on the order of its entries.
-/

namespace RedisPvxsIoc.Application

open Foundations Config PVRegistry Access Discovery

/-! ## Objects -/

abbrev ObjectId := Nat

/-- A `RedisAdapter`. -/
structure Adapter where
  config : RedisConfig := {}
  deriving DecidableEq, Repr

/-- What an `AlarmPublisher` is connected to. -/
structure AlarmTarget where
  host : String := ""
  port : Nat := 0
  stream : String := ""
  user : String := ""
  password : String := ""
  deriving DecidableEq, Repr

structure Publisher where
  target : AlarmTarget := {}
  queueEntries : Nat := 0
  stateBytes : Nat := 0
  active : Bool := false
  stopped : Bool := false
  deriving DecidableEq, Repr

/-- A `PVRuntimeBase`. -/
structure Runtime where
  fullName : String := ""
  config : PVConfig := {}
  generation : Nat := 0
  alarm : ObjectId := 0
  read : ObjectId := 0
  write : Option ObjectId := none
  confirm : Option ObjectId := none
  alive : Bool := true
  committed : Bool := false
  deriving DecidableEq, Repr

/-- A `PVRuntimeUpdate` that has been prepared. -/
structure RuntimeUpdate where
  runtime : ObjectId
  config : PVConfig
  generation : Nat
  publisher : ObjectId
  deriving DecidableEq, Repr

abbrev RedisBackendRegistry := FinMap String ObjectId
abbrev RuntimeMap := FinMap String ObjectId
abbrev RpcMap := FinMap String ObjectId
abbrev AssignmentMap := FinMap String AccessAssignment

inductive RpcState where
  | ready | unavailable | invalid | discovering
  deriving DecidableEq, Repr

structure RpcServiceState where
  config : RpcServiceConfig
  pvs : RpcMap := ∅
  owners : FinMap String String := ∅
  state : RpcState := .ready
  error : String := ""
  attempts : Nat := 1
  nextRetry : Int := 0

abbrev RpcServices := List RpcServiceState

/-- The diagnostics of one server.  The object owns its `SharedPV`s, which are numbered after
    it. -/
structure AdminNamespace where
  object : ObjectId := 0
  server : ServerConfig := {}
  accessConfigured : Bool := false

/-- A reflection that runs in the background, with what it has captured. -/
structure RpcDiscovery where
  generation : Nat
  index : Nat
  server : ServerConfig
  config : RpcServiceConfig

/-! ## The status of a reload -/

inductive ReloadKind where
  | none | startup | reload | rpcRecovery
  deriving DecidableEq, Repr

inductive ReloadState where
  | idle | running | committed | committedWithError | rejected | failed
  deriving DecidableEq, Repr

inductive ReloadPhase where
  | none | parse | validate | backends | runtimes | rpc | policy | publish | refresh | complete
  deriving DecidableEq, Repr

inductive BackendAction where
  | retained | created | removed
  deriving DecidableEq, Repr

inductive Preconnect where
  | notTested | connected | disconnected | failed | notApplicable
  deriving DecidableEq, Repr

inductive Cutover where
  | pending | removed | active | previousPreserved | notActivated
  deriving DecidableEq, Repr

structure BackendPreparation where
  name : String
  action : BackendAction
  preconnect : Preconnect := .notTested
  cutover : Cutover := .pending
  deriving DecidableEq, Repr

structure ReloadStatus where
  attempt : UInt64 := 0
  candidateGeneration : Nat := 0
  activeGeneration : Nat := 0
  schemaVersion : Nat := 0
  added : UInt64 := 0
  removed : UInt64 := 0
  recreated : UInt64 := 0
  retained : UInt64 := 0
  metadataChanged : UInt64 := 0
  aliasesChanged : UInt64 := 0
  accessChanged : UInt64 := 0
  diffKnown : Bool := false
  committed : Bool := false
  kind : ReloadKind := .none
  state : ReloadState := .idle
  phase : ReloadPhase := .none
  error : String := ""
  backends : List BackendPreparation := []

/-! ## The state -/

structure State where
  currentConfig : AppConfig := {}
  hasConfig : Bool := false
  generation : Nat := 0
  redisBackends : RedisBackendRegistry := ∅
  alarmPublisher : Option ObjectId := none
  runtimes : RuntimeMap := ∅
  rpcPVs : RpcMap := ∅
  rpcAssignments : AssignmentMap := ∅
  rpcServices : RpcServices := []
  catalog : Option DiscoveryCatalog := none
  registry : PVRegistry.Impl := {}
  /-- The access controller; there is one only when `secured`. -/
  access : Controller := {}
  secured : Bool := false
  admin : AdminNamespace := {}
  reload : ReloadStatus := {}
  rpcDiscovery : Option RpcDiscovery := none
  nextRpcDiscoveryIndex : Nat := 0
  /-- `start` has been called. -/
  launched : Bool := false
  started : Bool := false
  adapters : ObjectId → Adapter := fun _ => {}
  publishers : ObjectId → Publisher := fun _ => {}
  runtimeObjects : ObjectId → Runtime := fun _ => {}
  nextObject : ObjectId := 0

namespace State

def accessPart : Component State Controller :=
  ⟨fun s => s.access, fun c s => { s with access := c }, fun _ _ => rfl, fun _ _ _ => rfl⟩

def registryPart : Component State PVRegistry.Impl :=
  ⟨fun s => s.registry, fun r s => { s with registry := r }, fun _ _ => rfl, fun _ _ _ => rfl⟩

/-- The registry that the server serves from. -/
def served (s : State) : PVRegistry.Impl := if s.secured then s.access.registry else s.registry

end State

/-! ## The world outside -/

/-- What the build fixes. -/
structure Platform where
  lib : MacroLibrary
  /-- `REDIS_PVXS_IOC_ENABLE_GRPC` -/
  grpc : Bool
  epicsVersion : String
  version : String

structure BridgeMethod where
  service : String
  method : String
  deriving DecidableEq, Repr

/-- What connecting to a service and preparing its defaults gives. -/
inductive Reflection where
  | methods (found : List BridgeMethod)
  | unavailable (message : String)
  | failed (message : String)

/-- What the world answers during one operation; a message is an exception. -/
structure World where
  /-- The document that `loadConfigFile` finds, section by section. -/
  document : Except String Sections
  access : AccessWorld
  /-- Construction of the adapter of a backend. -/
  adapter : String → Option String := fun _ => none
  connected : String → Bool := fun _ => true
  /-- Construction of an alarm publisher. -/
  publisher : Option String := none
  /-- Initialisation of a new runtime. -/
  runtime : PVConfig → Option String := fun _ => none
  /-- The preview and the alarm registration of `prepareReconfigure`. -/
  reconfigure : PVConfig → Option String := fun _ => none
  /-- Reflection of the service with the given place in the configuration. -/
  reflect : Nat → Reflection := fun _ => .unavailable ""
  /-- The reflection in the background has ended. -/
  reflected : Bool := true
  now : Int := 0
  hostname : Option String := none
  getenv : String → Option String := fun _ => none
  tcpPort : Nat := 5075
  /-- `deactivate` of a retired runtime. -/
  deactivate : ObjectId → Option String := fun _ => none
  /-- The rest of the refresh after a commit. -/
  refresh : Option String := none
  /-- Reporting that the refresh has failed. -/
  report : Option String := none
  /-- Building the server, and starting it with its discovery publisher. -/
  serverBuild : Option String := none
  serverStart : Option String := none

/-- Throw the message, if there is one. -/
def raise (message : Option String) : Effect State Unit :=
  match message with
  | none => pure ()
  | some e => throw e

/-! ## Backends -/

def preconnectOf (w : World) (name : String) : Preconnect :=
  if w.connected name then .connected else .disconnected

/-- `outcomes.push_back(..)` -/
def noteBackend (outcome : BackendPreparation) : Effect State Unit :=
  modify fun s => { s with reload := { s.reload with backends := s.reload.backends ++ [outcome] } }

/-- The adapter that is kept for a backend. -/
def retainedBackend (previous : RedisBackendConfigs) (existing : RedisBackendRegistry)
    (name : String) (config : RedisConfig) : Option ObjectId :=
  match previous.find? name, existing.find? name with
  | some old, some runtime => if sameRedisConfig config old then some runtime else none
  | _, _ => none

def newAdapter (config : RedisConfig) : Effect State ObjectId := do
  let s ← get
  set { s with
    adapters := Function.update s.adapters s.nextObject { config := config }
    nextObject := s.nextObject + 1 }
  return s.nextObject

/-- One turn of the loop of `buildRedisBackends`. -/
def buildBackend (w : World) (previous : RedisBackendConfigs) (existing backends : RedisBackendRegistry)
    (entry : String × RedisConfig) : Effect State RedisBackendRegistry :=
  match retainedBackend previous existing entry.1 entry.2 with
  | some runtime => do
    noteBackend { name := entry.1, action := .retained, preconnect := preconnectOf w entry.1 }
    return backends.emplace entry.1 runtime
  | none =>
    match w.adapter entry.1 with
    | some e => do
      noteBackend { name := entry.1, action := .created, preconnect := .failed }
      throw e
    | none => do
      let adapter ← newAdapter entry.2
      noteBackend { name := entry.1, action := .created, preconnect := preconnectOf w entry.1 }
      return backends.emplace entry.1 adapter

def removedBackends (config : RedisBackendConfigs) (existing : RedisBackendRegistry) :
    List BackendPreparation :=
  (existing.keys.filter fun name => !config.contains name).map fun name =>
    { name := name, action := .removed, preconnect := .notApplicable }

def buildRedisBackends (w : World) (config previous : RedisBackendConfigs)
    (existing : RedisBackendRegistry) : Effect State RedisBackendRegistry := do
  let backends ← config.entries.foldlM (buildBackend w previous existing) FinMap.empty
  (removedBackends config existing).forM noteBackend
  return backends

/-- The lambda `same` of `sameBackendBindings`. -/
def sameBackend (before after : RedisBackendRegistry) (name : String) : Bool :=
  match before.find? name, after.find? name with
  | some a, some b => a == b
  | _, _ => false

def sameBackendBindings (pv : PVConfig) (before after : RedisBackendRegistry) : Bool :=
  sameBackend before after pv.read.backend &&
  pv.write.all (fun route => sameBackend before after route.backend) &&
  pv.confirm.all (fun route => sameBackend before after route.backend)

/-! ## The alarm publisher -/

/-- `std::out_of_range` of `at` -/
def outOfRange : String := "map::at"

/-- `map.at(key)` -/
def atKey {α : Type} (map : FinMap String α) (key : String) : Except String α :=
  match map.find? key with
  | some value => .ok value
  | none => .error outOfRange

theorem atKey_ok {α : Type} {map : FinMap String α} {key : String} {value : α} :
    atKey map key = .ok value ↔ map.find? key = some value := by
  unfold atKey
  cases map.find? key with
  | none => simp
  | some v => simp

def alarmTarget (alarms : AlarmStreamConfig) (backend : RedisConfig) : AlarmTarget where
  host := backend.host
  port := backend.port
  stream := alarms.stream
  user := backend.user
  password := backend.password

def buildAlarmPublisher (w : World) (config : AppConfig) : Effect State ObjectId := do
  let backend ← Foundations.ofExcept (atKey config.redisBackends config.alarms.backend)
  raise w.publisher
  let s ← get
  set { s with
    publishers := Function.update s.publishers s.nextObject {
      target := alarmTarget config.alarms backend
      queueEntries := config.limits.alarmQueueEntries
      stateBytes := config.limits.alarmStateBytes }
    nextObject := s.nextObject + 1 }
  return s.nextObject

/-- The publisher that is reused; the last operand of the conjunction may throw. -/
def reusedAlarm (s : State) (config : AppConfig) : Except String (Option ObjectId) :=
  if s.hasConfig && sameAlarmStreamConfig s.currentConfig.alarms config.alarms then
    match s.currentConfig.redisBackends.find? config.alarms.backend with
    | none => .ok none
    | some prior => do
      let backend ← atKey config.redisBackends config.alarms.backend
      return if sameRedisConfig prior backend then s.alarmPublisher else none
  else .ok none

/-- The publisher of the next generation, and whether it is the present one. -/
def stageAlarm (w : World) (config : AppConfig) : Effect State (ObjectId × Bool) := do
  let s ← get
  match ← Foundations.ofExcept (reusedAlarm s config) with
  | some publisher => return (publisher, true)
  | none => do
    let publisher ← buildAlarmPublisher w config
    return (publisher, false)

/-! ## Runtimes -/

def resolveBackend (backends : RedisBackendRegistry) (name fullName routeName : String) :
    Except String ObjectId :=
  match backends.find? name with
  | some adapter => .ok adapter
  | none => .error ("unknown redis backend '" ++ name ++ "' for " ++ fullName ++ " " ++ routeName)

/-- The adapter of a route that may be absent. -/
def resolveRoute (backends : RedisBackendRegistry) (fullName routeName : String) :
    Option String → Except String (Option ObjectId)
  | none => .ok none
  | some name => do
    let adapter ← resolveBackend backends name fullName routeName
    return some adapter

/-- There is no runtime for arrays of booleans and strings. -/
def supportedType (pv : PVConfig) : Bool :=
  pv.kind == .ntNDArray || pv.shape == .scalar || (pv.type != .boolean && pv.type != .string)

/-- The object that `makeRuntime` constructs.  An `NTNDArray` only has a read route. -/
def runtimeFor (server : ServerConfig) (pv : PVConfig) (backends : RedisBackendRegistry)
    (alarm : ObjectId) (generation : Nat) : Except String Runtime := do
  let fullName := fullPVName server pv
  if supportedType pv then
    let read ← resolveBackend backends pv.read.backend fullName "read route"
    if pv.kind = .ntNDArray then
      return { fullName, config := pv, generation, alarm, read }
    else
      let write ← resolveRoute backends fullName "write route" (pv.write.map RouteConfig.backend)
      let confirm ← resolveRoute backends fullName "confirm route"
        (pv.confirm.map ConfirmConfig.backend)
      return { fullName, config := pv, generation, alarm, read, write, confirm }
  else throw "unsupported runtime type"

def makeRuntime (w : World) (server : ServerConfig) (pv : PVConfig)
    (backends : RedisBackendRegistry) (alarm : ObjectId) (generation : Nat) :
    Effect State ObjectId := do
  let runtime ← Foundations.ofExcept (runtimeFor server pv backends alarm generation)
  raise (w.runtime pv)
  let s ← get
  set { s with
    runtimeObjects := Function.update s.runtimeObjects s.nextObject runtime
    nextObject := s.nextObject + 1 }
  return s.nextObject

def changedError (runtime : Runtime) : String :=
  if runtime.config.kind = .ntNDArray then "NTNDArray runtime changed during preparation"
  else "runtime changed during preparation"

def prepareReconfigure (w : World) (runtime : ObjectId) (pv : PVConfig) (generation : Nat)
    (publisher : ObjectId) : Effect State RuntimeUpdate := do
  let s ← get
  let object := s.runtimeObjects runtime
  if object.alive && sameReaderTopology object.config pv then
    raise (w.reconfigure pv)
    return { runtime, config := pv, generation, publisher }
  else throw (changedError object)

/-- `nextRuntimes`, `updates` and `added` -/
structure RuntimeStage where
  runtimes : RuntimeMap := ∅
  updates : List RuntimeUpdate := []
  added : List ObjectId := []

/-- The runtime that is kept for a PV. -/
def State.keptRuntime (s : State) (backends : RedisBackendRegistry) (name : String)
    (pv : PVConfig) : Option ObjectId :=
  match s.runtimes.find? name with
  | none => none
  | some existing =>
    if sameReaderTopology (s.runtimeObjects existing).config pv &&
        sameBackendBindings pv s.redisBackends backends then some existing
    else none

/-- One turn of the loop over the PVs. -/
def stageRuntime (w : World) (server : ServerConfig) (backends : RedisBackendRegistry)
    (alarm : ObjectId) (generation : Nat) (acc : RuntimeStage) (pv : PVConfig) :
    Effect State RuntimeStage := do
  let s ← get
  let name := fullPVName server pv
  match s.keptRuntime backends name pv with
  | some existing => do
    let update ← prepareReconfigure w existing pv generation alarm
    return { acc with
      runtimes := acc.runtimes.emplace name existing, updates := acc.updates ++ [update] }
  | none => do
    let runtime ← makeRuntime w server pv backends alarm generation
    return { acc with
      runtimes := acc.runtimes.emplace name runtime, added := acc.added ++ [runtime] }

/-- The loop over the runtimes that are there. -/
def retiredRuntimes (old next : RuntimeMap) : List ObjectId :=
  old.entries.filterMap fun entry =>
    if next.find? entry.1 = some entry.2 then none else some entry.2

/-! ## RPC services -/

/-- `std::isupper` and `std::toupper` of the C locale -/
def isUpper (c : Char) : Bool := 'A' ≤ c && c ≤ 'Z'

def toUpper (c : Char) : Char := if 'a' ≤ c ∧ c ≤ 'z' then Char.ofNat (c.toNat - 32) else c

/-- The loop of `methodToPvLeaf`; `before` is the preceding character. -/
def leafChars : Option Char → List Char → List Char
  | _, [] => []
  | before, c :: rest =>
    (if isUpper c && before.any (fun b => !isUpper b) then ['_'] else []) ++
      toUpper c :: leafChars (some c) rest

def methodToPvLeaf (method : String) : String := String.ofList (leafChars none method.toList)

def rpcName (server : ServerConfig) (svc : RpcServiceConfig) (method : BridgeMethod) : String :=
  let leaf := methodToPvLeaf method.method ++ svc.suffix
  if server.nameSpace = "" then leaf else server.nameSpace ++ ":" ++ leaf

/-- One turn of the loop over the methods; the `RpcPV`s are numbered from `base`. -/
def addMethod (server : ServerConfig) (svc : RpcServiceConfig) (base : ObjectId)
    (result : RpcServiceState) (item : BridgeMethod × Nat) : Except String RpcServiceState :=
  let name := rpcName server svc item.1
  if result.pvs.contains name then
    .error ("duplicate served PV name '" ++ name ++ "' within reflected service " ++ svc.service)
  else .ok { result with
    pvs := result.pvs.insert name (base + item.2)
    owners := result.owners.emplace name (item.1.service ++ "/" ++ item.1.method) }

/-- The two kinds of exceptions that `reflectRpcService` lets out. -/
inductive ReflectError where
  | unavailable (message : String)
  | failed (message : String)

def reflectMethods (server : ServerConfig) (svc : RpcServiceConfig) (base : ObjectId)
    (found : List BridgeMethod) : Except String RpcServiceState :=
  if found.isEmpty then .error ("reflected service has no methods: " ++ svc.service)
  else found.zipIdx.foldlM (addMethod server svc base) { config := svc }

/-- Identifiers for `n` objects that no table describes. -/
def allocate (n : Nat) : Effect State ObjectId := do
  let s ← get
  set { s with nextObject := s.nextObject + n }
  return s.nextObject

/-- Preparation only; the objects of the methods are allocated whether they are kept or not. -/
def reflectRpcService (server : ServerConfig) (svc : RpcServiceConfig) (reflection : Reflection) :
    Effect State (Except ReflectError RpcServiceState) :=
  match reflection with
  | .unavailable e => return .error (.unavailable e)
  | .failed e => return .error (.failed e)
  | .methods found => do
    let base ← allocate found.length
    match reflectMethods server svc base found with
    | .ok result => return .ok result
    | .error e => return .error (.failed e)

/-- The reflected service of an earlier generation that `svc` can take over. -/
def reusable (svc : RpcServiceConfig) (entry : RpcServiceState) : Bool :=
  !entry.pvs.entries.isEmpty && entry.config.endpoint == svc.endpoint &&
  entry.config.service == svc.service && entry.config.suffix == svc.suffix &&
  entry.config.defaults == svc.defaults && entry.config.methodDefaults == svc.methodDefaults &&
  entry.config.optional == svc.optional &&
  entry.config.discoveryTimeoutMs == svc.discoveryTimeoutMs &&
  entry.config.timeoutMs == svc.timeoutMs && entry.config.retryIntervalMs == svc.retryIntervalMs

/-- `text.substr(0, 1024)` -/
def cut (text : String) : String := String.ofList (text.toList.take 1024)

/-- One turn of the loop of `buildRpcPVs`. -/
def stageService (w : World) (server : ServerConfig) (previous : RpcServices)
    (staged : RpcServices) (svc : RpcServiceConfig) : Effect State RpcServices :=
  match previous.find? (reusable svc) with
  | some prior => return staged ++ [{ prior with config := svc }]
  | none => do
    match ← reflectRpcService server svc (w.reflect staged.length) with
    | .ok service => return staged ++ [service]
    | .error (.failed e) => throw e
    | .error (.unavailable e) =>
      if svc.optional then
        return staged ++ [{
          config := svc, state := .unavailable, error := cut e
          nextRetry := w.now + svc.retryIntervalMs }]
      else throw ("required rpc_service " ++ svc.service ++ " unavailable: " ++ e)

def stageServices (env : Platform) (w : World) (config : AppConfig) (previous : RpcServices) :
    Effect State RpcServices :=
  if env.grpc then config.rpcServices.foldlM (stageService w config.server previous) []
  else if config.rpcServices.isEmpty then return []
  else throw "rpc_services requires a build with REDIS_PVXS_IOC_ENABLE_GRPC=ON"

/-- What `assembleRpcPVs` accumulates. -/
structure Assembly where
  endpoints : EndpointRegistry
  rpcPVs : RpcMap := ∅
  assignments : AssignmentMap := ∅

/-- The inner turn of `assembleRpcPVs`. -/
def assembleItem (config : AppConfig) (service : RpcServiceState) (acc : Assembly)
    (item : String × ObjectId) : Except String Assembly := do
  let owner ← atKey service.owners item.1
  let endpoints ← acc.endpoints.reserve
    { name := item.1, kind := .rpc, owner := owner, path := "root.rpc_services" }
  return {
    endpoints
    rpcPVs := acc.rpcPVs.emplace item.1 item.2
    assignments := acc.assignments.emplace item.1
      (service.config.access.getD config.access.defaults.rpc) }

def assembleService (config : AppConfig) (acc : Assembly) (service : RpcServiceState) :
    Except String Assembly :=
  service.pvs.entries.foldlM (assembleItem config service) acc

def assembleRpcPVs (config : AppConfig) (services : RpcServices) :
    Except String (RpcMap × AssignmentMap) := do
  let endpoints ← configuredEndpoints config
  let acc ← services.foldlM (assembleService config) { endpoints := endpoints }
  return (acc.rpcPVs, acc.assignments)

/-! ## The discovery catalog -/

def PrimitiveType.text : PrimitiveType → String
  | .boolean => "bool"
  | .int8 => "int8"
  | .uint8 => "uint8"
  | .int16 => "int16"
  | .uint16 => "uint16"
  | .int32 => "int32"
  | .uint32 => "uint32"
  | .int64 => "int64"
  | .uint64 => "uint64"
  | .float32 => "float32"
  | .float64 => "float64"
  | .string => "string"

def Shape.text : Shape → String
  | .scalar => "scalar"
  | .array => "array"

/-- `identity[key] = value` for the variables that are set and not empty. -/
def environmentIdentity (w : World) (identity : FinMap String String) (key : String) :
    FinMap String String :=
  match w.getenv key with
  | some value => if value = "" then identity else identity.insert key value
  | none => identity

def discoveryIdentity (env : Platform) (w : World) (config : AppConfig) (generation : Nat) :
    FinMap String String :=
  let identity := FinMap.ofList [
    ("IOCNAME", config.server.instance), ("PVAS_SERVER_PORT", toString w.tcpPort),
    ("PVXS_PROTOCOL", "pva"), ("EPICS_VERSION", env.epicsVersion),
    ("REDIS_PVXS_IOC_VERSION", env.version), ("CONFIG_GENERATION", toString generation)]
  let identity :=
    match w.hostname with
    | some name => identity.insert "HOSTNAME" name
    | none => identity
  ["HOSTNAME", "ENGINEER", "LOCATION", "CONTACT", "BUILDING", "SECTOR"].foldl
    (environmentIdentity w) identity

def pvRecord (server : ServerConfig) (pv : PVConfig) : DiscoveryRecord where
  name := fullPVName server pv
  type :=
    if pv.kind = .ntNDArray then "epics:nt/NTNDArray:1.0"
    else if pv.shape = .array then "epics:nt/NTScalarArray:1.0"
    else "epics:nt/NTScalar:1.0"
  aliases := pv.aliases
  properties := FinMap.ofList [
    ("protocol", "pva"), ("DESC", pv.metadata.description), ("units", pv.metadata.units),
    ("type", if pv.kind = .ntNDArray then "ntndarray" else PrimitiveType.text pv.type),
    ("shape", Shape.text pv.shape)]

/-- A record without aliases. -/
def plainRecord (type name : String) : DiscoveryRecord where
  name := name
  type := type
  properties := FinMap.ofList [("protocol", "pva")]

def discoveryRecords (config : AppConfig) (rpcs : RpcMap) : List DiscoveryRecord :=
  config.pvs.map (pvRecord config.server) ++
  (adminPVNames config.server).map (plainRecord "pvxs:diagnostic") ++
  rpcs.keys.map (plainRecord "pvxs:RPC")

def buildDiscoveryCatalog (env : Platform) (w : World) (config : AppConfig) (rpcs : RpcMap)
    (generation : Nat) : Except String (Option DiscoveryCatalog) :=
  if config.discovery.enabled then do
    let catalog ← prepareDiscoveryCatalog config.discovery generation
      (discoveryIdentity env w config generation) (discoveryRecords config rpcs)
    return some catalog
  else .ok none

/-! ## Endpoints -/

/-- The diagnostics in the order of `AdminNamespace::bindings`, and whether one is a command. -/
def diagnostics (server : ServerConfig) : List (String × Bool) :=
  let sys := adminPVName server
  [(sys "config:lastDiff", false), (sys "config:reloadStatus", false),
    (sys "stats:operations", false), (sys "rpc:status", false), (sys "alarms:status", false),
    (sys "discovery:status", false), (sys "config:reload", true), (versionPVName server, false),
    (revisionPVName server, false), (sys "version", false), (sys "revision", false),
    (sys "config:generation", false), (sys "config:lastStatus", false),
    (sys "config:lastError", false), (sys "stats:pvCount", false),
    (sys "stats:ndarrayInvalidFrames", false), (sys "stats:ndarraySkippedFrames", false),
    (sys "stats:ndarrayDiscontinuities", false), (sys "backend:health", false),
    (sys "source:status", false), (sys "ready", false), (sys "access:reload", true),
    (sys "access:enabled", false), (sys "access:generation", false),
    (sys "access:lastStatus", false), (sys "access:lastError", false),
    (sys "access:policyFingerprint", false), (sys "access:watchStatus", false),
    (sys "access:activeClients", false), (sys "access:deniedReads", false),
    (sys "access:deniedWrites", false), (sys "access:rightsChanges", false),
    (sys "access:operations", false)]

/-- The binding of the diagnostic with the given place in the list. -/
def AdminNamespace.binding (admin : AdminNamespace) (defaults : AccessDefaultsConfig)
    (command : Bool) (place : Nat) : PVBinding where
  pv := some (admin.object + 1 + place)
  owner := some admin.object
  access := if command then defaults.adminWrite else defaults.adminRead

/-- The lambda `add` of `AdminNamespace::bindings`. -/
def AdminNamespace.add (admin : AdminNamespace) (defaults : AccessDefaultsConfig)
    (acc : EndpointRegistry × PVBindings) (item : (String × Bool) × Nat) :
    Except String (EndpointRegistry × PVBindings) := do
  let endpoints ← acc.1.reserve { name := item.1.1, kind := .diagnostic, owner := "runtime" }
  return (endpoints, acc.2.emplace item.1.1 (admin.binding defaults item.1.2 item.2))

def AdminNamespace.bindings (admin : AdminNamespace) (defaults : AccessDefaultsConfig) :
    Except String PVBindings := do
  let acc ← (diagnostics admin.server).zipIdx.foldlM (admin.add defaults) ({}, ∅)
  let reserved := adminPVNames admin.server
  if acc.2.size = reserved.length then
    match reserved.find? fun name => !acc.2.contains name with
    | some name => throw ("reserved diagnostic is not installed: " ++ name)
    | none => return acc.2
  else throw "installed diagnostics do not match the reserved namespace"

/-- The lambda `bind` of `applyGeneration`. -/
def bind (bindings : PVBindings) (name : String) (binding : PVBinding) : Except String PVBindings :=
  if bindings.contains name then .error ("duplicate endpoint binding: " ++ name)
  else .ok (bindings.insert name binding)

def runtimeBinding (access : AccessConfig) (pv : PVConfig) (runtime : ObjectId) : PVBinding where
  pv := some runtime
  owner := some runtime
  access := pv.access.getD access.defaults.pv

def rpcBinding (assignment : AccessAssignment) (rpc : ObjectId) : PVBinding where
  pv := some rpc
  owner := some rpc
  access := assignment

def bindPV (config : AppConfig) (runtimes : RuntimeMap) (bindings : PVBindings) (pv : PVConfig) :
    Except String PVBindings := do
  let runtime ← atKey runtimes (fullPVName config.server pv)
  (fullPVNames config.server pv).foldlM
    (fun acc name => bind acc name (runtimeBinding config.access pv runtime)) bindings

def bindRpc (assignments : AssignmentMap) (bindings : PVBindings) (rpc : String × ObjectId) :
    Except String PVBindings := do
  let assignment ← atKey assignments rpc.1
  bind bindings rpc.1 (rpcBinding assignment rpc.2)

/-- The bindings of a generation. -/
def generationBindings (admin : AdminNamespace) (config : AppConfig) (runtimes : RuntimeMap)
    (rpcs : RpcMap) (assignments : AssignmentMap) : Except String PVBindings := do
  let bindings ← admin.bindings config.access.defaults
  let bindings ← config.pvs.foldlM (bindPV config runtimes) bindings
  rpcs.entries.foldlM (bindRpc assignments) bindings

/-! ## Access groups -/

def requiredAccessAsgs (config : AppConfig) : NameSet :=
  if config.access.enabled then
    nameSet ([config.access.defaults.adminRead.asg, config.access.defaults.adminWrite.asg] ++
      config.pvs.map (fun pv => (pv.access.getD config.access.defaults.pv).asg) ++
      config.rpcServices.map fun service => (service.access.getD config.access.defaults.rpc).asg)
  else ∅

end RedisPvxsIoc.Application
