import RedisPvxsIoc.Config.Endpoints

/-!
# Acceptance of a Configuration

The part of `parseConfig` (`src/config.cpp`) that comes after the sections of the document
have been read one by one: cross-section checks, alias resolution, name reservation and the
alarm budget.  `Sections` holds what the section parsers returned; the numeric bounds of
`limits` are checked here as well.

One character of a `String` stands for one byte of the source's strings.

## Main results

- `ServesPVs`: what acceptance says about the PVs of a configuration
- `parseConfig_servesPVs`: every accepted configuration has it
-/

namespace RedisPvxsIoc.Config

open Foundations

def fail {α : Type} (path message : String) : Except String α := .error (path ++ ": " ++ message)

/-- Fail unless the condition holds. -/
def check (condition : Bool) (path message : String) : Except String Unit :=
  if condition then .ok () else fail path message

variable {path : String}

theorem check_ok_iff {condition : Bool} {message : String} {u : Unit} :
    check condition path message = .ok u ↔ condition = true := by
  cases condition with
  | true => simp [check]
  | false => simp [check, fail]

/-! ## Limits -/

/-- The keys of `limits` that are present. -/
structure LimitsSection where
  writeWorkers : Option Nat := none
  queuedWritesPerPV : Option Nat := none
  queuedWriteBytes : Option Nat := none
  rpcWorkers : Option Nat := none
  queuedRpcPerMethod : Option Nat := none
  queuedRpcBytes : Option Nat := none
  maxPayloadBytes : Option Nat := none
  operationTimeoutMs : Option Nat := none
  alarmQueueEntries : Option Nat := none
  alarmStateBytes : Option Nat := none

/-- The lambda `bounded`. -/
def boundedLimit (key : String) (value : Option Nat) (default low high : Nat) :
    Except String Nat :=
  let value := value.getD default
  if value < low ∨ high < value then fail ("root.limits." ++ key) "outside supported range"
  else .ok value

def gibibyte : Nat := 1024 * 1024 * 1024

def parseOperationLimits : Option LimitsSection → Except String OperationLimitsConfig
  | none => .ok {}
  | some node => do
    let initial : OperationLimitsConfig := {}
    let writeWorkers ← boundedLimit "write_workers" node.writeWorkers initial.writeWorkers 1 64
    let queuedWritesPerPV ← boundedLimit "queued_writes_per_pv" node.queuedWritesPerPV
      initial.queuedWritesPerPV 1 4096
    let queuedWriteBytes ← boundedLimit "queued_write_bytes" node.queuedWriteBytes
      initial.queuedWriteBytes 1024 gibibyte
    let rpcWorkers ← boundedLimit "rpc_workers" node.rpcWorkers initial.rpcWorkers 1 64
    let queuedRpcPerMethod ← boundedLimit "queued_rpc_per_method" node.queuedRpcPerMethod
      initial.queuedRpcPerMethod 1 4096
    let queuedRpcBytes ← boundedLimit "queued_rpc_bytes" node.queuedRpcBytes
      initial.queuedRpcBytes 1024 gibibyte
    let maxPayloadBytes ← boundedLimit "max_payload_bytes" node.maxPayloadBytes
      initial.maxPayloadBytes 1 gibibyte
    let alarmQueueEntries ← boundedLimit "alarm_queue_entries" node.alarmQueueEntries
      initial.alarmQueueEntries 1 1000000
    let alarmStateBytes ← boundedLimit "alarm_state_bytes" node.alarmStateBytes
      initial.alarmStateBytes 1024 gibibyte
    check (alarmQueueEntries ≤ alarmStateBytes / kAlarmQueueEntryBytes)
      "root.limits.alarm_state_bytes" "must cover the reserved alarm queue"
    let operationTimeoutMs ← node.operationTimeoutMs.mapM fun value =>
      boundedLimit "operation_timeout_ms" (some value) 0 1 300000
    return {
      writeWorkers, queuedWritesPerPV, queuedWriteBytes, rpcWorkers, queuedRpcPerMethod,
      queuedRpcBytes, maxPayloadBytes, operationTimeoutMs, alarmQueueEntries, alarmStateBytes }

/-! ## Backend aliases -/

def resolveBackendAlias (name path : String) (backends : RedisBackendConfigs)
    (legacySingleBackend : Bool) : Except String String :=
  if name = "" then
    match backends.entries with
    | [(only, _)] => .ok only
    | _ => fail path "must be set when multiple redis_backends are configured"
  else
    let name :=
      if legacySingleBackend ∧ name = "redis" ∧ backends.contains kDefaultRedisBackendAlias then
        kDefaultRedisBackendAlias
      else name
    if backends.contains name then .ok name
    else fail path ("unknown redis backend '" ++ name ++ "'")

/-- A resolved alias is one of the configured backends. -/
theorem resolveBackendAlias_contains {name resolved : String} {backends : RedisBackendConfigs}
    {legacy : Bool} (h : resolveBackendAlias name path backends legacy = .ok resolved) :
    backends.contains resolved = true := by
  unfold resolveBackendAlias at h
  split at h
  · split at h
    · rename_i only config hentries
      cases h
      rw [FinMap.contains_iff]
      refine ⟨config, backends.mem_entries.mp ?_⟩
      rw [hentries]
      exact List.mem_singleton_self _
    · cases h
  · generalize (if legacy ∧ name = "redis" ∧ backends.contains kDefaultRedisBackendAlias then
      kDefaultRedisBackendAlias else name) = renamed at h
    dsimp only at h
    split at h
    · rename_i hcontains
      cases h
      exact hcontains
    · cases h

/-! ## The PV loop -/

/-- What the loop over `pvs` reads but does not change. -/
structure PVScope where
  server : ServerConfig
  access : AccessConfig
  redisBackends : RedisBackendConfigs
  hasLegacyRedis : Bool

/-- What it has accumulated. -/
structure PVLoop where
  endpoints : EndpointRegistry := {}
  subscribedKeys : List (String × String) := []
  pvs : List PVConfig := []

/-- `resolveBackendAlias` for one route of a PV. -/
def PVScope.resolve (scope : PVScope) (path name : String) : Except String String :=
  resolveBackendAlias name (path ++ ".backend") scope.redisBackends scope.hasLegacyRedis

def resolveWrite (scope : PVScope) (path : String) :
    Option RouteConfig → Except String (Option RouteConfig)
  | none => .ok none
  | some route => do
    let backend ← scope.resolve path route.backend
    return some { route with backend := backend }

def resolveConfirm (scope : PVScope) (path : String) :
    Option ConfirmConfig → Except String (Option ConfirmConfig)
  | none => .ok none
  | some route => do
    let backend ← scope.resolve path route.backend
    return some { route with backend := backend }

/-- The routes of a PV with their aliases resolved. -/
def resolveRoutes (scope : PVScope) (path : String) (pv : PVConfig) : Except String PVConfig := do
  let backend ← scope.resolve (path ++ ".read") pv.read.backend
  let write ← resolveWrite scope (path ++ ".write") pv.write
  let confirm ← resolveConfirm scope (path ++ ".confirm") pv.confirm
  return { pv with read := { pv.read with backend := backend }, write := write, confirm := confirm }

/-- `subscribedKeys.insert(..).second` or failure. -/
def subscribe (path : String) (keys : List (String × String)) (backend key : String) :
    Except String (List (String × String)) :=
  if (backend, key) ∈ keys then
    fail path ("duplicate subscribed key '" ++ backend ++ ":" ++ key ++ "'")
  else .ok (keys ++ [(backend, key)])

/-- The confirmation route is subscribed only where it differs from the read route. -/
def subscribeConfirm (path : String) (keys : List (String × String)) (pv : PVConfig) :
    Except String (List (String × String)) :=
  match pv.confirm with
  | none => .ok keys
  | some confirm =>
    if confirm.backend ≠ pv.read.backend ∨ confirm.key ≠ pv.read.key then
      subscribe path keys confirm.backend confirm.key
    else .ok keys

def acceptPV (scope : PVScope) (acc : PVLoop) : PVConfig × Nat → Except String PVLoop
  | (pv, index) => do
    let path := pvPath index
    check (pv.access.isNone || scope.access.enabled) (path ++ ".access")
      "requires root.access.enabled: true"
    let pv :=
      if pv.access.isNone ∧ scope.access.enabled then
        { pv with access := some scope.access.defaults.pv }
      else pv
    let pv ← resolveRoutes scope path pv
    let endpoints ← acc.endpoints.addPV scope.server pv path
    let keys ← subscribe (path ++ ".read.key") acc.subscribedKeys pv.read.backend pv.read.key
    let keys ← subscribeConfirm (path ++ ".confirm.key") keys pv
    return { endpoints := endpoints, subscribedKeys := keys, pvs := acc.pvs ++ [pv] }

/-- The loop, with the reservation of the diagnostics in front of it. -/
def pvLoop (scope : PVScope) (pvs : List PVConfig) : Except String PVLoop := do
  let endpoints ← EndpointRegistry.addDiagnostics {} scope.server
  pvs.zipIdx.foldlM (acceptPV scope) { endpoints := endpoints }

/-! ## The whole document -/

structure AlarmsSection where
  backend : Option String := none
  stream : Option String := none

/-- The document, section by section. -/
structure Sections where
  schemaVersion : Option Nat := none
  discovery : DiscoveryConfig := {}
  limits : Option LimitsSection := none
  access : AccessConfig := {}
  server : ServerConfig := {}
  channelFinder : ChannelFinderConfig := {}
  redis : Option RedisConfig := none
  redisBackends : Option (List (String × RedisConfig)) := none
  alarms : Option AlarmsSection := none
  pvs : List PVConfig := []
  rpcServices : List RpcServiceConfig := []

/-- `redis` or `redis_backends`, and whether it was the former. -/
def parseBackends (root : Sections) : Except String (RedisBackendConfigs × Bool) :=
  match root.redis, root.redisBackends with
  | some redis, none => .ok (FinMap.empty.insert kDefaultRedisBackendAlias redis, true)
  | none, some [] => fail "root.redis_backends" "must not be empty"
  | none, some entries => do
    let backends ← entries.foldlM (fun (backends : RedisBackendConfigs) (name, redis) =>
      if name = "" then fail "root.redis_backends" "backend alias must not be empty"
      else if backends.contains name then
        fail ("root.redis_backends." ++ name) ("duplicate redis backend alias '" ++ name ++ "'")
      else .ok (backends.insert name redis)) ∅
    return (backends, false)
  | _, _ => fail "root" "specify exactly one of 'redis' or 'redis_backends'"

def acceptService (access : AccessConfig) : RpcServiceConfig × Nat → Except String RpcServiceConfig
  | (service, index) =>
    if service.access.isSome ∧ ¬ access.enabled then
      fail ("root.rpc_services[" ++ toString index ++ "].access")
        "requires root.access.enabled: true"
    else if service.access.isNone ∧ access.enabled then
      .ok { service with access := some access.defaults.rpc }
    else .ok service

/-- One turn of the budget loop; the result is what is left. -/
def reserveAlarm (alarmBytes nameBytes : Nat) : Except String Nat :=
  if alarmBytes < 1024 ∨ (alarmBytes - 1024) / 2 < nameBytes then
    fail "root.limits.alarm_state_bytes" "must cover the reserved alarm queue and current PV states"
  else .ok (alarmBytes - (1024 + 2 * nameBytes))

def parseConfig (root : Sections) : Except String AppConfig := do
  let schemaVersion := root.schemaVersion.getD 1
  check (schemaVersion = 1) "root.schema_version" "only schema version 1 is supported"
  let limits ← parseOperationLimits root.limits
  check (root.server.instance ≠ "") "root.server.instance" "must not be empty"
  let backends ← parseBackends root
  let initial : AlarmStreamConfig := {}
  let alarmNode := root.alarms.getD {}
  let stream := alarmNode.stream.getD initial.stream
  check (stream ≠ "") "root.alarms.stream" "must not be empty"
  let backend ← resolveBackendAlias (alarmNode.backend.getD initial.backend) "root.alarms.backend"
    backends.1 backends.2
  let scope : PVScope :=
    { server := root.server, access := root.access
      redisBackends := backends.1, hasLegacyRedis := backends.2 }
  let loop ← pvLoop scope root.pvs
  let rpcServices ← root.rpcServices.zipIdx.mapM (acceptService root.access)
  check (!loop.pvs.isEmpty || !rpcServices.isEmpty)
    "root" "must define at least one of 'pvs' or 'rpc_services'"
  let _ ← loop.pvs.foldlM
    (fun alarmBytes pv => reserveAlarm alarmBytes (fullPVName root.server pv).length)
    (limits.alarmStateBytes - limits.alarmQueueEntries * kAlarmQueueEntryBytes)
  return {
    schemaVersion, legacyInput := root.schemaVersion.isNone, server := root.server,
    access := root.access, redisBackends := backends.1, alarms := { backend, stream },
    channelFinder := root.channelFinder, discovery := root.discovery, limits, pvs := loop.pvs,
    rpcServices }

/-! ## What acceptance says about the PVs -/

/-- The routes of a PV name configured backends. -/
structure RoutesResolved (backends : RedisBackendConfigs) (pv : PVConfig) : Prop where
  read : backends.contains pv.read.backend = true
  write : ∀ route, pv.write = some route → backends.contains route.backend = true
  confirm : ∀ route, pv.confirm = some route → backends.contains route.backend = true

/-- Names are legal and nobody shares one, and every route leads to a configured backend. -/
structure ServesPVs (config : AppConfig) : Prop where
  legal : ∀ name ∈ adminPVNames config.server ++
    config.pvs.flatMap (fullPVNames config.server), validName name = true
  distinct : (adminPVNames config.server ++
    config.pvs.flatMap (fullPVNames config.server)).Nodup
  routes : ∀ pv ∈ config.pvs, RoutesResolved config.redisBackends pv
  alarms : config.redisBackends.contains config.alarms.backend = true

variable {scope : PVScope}

theorem resolveWrite_ok {given write : Option RouteConfig}
    (h : resolveWrite scope path given = .ok write) :
    ∀ route, write = some route → scope.redisBackends.contains route.backend = true := by
  intro route hroute
  cases given with
  | none =>
    cases h
    cases hroute
  | some w =>
    simp only [resolveWrite, bind_eq_ok] at h
    obtain ⟨backend, hbackend, hpure⟩ := h
    cases hpure
    cases hroute
    exact resolveBackendAlias_contains hbackend

theorem resolveConfirm_ok {given confirm : Option ConfirmConfig}
    (h : resolveConfirm scope path given = .ok confirm) :
    ∀ route, confirm = some route → scope.redisBackends.contains route.backend = true := by
  intro route hroute
  cases given with
  | none =>
    cases h
    cases hroute
  | some c =>
    simp only [resolveConfirm, bind_eq_ok] at h
    obtain ⟨backend, hbackend, hpure⟩ := h
    cases hpure
    cases hroute
    exact resolveBackendAlias_contains hbackend

theorem resolveRoutes_ok {pv pv' : PVConfig} (h : resolveRoutes scope path pv = .ok pv') :
    RoutesResolved scope.redisBackends pv' := by
  simp only [resolveRoutes, bind_eq_ok] at h
  obtain ⟨backend, hread, write, hwrite, confirm, hconfirm, h⟩ := h
  cases h
  exact ⟨resolveBackendAlias_contains hread, resolveWrite_ok hwrite, resolveConfirm_ok hconfirm⟩

/-- The state of the loop after some PVs. -/
structure LoopOk (scope : PVScope) (acc : PVLoop) : Prop where
  legal : ∀ name ∈ adminPVNames scope.server ++ acc.pvs.flatMap (fullPVNames scope.server),
    validName name = true
  distinct : (adminPVNames scope.server ++ acc.pvs.flatMap (fullPVNames scope.server)).Nodup
  reserved : ∀ name, name ∈ acc.endpoints.entries.keys ↔
    name ∈ adminPVNames scope.server ++ acc.pvs.flatMap (fullPVNames scope.server)
  routes : ∀ pv ∈ acc.pvs, RoutesResolved scope.redisBackends pv

/-- Reserving more names keeps the list of reserved names legal and free of duplicates. -/
theorem reserved_append {r r' : EndpointRegistry} {requests : List Reserve} {names : List String}
    (hlegal : ∀ name ∈ names, validName name = true) (hnodup : names.Nodup)
    (hkeys : ∀ name, name ∈ r.entries.keys ↔ name ∈ names)
    (h : r.reserveAll requests = .ok r') :
    (∀ name ∈ names ++ requests.map Reserve.name, validName name = true) ∧
      (names ++ requests.map Reserve.name).Nodup ∧
      ∀ name, name ∈ r'.entries.keys ↔ name ∈ names ++ requests.map Reserve.name := by
  obtain ⟨hfree, hdistinct⟩ := EndpointRegistry.reserveAll_ok_iff.mp ⟨r', h⟩
  refine ⟨?_, ?_, ?_⟩
  · intro name hname
    rcases List.mem_append.mp hname with hold | hnew
    · exact hlegal name hold
    · obtain ⟨request, hmem, rfl⟩ := List.mem_map.mp hnew
      exact (hfree request hmem).1
  · refine List.nodup_append.mpr ⟨hnodup, hdistinct, ?_⟩
    intro name hold other hnew heq
    obtain ⟨request, hmem, rfl⟩ := List.mem_map.mp hnew
    obtain ⟨v, hv⟩ := r.entries.mem_keys.mp ((hkeys name).mpr hold)
    rw [heq, (hfree request hmem).2] at hv
    cases hv
  · intro name
    rw [EndpointRegistry.mem_keys_reserveAll h, hkeys, List.mem_append]

theorem loopOk_start {endpoints : EndpointRegistry}
    (h : EndpointRegistry.addDiagnostics {} scope.server = .ok endpoints) :
    LoopOk scope { endpoints := endpoints } := by
  obtain ⟨hlegal, hdistinct, hkeys⟩ := reserved_append
    (show ∀ name ∈ ([] : List String), validName name = true by simp) List.nodup_nil (by simp [FinMap.keys]) h
  have hnames : ([] : List String) ++ ((adminPVNames scope.server).map fun name =>
      ({ name := name, kind := .diagnostic, owner := "runtime" } : Reserve)).map Reserve.name =
      adminPVNames scope.server ++ [] := by
    simp [Function.comp_def]
  rw [hnames] at hlegal hdistinct hkeys
  exact ⟨hlegal, hdistinct, hkeys, by simp⟩

theorem LoopOk.acceptPV {acc acc' : PVLoop} {entry : PVConfig × Nat} (hacc : LoopOk scope acc)
    (h : acceptPV scope acc entry = .ok acc') : LoopOk scope acc' := by
  obtain ⟨given, index⟩ := entry
  simp only [Config.acceptPV, bind_eq_ok] at h
  obtain ⟨-, -, pv, hpv, endpoints, hendpoints, keys, -, keys', -, h⟩ := h
  cases h
  have hroutes := resolveRoutes_ok hpv
  obtain ⟨hlegal, hdistinct, hkeys⟩ :=
    reserved_append hacc.legal hacc.distinct hacc.reserved hendpoints
  have hnames : acc.pvs.flatMap (fullPVNames scope.server) ++
      (EndpointRegistry.pvRequests scope.server pv (pvPath index)).map Reserve.name =
      (acc.pvs ++ [pv]).flatMap (fullPVNames scope.server) := by
    rw [EndpointRegistry.names_pvRequests, List.flatMap_append]
    simp
  rw [List.append_assoc, hnames] at hlegal hdistinct hkeys
  refine ⟨hlegal, hdistinct, hkeys, ?_⟩
  intro pv' hpv'
  rcases List.mem_append.mp hpv' with hold | hnew
  · exact hacc.routes pv' hold
  · rw [List.mem_singleton.mp hnew]
    exact hroutes

theorem loopOk_pvLoop {pvs : List PVConfig} {loop : PVLoop} (h : pvLoop scope pvs = .ok loop) :
    LoopOk scope loop := by
  obtain ⟨endpoints, hendpoints, hloop⟩ := bind_eq_ok.mp h
  exact foldlM_ok (P := fun _ acc => LoopOk scope acc)
    (fun _ _ _ _ _ _ hacc hstep => hacc.acceptPV hstep) (loopOk_start hendpoints) hloop

/-- **Accepted configurations** serve legal, pairwise distinct names and resolve every route. -/
theorem parseConfig_servesPVs {root : Sections} {config : AppConfig}
    (h : parseConfig root = .ok config) : ServesPVs config := by
  simp only [parseConfig, bind_eq_ok] at h
  obtain ⟨-, -, limits, -, -, -, backends, -, -, -, backend, hbackend, loop, hloop, rpcServices,
    -, -, -, -, -, h⟩ := h
  cases h
  have hend := loopOk_pvLoop hloop
  exact ⟨hend.legal, hend.distinct, hend.routes, resolveBackendAlias_contains hbackend⟩

end RedisPvxsIoc.Config
