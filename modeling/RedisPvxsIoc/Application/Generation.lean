import RedisPvxsIoc.Application.Model

/-!
# Generations

Model of `applyConfig`, `applyGeneration`, `start`, `pump` and `pumpRpcRecovery` in
`src/app.cpp`.  Staging a generation builds everything it needs beside the running one; the
publication of its endpoints runs the commit callback, and what follows a publication is only
assignments.  The machine performs whole operations one after the other, as the thread that
calls `start` and `pump` does.
-/

namespace RedisPvxsIoc.Application

open Foundations Config PVRegistry Access Discovery

/-! ## The status of a reload -/

def setPhase (phase : ReloadPhase) (s : State) : State :=
  { s with reload := { s.reload with phase := phase } }

def reloadPhase (phase : ReloadPhase) : Effect State Unit := modify (setPhase phase)

def State.beginReload (s : State) (kind : ReloadKind) : State :=
  { s with reload := {
      attempt := s.reload.attempt + 1, kind, state := .running, phase := .parse
      activeGeneration := s.generation, candidateGeneration := s.generation + 1 } }

def beginReload (kind : ReloadKind) : Effect State Unit := modify fun s => s.beginReload kind

def count (names : List String) : UInt64 := UInt64.ofNat names.length

def State.describeReload (s : State) (config : AppConfig) : State :=
  let diff := diffConfigs s.currentConfig config
  { s with reload := { s.reload with
      diffKnown := true
      schemaVersion := config.schemaVersion
      added := count diff.added
      removed := count diff.removed
      recreated := count diff.replaced
      retained := UInt64.ofNat config.pvs.length - count diff.added - count diff.replaced
      metadataChanged := count diff.metadataChanged
      aliasesChanged := count diff.aliasesChanged
      accessChanged := count diff.accessChanged
      phase := .validate } }

def describeReload (config : AppConfig) : Effect State Unit := modify fun s => s.describeReload config

def finishedState (accepted diffKnown : Bool) (error : String) : ReloadState :=
  if accepted then if error = "" then .committed else .committedWithError
  else if diffKnown then .rejected else .failed

def BackendPreparation.finish (outcome : BackendPreparation) (accepted : Bool)
    (active : RedisBackendRegistry) : BackendPreparation :=
  { outcome with cutover :=
      if accepted then if outcome.action = .removed then .removed else .active
      else if active.contains outcome.name then .previousPreserved else .notActivated }

def State.finishReload (s : State) (accepted : Bool) (error : String) : State :=
  let error := if error = "" then s.reload.error else error
  { s with reload := { s.reload with
      error := error
      committed := accepted
      activeGeneration := s.generation
      state := finishedState accepted s.reload.diffKnown error
      phase := if accepted ∧ error = "" then .complete else s.reload.phase
      backends := s.reload.backends.map (·.finish accepted s.redisBackends) } }

def finishReload (accepted : Bool) (error : String) : Effect State Unit :=
  modify fun s => s.finishReload accepted error

/-! ## Staging -/

/-- The variables of `applyGeneration` when the endpoints have been prepared. -/
structure Staged where
  config : AppConfig
  generation : Nat
  backends : RedisBackendRegistry
  alarm : ObjectId
  reuseAlarm : Bool
  runtimes : RuntimeMap
  updates : List RuntimeUpdate
  added : List ObjectId
  retired : List ObjectId
  services : RpcServices
  rpcs : RpcMap
  assignments : AssignmentMap
  catalog : Option DiscoveryCatalog
  policy : Option PreparedConfiguration
  /-- `secured` or `plain`, whichever there is. -/
  endpoints : Nat

def stagePolicy (env : Platform) (w : World) (config : AppConfig) :
    Effect State (Option PreparedConfiguration) := do
  let s ← get
  if s.secured && s.hasConfig then
    let policy ← zoom State.accessPart
      (prepareConfiguration env.lib w.access config.access (requiredAccessAsgs config))
    return some policy
  else return none

def prepareEndpoints (w : World) (bindings : PVBindings) : Effect State Nat := do
  let s ← get
  if s.secured then zoom State.accessPart (prepareBindings w.access bindings)
  else zoom State.registryPart (prepareCall bindings ∅)

def stageRuntimes (w : World) (config : AppConfig) (backends : RedisBackendRegistry)
    (alarm : ObjectId) (generation : Nat) : Effect State RuntimeStage :=
  config.pvs.foldlM (stageRuntime w config.server backends alarm generation) {}

/-- `buildRpcPVs`: the services, and what they contribute. -/
def buildRpcPVs (env : Platform) (w : World) (config : AppConfig) :
    Effect State (RpcServices × RpcMap × AssignmentMap) := do
  let s ← get
  let services ← stageServices env w config s.rpcServices
  let assembled ← Foundations.ofExcept (assembleRpcPVs config services)
  return (services, assembled)

/-- Everything before the publication. -/
def stageGeneration (env : Platform) (w : World) (config : AppConfig) (generation : Nat) :
    Effect State Staged := do
  reloadPhase .backends
  let s ← get
  let backends ← buildRedisBackends w config.redisBackends s.currentConfig.redisBackends
    s.redisBackends
  reloadPhase .runtimes
  let alarm ← stageAlarm w config
  let stage ← stageRuntimes w config backends alarm.1 generation
  reloadPhase .rpc
  let rpc ← buildRpcPVs env w config
  let catalog ← Foundations.ofExcept (buildDiscoveryCatalog env w config rpc.2.1 generation)
  let bindings ← Foundations.ofExcept
    (generationBindings s.admin config stage.runtimes rpc.2.1 rpc.2.2)
  reloadPhase .policy
  let policy ← stagePolicy env w config
  let endpoints ← prepareEndpoints w bindings
  return {
    config, generation, backends, alarm := alarm.1, reuseAlarm := alarm.2
    runtimes := stage.runtimes, updates := stage.updates, added := stage.added
    retired := retiredRuntimes s.runtimes stage.runtimes
    services := rpc.1, rpcs := rpc.2.1, assignments := rpc.2.2, catalog, policy, endpoints }

/-! ## Committing -/

def State.setRuntime (s : State) (runtime : ObjectId) (object : Runtime) : State :=
  { s with runtimeObjects := Function.update s.runtimeObjects runtime object }

def State.setPublisher (s : State) (publisher : ObjectId) (object : Publisher) : State :=
  { s with publishers := Function.update s.publishers publisher object }

/-- `update->commit()` -/
def State.commitUpdate (s : State) (update : RuntimeUpdate) : State :=
  s.setRuntime update.runtime { s.runtimeObjects update.runtime with
    config := update.config, generation := update.generation, alarm := update.publisher }

/-- `runtime->activate()` -/
def State.activateRuntime (s : State) (runtime : ObjectId) : State :=
  s.setRuntime runtime { s.runtimeObjects runtime with committed := true }

def State.commitRuntimes (s : State) (updates : List RuntimeUpdate) (added : List ObjectId) : State :=
  added.foldl State.activateRuntime (updates.foldl State.commitUpdate s)

/-- The policy of the generation, when it has one, is the last thing that can be refused. -/
def activatePolicy (w : World) (policy : Option PreparedConfiguration) : Effect State Outcome :=
  match policy with
  | none => noCallback
  | some prepared => zoom State.accessPart (activateConfiguration w.access (some prepared))

/-- The lambda `commit` of `applyGeneration`. -/
def commit (w : World) (st : Staged) : Effect State Outcome :=
  andThen (activatePolicy w st.policy) (modify fun s => s.commitRuntimes st.updates st.added)

/-- `publishBindings` or `publish` -/
def publishEndpoints (endpoints : Nat) (beforeCommit : Effect State Outcome) :
    Effect State Outcome := do
  let s ← get
  if s.secured then publishBindings State.accessPart endpoints beforeCommit
  else publishCall State.registryPart endpoints beforeCommit

/-- The swaps after the publication. -/
def State.install (s : State) (st : Staged) : State :=
  { s with
    runtimes := st.runtimes
    redisBackends := st.backends
    rpcPVs := st.rpcs
    rpcAssignments := st.assignments
    rpcServices := st.services
    alarmPublisher := some st.alarm
    currentConfig := st.config
    catalog := st.catalog
    generation := st.generation
    hasConfig := true }

/-- What `applyGeneration` does up to the point where the generation is committed. -/
def buildGeneration (env : Platform) (w : World) (config : AppConfig) (generation : Nat) :
    Effect State (Except String Staged) :=
  tryCatch
    (do
      let st ← stageGeneration env w config generation
      match ← publishEndpoints st.endpoints (commit w st) with
      | .error e => return .error e
      | .ok () =>
        modify fun s => s.install st
        return .ok st)
    fun e => return .error e

/-! ## After the commit -/

def deactivateRuntime (w : World) (runtime : ObjectId) : Effect State Unit := do
  raise (w.deactivate runtime)
  modify fun s => s.setRuntime runtime { s.runtimeObjects runtime with alive := false }

def stopPublisher (publisher : Option ObjectId) : Effect State Unit :=
  match publisher with
  | none => pure ()
  | some p => modify fun s => s.setPublisher p { s.publishers p with stopped := true }

def activatePublisher (publisher : ObjectId) : Effect State Unit :=
  modify fun s => s.setPublisher publisher { s.publishers publisher with active := true }

/-- The refresh of a committed generation; `old` is the publisher that it has replaced. -/
def refreshGeneration (w : World) (st : Staged) (old : Option ObjectId) : Effect State Unit := do
  reloadPhase .refresh
  st.retired.forM (deactivateRuntime w)
  stopPublisher (if st.reuseAlarm then none else old)
  raise w.refresh
  activatePublisher st.alarm

/-- What `applyGeneration` returns, with its `error`. -/
structure Report where
  accepted : Bool
  error : String
  deriving DecidableEq, Repr

/-- A refresh that fails is reported and changes nothing about the acceptance. -/
def reportGeneration (w : World) (st : Staged) (old : Option ObjectId) : Effect State Report :=
  tryCatch
    (do
      refreshGeneration w st old
      return ⟨true, ""⟩)
    fun e =>
      match w.report with
      | some e' => return ⟨true, e'⟩
      | none => do
        modify fun s => { s with reload := { s.reload with error := e } }
        return ⟨true, ""⟩

def applyGeneration (env : Platform) (w : World) (config : AppConfig) (generation : Nat) :
    Effect State Report := do
  let s ← get
  match ← buildGeneration env w config generation with
  | .error e => return ⟨false, e⟩
  | .ok st => reportGeneration w st s.alarmPublisher

/-- The first setting that differs and cannot change while the server runs. -/
def immutableRejection (s : State) (config : AppConfig) : Option String :=
  if !sameOperationLimits s.currentConfig.limits config.limits then
    some "operation limits are immutable after startup; restart is required"
  else if s.hasConfig && !sameServerConfig s.currentConfig.server config.server then
    some "server namespace/bind settings are immutable after startup"
  else if s.hasConfig && s.currentConfig.access.enabled != config.access.enabled then
    some "access.enabled is immutable after startup; restart is required"
  else if !sameDiscoveryConfig s.currentConfig.discovery config.discovery then
    some "discovery listener settings are immutable after startup; restart is required"
  else none

def applyConfig (env : Platform) (w : World) (config : AppConfig) (initialLoad : Bool) :
    Effect State Report := do
  describeReload config
  let s ← get
  match if initialLoad then none else immutableRejection s config with
  | some e => return ⟨false, e⟩
  | none => applyGeneration env w config (s.generation + 1)

/-! ## Startup and reload -/

def loadConfigFile (w : World) : Effect State AppConfig := do
  let root ← Foundations.ofExcept w.document
  Foundations.ofExcept (parseConfig root)

/-- A new access controller, when the configuration asks for one. -/
def startAccess (env : Platform) (w : World) (config : AppConfig) : Effect State Outcome :=
  if config.access.enabled then do
    reloadPhase .policy
    modify fun s => { s with access := { config := config.access }, secured := true }
    zoom State.accessPart (Access.start env.lib w.access (requiredAccessAsgs config))
  else return .ok ()

/-- `std::make_shared<AdminNamespace>(..)` -/
def newAdmin (config : AppConfig) : Effect State Unit :=
  modify fun s => { s with
    admin := {
      object := s.nextObject
      server := config.server
      accessConfigured := config.access.enabled }
    nextObject := s.nextObject + (1 + (diagnostics config.server).length) }

/-- The rest of `start`, once the access controller runs. -/
def startGeneration (env : Platform) (w : World) (config : AppConfig) : Effect State Bool := do
  newAdmin config
  let report ← applyConfig env w config true
  if report.accepted then
    raise w.serverStart
    modify fun s => { s with started := true }
    finishReload true ""
    return true
  else
    finishReload false report.error
    return false

def start (env : Platform) (w : World) : Effect State Bool := do
  beginReload .startup
  tryCatch
    (do
      let config ← loadConfigFile w
      describeReload config
      raise w.serverBuild
      match ← startAccess env w config with
      | .ok () => startGeneration env w config
      | .error e =>
        finishReload false e
        return false)
    fun e => do
      let s ← get
      finishReload s.hasConfig e
      return false

/-- The reload that `pump` performs when one was requested. -/
def reloadConfig (env : Platform) (w : World) : Effect State Unit := do
  beginReload .reload
  tryCatch
    (do
      let config ← loadConfigFile w
      let report ← applyConfig env w config false
      finishReload report.accepted report.error)
    fun e => do
      let s ← get
      finishReload (s.generation == s.reload.candidateGeneration) e

/-! ## Recovery of RPC services -/

/-- What the background task returns. -/
def recoveredService (discovery : RpcDiscovery) (w : World) : Effect State RpcServiceState := do
  match ← reflectRpcService discovery.server discovery.config (w.reflect discovery.index) with
  | .ok service => return service
  | .error (.unavailable e) =>
    return { config := discovery.config, state := .unavailable, error := cut e }
  | .error (.failed e) =>
    return { config := discovery.config, state := .invalid, error := cut e }

/-- What the loop over the PVs prepares; `emplace` does not look whether the name is taken. -/
structure RecoveryStage where
  updates : List RuntimeUpdate := []
  bindings : PVBindings

/-- One turn of that loop. -/
def recoverPV (w : World) (config : AppConfig) (runtimes : RuntimeMap) (alarm : ObjectId)
    (generation : Nat) (acc : RecoveryStage) (pv : PVConfig) : Effect State RecoveryStage := do
  let runtime ← Foundations.ofExcept (atKey runtimes (fullPVName config.server pv))
  let update ← prepareReconfigure w runtime pv generation alarm
  return {
    updates := acc.updates ++ [update]
    bindings := (fullPVNames config.server pv).foldl
      (fun bindings name => bindings.emplace name (runtimeBinding config.access pv runtime))
      acc.bindings }

def recoverRpc (assignments : AssignmentMap) (bindings : PVBindings) (rpc : String × ObjectId) :
    Except String PVBindings := do
  let assignment ← atKey assignments rpc.1
  return bindings.emplace rpc.1 (rpcBinding assignment rpc.2)

/-- The variables of the recovery when the endpoints have been prepared. -/
structure Recovered where
  services : RpcServices
  rpcs : RpcMap
  assignments : AssignmentMap
  catalog : Option DiscoveryCatalog
  updates : List RuntimeUpdate
  endpoints : Nat

def stageRecovery (env : Platform) (w : World) (index : Nat) (recovered : RpcServiceState) :
    Effect State Recovered := do
  let s ← get
  let config := s.currentConfig
  let services := s.rpcServices.set index recovered
  let assembled ← Foundations.ofExcept (assembleRpcPVs config services)
  let catalog ← Foundations.ofExcept
    (buildDiscoveryCatalog env w config assembled.1 (s.generation + 1))
  let bindings ← Foundations.ofExcept (s.admin.bindings config.access.defaults)
  let stage ← config.pvs.foldlM
    (recoverPV w config s.runtimes (s.alarmPublisher.getD 0) (s.generation + 1))
    { bindings := bindings }
  let bindings ← Foundations.ofExcept
    (assembled.1.entries.foldlM (recoverRpc assembled.2) stage.bindings)
  let endpoints ← prepareEndpoints w bindings
  reloadPhase .publish
  return {
    services, rpcs := assembled.1, assignments := assembled.2, catalog
    updates := stage.updates, endpoints }

/-- The swaps after the publication. -/
def State.installRecovery (s : State) (st : Recovered) : State :=
  { s with
    rpcServices := st.services
    rpcPVs := st.rpcs
    rpcAssignments := st.assignments
    catalog := st.catalog
    generation := s.generation + 1 }

/-- The recovery up to the point where it is committed. -/
def buildRecovery (env : Platform) (w : World) (index : Nat) (recovered : RpcServiceState) :
    Effect State Outcome :=
  tryCatch
    (do
      let st ← stageRecovery env w index recovered
      andThen (publishEndpoints st.endpoints (andThen noCallback
          (modify fun s => s.commitRuntimes st.updates [])))
        (modify fun s => s.installRecovery st))
    fun e => return .error e

/-- A service that cannot be published waits for a configuration reload. -/
def RpcServiceState.invalidated (service : RpcServiceState) (e : String) : RpcServiceState :=
  { service with state := .invalid, error := cut e, attempts := service.attempts + 1 }

/-- A finished reflection whose service is still there. -/
def finishDiscovery (env : Platform) (w : World) (index : Nat) (recovered : RpcServiceState) :
    Effect State Unit :=
  if recovered.state = .ready then do
    beginReload .rpcRecovery
    modify fun s => s.describeReload s.currentConfig
    match ← buildRecovery env w index recovered with
    | .ok () => do
      reloadPhase .refresh
      finishReload true (w.refresh.getD "")
    | .error e => do
      modify fun s => { s with rpcServices := s.rpcServices.modify index (·.invalidated e) }
      finishReload false e
  else
    let retried := { recovered with nextRetry := w.now + recovered.config.retryIntervalMs }
    modify fun s => { s with rpcServices := s.rpcServices.set index retried }

/-- The first half of `pumpRpcRecovery`; `false` when the reflection still runs. -/
def completeDiscovery (env : Platform) (w : World) : Effect State Bool := do
  let s ← get
  match s.rpcDiscovery with
  | none => return true
  | some discovery =>
    if w.reflected then
      let recovered ← recoveredService discovery w
      modify fun s => { s with rpcDiscovery := none }
      if discovery.generation = s.generation then
        match s.rpcServices[discovery.index]? with
        | some service => do
          finishDiscovery env w discovery.index { recovered with attempts := service.attempts + 1 }
          return true
        | none => return true
      else return true
    else return false

/-- The service that is reflected next, in round-robin order. -/
def State.nextDiscovery (s : State) (now : Int) : Option Nat :=
  ((List.range s.rpcServices.length).map fun offset =>
    (s.nextRpcDiscoveryIndex + offset) % s.rpcServices.length).find? fun index =>
      s.rpcServices[index]?.any fun service =>
        service.state == .unavailable && decide (service.nextRetry ≤ now)

/-- The second half of `pumpRpcRecovery`. -/
def State.launchDiscovery (s : State) (now : Int) : State :=
  match s.nextDiscovery now with
  | none => s
  | some index =>
    match s.rpcServices[index]? with
    | none => s
    | some service =>
      { s with
        rpcDiscovery := some {
          generation := s.generation, index := index
          server := s.currentConfig.server, config := service.config }
        nextRpcDiscoveryIndex := (index + 1) % s.rpcServices.length
        rpcServices := s.rpcServices.set index { service with state := .discovering } }

def pumpRpcRecovery (env : Platform) (w : World) : Effect State Unit :=
  if env.grpc then do
    if ← completeDiscovery env w then modify fun s => s.launchDiscovery w.now
    else return ()
  else return ()

/-! ## The machine -/

/-- The operations; a pump performs the reload that was requested, lets the access controller
    pump, and recovers services, in that order. -/
inductive Label where
  | start (w : World)
  | reload (w : World)
  /-- A put on the diagnostic that reloads the access policy. -/
  | requestAccessReload
  | pumpAccess (w w' : AccessWorld) (polled : FileRead) (now : Int)
  | pumpRpcRecovery (w : World)

def State.run {α : Type} (s : State) (x : Effect State α) : State := final (x.run s)

def step (env : Platform) (s : State) : Label → Option State
  | .start w => if s.launched then none else some ({ s with launched := true }.run (start env w))
  | .reload w => if s.started then some (s.run (reloadConfig env w)) else none
  | .requestAccessReload =>
    if s.started && s.secured then
      some (s.run (zoom State.accessPart (requestReload "admin-pv")))
    else none
  | .pumpAccess w w' polled now =>
    if s.started && s.secured then
      some (s.run (zoom State.accessPart (Access.pump env.lib w w' polled now)))
    else none
  | .pumpRpcRecovery w => if s.started then some (s.run (pumpRpcRecovery env w)) else none

def machine (env : Platform) : Machine State Label where
  start s := s = {}
  step := step env

end RedisPvxsIoc.Application
