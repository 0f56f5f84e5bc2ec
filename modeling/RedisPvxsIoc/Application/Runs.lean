import RedisPvxsIoc.Application.Recovery

/-!
# Runs of the Application

What holds between two operations, whatever the world has answered: the generation is the one of
a configuration that was accepted by `parseConfig`, the diagnostics and the access controller
are those of the startup, the policy is the one that the library has taken, and a reflection in
the background was started for a service of the running generation or an earlier one.

## Main results

- `running_start`: a startup establishes the invariant, accepted or not
- `serving_reloadConfig`, `Running.policyTurn`, `serving_pumpRpcRecovery`: one operation keeps it
- `between_reachable`: every run keeps it
- `generation_allOrNothing`: a reload leaves the running generation or makes the candidate it
-/

namespace RedisPvxsIoc.Application

open Foundations Config PVRegistry Access Discovery

/-- **The invariant of a run**, once `start` has been called. -/
structure Running (env : Platform) (s : State) : Prop extends Sound env s where
  launched : s.launched = true
  started : s.started = true → s.hasConfig = true
  parsed : s.hasConfig = true → ∃ root, parseConfig root = .ok s.currentConfig
  admin : s.hasConfig = true → s.admin.server = s.currentConfig.server
  enabled : s.hasConfig = true → s.secured = s.currentConfig.access.enabled
  /-- A startup whose policy was refused leaves a controller without one. -/
  policy : s.secured = true → PolicyActive env.lib s.access ∨
    s.hasConfig = false ∧ s.access.library = none ∧ s.access.activePolicy = ""
  required : s.secured = true → s.hasConfig = true →
    s.access.config = s.currentConfig.access ∧
      s.access.configuredAsgs = requiredAccessAsgs s.currentConfig
  discovery : ∀ d, s.rpcDiscovery = some d → d.generation ≤ s.generation ∧
    (d.generation = s.generation → s.currentConfig.rpcServices[d.index]? = some d.config)

section Frames

variable {env : Platform} {s t : State}

/-! ## What staging and refreshing leave -/

theorem State.Stages.committed (h : s.Stages t) (hs : Sound env s) (hcommitted : Committed env s) :
    Committed env t := by
  refine ⟨?_, ?_, ?_, ?_, ?_, ?_, ?_, ?_, ?_, ?_⟩
  · rw [h.redisBackends, h.currentConfig]
    exact hcommitted.backends
  · rw [h.redisBackends, h.currentConfig]
    intro name redis hredis
    obtain ⟨o, hfind, hadapter⟩ := hcommitted.adapters name redis hredis
    rw [← h.adapters o (hs.range.backends name o hfind)] at hadapter
    exact ⟨o, hfind, hadapter⟩
  · obtain ⟨o, redis, ho, hredis, htarget⟩ := hcommitted.alarm
    rw [h.alarmPublisher, h.currentConfig]
    rw [← h.publishers o (hs.range.alarm o ho)] at htarget
    exact ⟨o, redis, ho, hredis, htarget⟩
  · rw [h.currentConfig]
    exact hcommitted.names
  · rw [h.runtimes, h.currentConfig]
    exact hcommitted.keys
  · rw [h.runtimes, h.currentConfig, h.alarmPublisher, h.generation]
    intro pv hpv
    obtain ⟨o, alarm, hfind, halarm, hserves⟩ := hcommitted.runtimes pv hpv
    rw [← h.runtimeObjects o (hs.range.runtimes _ o hfind)] at hserves
    exact ⟨o, alarm, hfind, halarm, hserves⟩
  · rw [h.rpcServices, h.currentConfig]
    exact hcommitted.services
  · rw [h.currentConfig, h.rpcPVs, h.rpcAssignments]
    exact hcommitted.assembled
  · rw [h.currentConfig, h.rpcPVs, h.generation, h.catalog]
    exact hcommitted.catalog
  · rw [h.admin, h.currentConfig, h.runtimes, h.rpcPVs, h.rpcAssignments,
      h.servedBindings hs.agrees hs.orderly]
    exact hcommitted.bindings

theorem State.Stages.sound (h : s.Stages t) (hs : Sound env s) : Sound env t := by
  refine ⟨h.toExtends.inRange hs.range, h.controller.agrees hs.agrees, h.orderly hs.orderly, ?_, ?_⟩
  · rw [h.hasConfig]
    exact fun hconfig => h.committed hs (hs.committed hconfig)
  · rw [h.hasConfig, h.redisBackends, h.runtimes, h.alarmPublisher,
      h.servedBindings hs.agrees hs.orderly]
    exact hs.empty

/-- **Staging keeps the invariant**, so whatever is refused does. -/
theorem Running.stages (hs : Running env s) (h : s.Stages t) : Running env t := by
  have hrest := h.access.rest
  refine ⟨h.sound hs.toSound, ?_, ?_, ?_, ?_, ?_, ?_, ?_, ?_⟩
  · rw [h.launched]
    exact hs.launched
  · rw [h.started, h.hasConfig]
    exact hs.started
  · rw [h.hasConfig, h.currentConfig]
    exact hs.parsed
  · rw [h.hasConfig, h.admin, h.currentConfig]
    exact hs.admin
  · rw [h.hasConfig, h.secured, h.currentConfig]
    exact hs.enabled
  · rw [h.secured, h.hasConfig]
    intro hsecured
    rcases hs.policy hsecured with hactive | ⟨hconfig, hlibrary, hpolicy⟩
    · exact .inl (hactive.stages h.controller)
    · exact .inr ⟨hconfig, (congrArg Controller.library hrest :).trans hlibrary,
        (congrArg Controller.activePolicy hrest :).trans hpolicy⟩
  · rw [h.secured, h.hasConfig, h.currentConfig]
    intro hsecured hconfig
    obtain ⟨hsame, hasgs⟩ := hs.required hsecured hconfig
    exact ⟨(congrArg Controller.config hrest :).trans hsame,
      (congrArg Controller.configuredAsgs hrest :).trans hasgs⟩
  · rw [h.rpcDiscovery, h.generation, h.currentConfig]
    exact hs.discovery

theorem Running.refreshes (hs : Running env s) (h : s.Refreshes t) : Running env t := by
  have hsound := h.sound hs.toSound
  have hrest := h.rest
  generalize t.runtimeObjects = objects at hrest
  generalize t.publishers = publishers at hrest
  generalize t.reload = reload at hrest
  subst hrest
  exact ⟨hsound, hs.launched, hs.started, hs.parsed, hs.admin, hs.enabled, hs.policy, hs.required,
    hs.discovery⟩

theorem Running.reload (hs : Running env s) (status : ReloadStatus) :
    Running env { s with reload := status } := hs.stages (stages_reload s status)

theorem running_finishReload (accepted : Bool) (e : String) :
    Within (Keeps (Running env)) (finishReload accepted e) :=
  within_modify fun _ hs => hs.reload _

/-- A reload of the policy keeps the invariant. -/
theorem Running.policyTurn (hs : Running env s) (hconfig : s.hasConfig = true)
    (hsecured : s.secured = true) {c : Controller} (h : PolicyTurn env.lib s.access c) :
    Running env { s with access := c } := by
  have hserved : ({ s with access := c } : State).served = s.served := by
    show (if s.secured = true then c.registry else s.registry) = s.served
    rw [h.registry]
    rfl
  have hcommitted := hs.committed hconfig
  have hactive : PolicyActive env.lib s.access := by
    rcases hs.policy hsecured with hactive | ⟨hno, -⟩
    · exact hactive
    · rw [hconfig] at hno
      cases hno
  refine ⟨⟨⟨hs.range.backends, hs.range.runtimes, hs.range.alarm⟩, h.agrees hs.agrees, hs.orderly,
    fun _ => ?_, ?_⟩, hs.launched, hs.started, hs.parsed, hs.admin, hs.enabled,
    fun _ => .inl (h.policy hactive), ?_, hs.discovery⟩
  · refine ⟨hcommitted.backends, hcommitted.adapters, hcommitted.alarm, hcommitted.names,
      hcommitted.keys, hcommitted.runtimes, hcommitted.services, hcommitted.assembled,
      hcommitted.catalog, ?_⟩
    rw [hserved]
    exact hcommitted.bindings
  · intro hno
    cases hno.symm.trans hconfig
  · intro hsec hcon
    obtain ⟨hsame, hasgs⟩ := hs.required hsec hcon
    exact ⟨h.config.trans hsame, h.configuredAsgs.trans hasgs⟩

end Frames

/-! ## Generations -/

variable {u : State}

section Generations

variable {env : Platform} {w : World} {config : AppConfig} {s t : State}

/-- An accepted generation for the server and the access control of the startup. -/
theorem GenerationBuilt.running {st : Staged} {v : State} {c : Controller}
    (h : GenerationBuilt env w config (s.generation + 1) s st u c v) (hs : Running env s)
    (hready : Ready env w config s) (hadmin : s.admin.server = config.server)
    (henabled : s.secured = config.access.enabled)
    (hparsed : ∃ root, parseConfig root = .ok config) :
    Running env v := by
  obtain ⟨hadmin', hsecured, hlaunched, hstarted, hdiscovery⟩ := h.frame
  have hpolicy := h.policyCurrent hready
  have hconfig := h.currentConfig
  refine ⟨h.sound hs.toSound, ?_, fun _ => h.hasConfig, ?_, ?_, ?_, ?_, ?_, ?_⟩
  · rw [hlaunched]
    exact hs.launched
  · rw [hconfig]
    exact fun _ => hparsed
  · rw [hadmin', hconfig]
    exact fun _ => hadmin
  · rw [hsecured, hconfig]
    exact fun _ => henabled
  · intro hsec
    exact .inl (hpolicy hsec).2.2.2
  · rw [hconfig]
    intro hsec _
    exact ⟨(hpolicy hsec).1, (hpolicy hsec).2.1⟩
  · -- a reflection of an earlier generation is not one of this
    rw [hdiscovery, h.sameGeneration]
    intro d hd
    have hle := (hs.discovery d hd).1
    refine ⟨Nat.le_succ_of_le hle, fun heq => ?_⟩
    omega

/-- `applyGeneration` keeps the invariant, whether it accepts or not. -/
theorem Running.applyGeneration (hs : Running env s) (hready : Ready env w config s)
    (hadmin : s.admin.server = config.server) (henabled : s.secured = config.access.enabled)
    (hparsed : ∃ root, parseConfig root = .ok config) :
    ∃ report t, Returns (applyGeneration env w config (s.generation + 1)) s report t ∧
      Running env t ∧ (report.accepted = true ∨ s.hasConfig = true → t.hasConfig = true) := by
  obtain ⟨report, t, hrun, hcase⟩ := applyGeneration_cases env w config (s.generation + 1) s
  refine ⟨report, t, hrun, ?_⟩
  rcases hcase with ⟨hrejected, hstages⟩ | ⟨-, st, v, hbuild, hrefresh⟩
  · refine ⟨hs.stages hstages, ?_⟩
    rw [hrejected, hstages.hasConfig]
    simp
  · obtain ⟨u, c, hbuilt⟩ := returns_buildGeneration hs.toSound hbuild
    have hrunning := hbuilt.running hs hready hadmin henabled hparsed
    refine ⟨hrunning.refreshes hrefresh, fun _ => ?_⟩
    rw [hrefresh.rest]
    exact hbuilt.hasConfig

/-- A running application is ready for any candidate. -/
theorem Running.ready (hs : Running env s) (hconfig : s.hasConfig = true) (w : World)
    (config : AppConfig) : Ready env w config s := by
  refine ⟨hs.toSound, fun hsecured => ?_, fun _ hno => ?_⟩
  · rcases hs.policy hsecured with hactive | ⟨hno, -⟩
    · exact hactive
    · cases hno.symm.trans hconfig
  · cases hno.symm.trans hconfig

/-- The comparisons that `applyConfig` makes before it builds a generation. -/
theorem immutableRejection_eq_none (hconfig : s.hasConfig = true) :
    immutableRejection s config = none ↔ s.currentConfig.limits = config.limits ∧
      s.currentConfig.server = config.server ∧
      s.currentConfig.access.enabled = config.access.enabled ∧
      s.currentConfig.discovery = config.discovery := by
  have hlimits := sameOperationLimits_iff s.currentConfig.limits config.limits
  have hserver := sameServerConfig_iff s.currentConfig.server config.server
  have hdiscovery := sameDiscoveryConfig_iff s.currentConfig.discovery config.discovery
  have hitem : ∀ (p : Prop) [Decidable p] (text : String) (rest : Option String),
      (if p then some text else rest) = none ↔ ¬ p ∧ rest = none := by
    intro p _ text rest
    split <;> simp [*]
  simp only [immutableRejection, hconfig, hitem, Bool.true_and, Bool.not_eq_true',
    Bool.not_eq_false, bne_iff_ne, ne_eq, not_not, hlimits, hserver, hdiscovery, and_true]

/-- A reload keeps the invariant, whatever is found in the file. -/
theorem Running.applyConfig (hs : Running env s) (hconfig : s.hasConfig = true)
    (hparsed : ∃ root, parseConfig root = .ok config) :
    ∃ report t, Returns (applyConfig env w config false) s report t ∧ Running env t ∧
      t.hasConfig = true := by
  have hdescribed : Running env (s.describeReload config) := hs.reload _
  have hsame : (s.describeReload config).generation = s.generation := rfl
  generalize hu : s.describeReload config = u at hdescribed hsame
  have hmodify : Returns (describeReload config) s () u := returns_modify.mpr hu.symm
  have hconfig' : u.hasConfig = true := by
    rw [← hu]
    exact hconfig
  cases hrejection : immutableRejection u config with
  | some e =>
    refine ⟨⟨false, e⟩, u, returns_bind.mpr ⟨(), u, hmodify, ?_⟩, hdescribed, hconfig'⟩
    rw [returns_get_bind, if_neg (by decide), hrejection]
    exact returns_pure.mpr ⟨rfl, rfl⟩
  | none =>
    obtain ⟨-, hserver, henabled, -⟩ := (immutableRejection_eq_none hconfig').mp hrejection
    obtain ⟨report, t, hrun, hrunning, hhas⟩ := hdescribed.applyGeneration
      (hdescribed.ready hconfig' w config) ((hdescribed.admin hconfig').trans hserver)
      ((hdescribed.enabled hconfig').trans henabled) hparsed
    refine ⟨report, t, returns_bind.mpr ⟨(), u, hmodify, ?_⟩, hrunning, hhas (.inr hconfig')⟩
    rw [returns_get_bind, if_neg (by decide), hrejection]
    exact hrun

theorem loadConfigFile_parsed (h : Returns (loadConfigFile w) s config u) :
    u = s ∧ ∃ root, parseConfig root = .ok config := by
  obtain ⟨root, v, hroot, hparse⟩ := returns_bind.mp h
  obtain ⟨-, rfl⟩ := returns_ofExcept.mp hroot
  obtain ⟨hconfig, rfl⟩ := returns_ofExcept.mp hparse
  exact ⟨rfl, root, hconfig⟩

/-- The invariant of an application that has a generation. -/
def Serving (env : Platform) (s : State) : Prop := Running env s ∧ s.hasConfig = true

theorem Serving.reload (hs : Serving env s) (status : ReloadStatus) :
    Serving env { s with reload := status } := ⟨hs.1.reload status, hs.2⟩

theorem serving_finishReload (accepted : Bool) (e : String) :
    Within (Keeps (Serving env)) (finishReload accepted e) :=
  within_modify fun _ hs => hs.reload _

/-- **One reload**, whatever the file holds and whichever step fails. -/
theorem serving_reloadConfig (env : Platform) (w : World) :
    Within (Keeps (Serving env)) (reloadConfig env w) := by
  have hload : Within (Keeps (Serving env)) (loadConfigFile w) :=
    (within_ofExcept _).bind fun _ => within_ofExcept _
  have happly : ∀ config, (∃ root, parseConfig root = .ok config) →
      Within (Keeps (Serving env)) (Application.applyConfig env w config false) := by
    intro config hparsed s hs
    obtain ⟨report, t, hrun, hserving⟩ := hs.1.applyConfig (w := w) hs.2 hparsed
    rw [final_of_returns hrun]
    exact hserving
  unfold reloadConfig
  refine Within.bind (within_modify fun _ hs => hs.reload _) fun _ => Within.tryCatch ?_ fun e => ?_
  · refine hload.bind_returns (fun _ _ _ h => (loadConfigFile_parsed h).2) fun config hparsed => ?_
    exact (happly config hparsed).bind fun report => serving_finishReload _ _
  · exact within_get.bind fun s => serving_finishReload _ _

end Generations

/-! ## Recoveries -/

section Recoveries

variable {env : Platform} {w : World} {index : Nat} {recovered : RpcServiceState} {s t : State}

theorem RecoveryBuilt.serving {st : Recovered} (h : RecoveryBuilt env w index recovered s st u t)
    (hs : Serving env s) (hplace : s.currentConfig.rpcServices[index]? = some recovered.config) :
    Serving env t := by
  obtain ⟨hs, hconfig⟩ := hs
  obtain ⟨hcurrent, hhas, -, -, -, hadmin, hsecured, hlaunched, hstarted, hdiscovery⟩ := h.frame
  obtain ⟨hsame, hasgs, hactive⟩ := h.policy
  refine ⟨⟨h.sound hs.toSound hconfig hplace, ?_, ?_, ?_, ?_, ?_, ?_, ?_, ?_⟩, hhas.trans hconfig⟩
  · rw [hlaunched]
    exact hs.launched
  · rw [hstarted, hhas]
    exact hs.started
  · rw [hhas, hcurrent]
    exact hs.parsed
  · rw [hhas, hadmin, hcurrent]
    exact hs.admin
  · rw [hhas, hsecured, hcurrent]
    exact hs.enabled
  · rw [hsecured]
    intro hsec
    exact .inl (hactive ((hs.ready hconfig w s.currentConfig).active hsec))
  · rw [hsecured, hhas, hcurrent, hsame, hasgs]
    exact hs.required
  · rw [hdiscovery, h.installed.2.2.2.2]
    intro d hd
    have hle := (hs.discovery d hd).1
    refine ⟨Nat.le_succ_of_le hle, fun heq => ?_⟩
    omega

/-- What a recovered service may replace: the one with its place and its configuration. -/
def Awaits (env : Platform) (index : Nat) (recovered : RpcServiceState) (s : State) : Prop :=
  Serving env s ∧ s.currentConfig.rpcServices[index]? = some recovered.config

theorem Awaits.reload (hs : Awaits env index recovered s) (status : ReloadStatus) :
    Awaits env index recovered { s with reload := status } := ⟨hs.1.reload status, hs.2⟩

theorem awaits_buildRecovery (env : Platform) (w : World) (index : Nat)
    (recovered : RpcServiceState) :
    Within (Keeps (Awaits env index recovered)) (buildRecovery env w index recovered) := by
  intro s hs
  obtain ⟨⟨hrunning, hconfig⟩, hplace⟩ := hs
  rcases buildRecovery_cases env w index recovered s with ⟨t, hrun⟩ | ⟨e, t, hrun, hstages⟩
  · rw [final_of_returns hrun]
    obtain ⟨st, u, hbuilt⟩ := returns_buildRecovery hrunning.toSound hconfig
      (hrunning.admin hconfig) hrun
    refine ⟨hbuilt.serving ⟨hrunning, hconfig⟩ hplace, ?_⟩
    rw [hbuilt.frame.1]
    exact hplace
  · rw [final_of_returns hrun]
    refine ⟨⟨hrunning.stages hstages, hstages.hasConfig.trans hconfig⟩, ?_⟩
    rw [hstages.currentConfig]
    exact hplace

/-- What the recovery may change beside a publication: everything about the services but their
    configurations, and the reflection in the background. -/
theorem Serving.background {services : RpcServices} {discovery : Option RpcDiscovery} {next : Nat}
    (hs : Serving env s)
    (h : services.map RpcServiceState.config = s.rpcServices.map RpcServiceState.config)
    (hdiscovery : ∀ d, discovery = some d → d.generation ≤ s.generation ∧
      (d.generation = s.generation → s.currentConfig.rpcServices[d.index]? = some d.config)) :
    Serving env { s with
      rpcServices := services, rpcDiscovery := discovery, nextRpcDiscoveryIndex := next } := by
  obtain ⟨hs, hconfig⟩ := hs
  have hcommitted := hs.committed hconfig
  refine ⟨⟨⟨⟨hs.range.backends, hs.range.runtimes, hs.range.alarm⟩, hs.agrees, hs.orderly,
    fun _ => ?_, hs.empty⟩, hs.launched, hs.started, hs.parsed, hs.admin, hs.enabled, hs.policy,
    hs.required, hdiscovery⟩, hconfig⟩
  exact ⟨hcommitted.backends, hcommitted.adapters, hcommitted.alarm, hcommitted.names,
    hcommitted.keys, hcommitted.runtimes, h.trans hcommitted.services, hcommitted.assembled,
    hcommitted.catalog, hcommitted.bindings⟩

theorem Serving.services {services : RpcServices} (hs : Serving env s)
    (h : services.map RpcServiceState.config = s.rpcServices.map RpcServiceState.config) :
    Serving env { s with rpcServices := services } := hs.background h hs.1.discovery

theorem Serving.forget (hs : Serving env s) : Serving env { s with rpcDiscovery := none } :=
  hs.background rfl fun _ hd => by cases hd

theorem map_config_modify (services : RpcServices) (index : Nat)
    {f : RpcServiceState → RpcServiceState} (hf : ∀ service, (f service).config = service.config) :
    (services.modify index f).map RpcServiceState.config =
      services.map RpcServiceState.config := by
  apply List.ext_getElem?
  intro i
  simp only [List.getElem?_map, List.getElem?_modify]
  cases services[i]? with
  | none => rfl
  | some service =>
    split
    · exact congrArg some (hf service)
    · rfl

theorem map_config_set {services : RpcServices} {service : RpcServiceState}
    (h : (services.map RpcServiceState.config)[index]? = some service.config) :
    (services.set index service).map RpcServiceState.config =
      services.map RpcServiceState.config := by
  obtain ⟨hlt, heq⟩ := List.getElem?_eq_some_iff.mp h
  rw [List.map_set, ← heq]
  exact List.set_getElem_self hlt

/-- A reflection that has ended is published, refused or tried again. -/
theorem awaits_finishDiscovery (env : Platform) (w : World) (index : Nat)
    (recovered : RpcServiceState) :
    Within (Keeps (Awaits env index recovered)) (finishDiscovery env w index recovered) := by
  have hfinish : ∀ accepted e,
      Within (Keeps (Awaits env index recovered)) (finishReload accepted e) :=
    fun _ _ => within_modify fun _ hs => hs.reload _
  unfold finishDiscovery
  split
  · refine Within.bind (within_modify fun _ hs => hs.reload _) fun _ => ?_
    refine Within.bind (within_modify fun _ hs => hs.reload _) fun _ => ?_
    refine (awaits_buildRecovery env w index recovered).bind fun outcome => ?_
    cases outcome with
    | ok v => exact Within.bind (within_modify fun _ hs => hs.reload _) fun _ => hfinish _ _
    | error e =>
      refine Within.bind (within_modify fun s hs => ?_) fun _ => hfinish _ _
      exact ⟨hs.1.services (map_config_modify _ _ fun _ => rfl), hs.2⟩
  · refine within_modify fun s hs => ⟨hs.1.services (map_config_set ?_), hs.2⟩
    rw [(hs.1.1.committed hs.1.2).services]
    exact hs.2

/-- The background task returns a service with the configuration that it has captured. -/
theorem recoveredService_run (d : RpcDiscovery) (w : World) (s : State) :
    ∃ service t, Returns (recoveredService d w) s service t ∧ service.config = d.config ∧
      s.Stages t := by
  have hreflect : ∃ outcome t, Returns (reflectRpcService d.server d.config (w.reflect d.index)) s
      outcome t := by
    unfold reflectRpcService
    cases w.reflect d.index with
    | unavailable e => exact ⟨_, s, returns_pure.mpr ⟨rfl, rfl⟩⟩
    | failed e => exact ⟨_, s, returns_pure.mpr ⟨rfl, rfl⟩⟩
    | methods found =>
      obtain ⟨u, hallocate⟩ : ∃ u, Returns (allocate found.length) s s.nextObject u := ⟨_, rfl⟩
      cases hmethods : reflectMethods d.server d.config s.nextObject found with
      | ok service =>
        refine ⟨.ok service, u, returns_bind.mpr ⟨_, u, hallocate, ?_⟩⟩
        rw [hmethods]
        exact returns_pure.mpr ⟨rfl, rfl⟩
      | error e =>
        refine ⟨.error (.failed e), u, returns_bind.mpr ⟨_, u, hallocate, ?_⟩⟩
        rw [hmethods]
        exact returns_pure.mpr ⟨rfl, rfl⟩
  obtain ⟨outcome, t, hrun⟩ := hreflect
  have hstages := (within_reflectRpcService d.server d.config (w.reflect d.index)).returns hrun
  unfold recoveredService
  cases outcome with
  | ok service =>
    exact ⟨service, t, returns_bind.mpr ⟨_, t, hrun, returns_pure.mpr ⟨rfl, rfl⟩⟩,
      (returns_reflectRpcService hrun).1, hstages⟩
  | error failure =>
    cases failure with
    | unavailable e =>
      exact ⟨_, t, returns_bind.mpr ⟨_, t, hrun, returns_pure.mpr ⟨rfl, rfl⟩⟩, rfl, hstages⟩
    | failed e =>
      exact ⟨_, t, returns_bind.mpr ⟨_, t, hrun, returns_pure.mpr ⟨rfl, rfl⟩⟩, rfl, hstages⟩

theorem serving_completeDiscovery (env : Platform) (w : World) :
    Within (Keeps (Serving env)) (completeDiscovery env w) := by
  refine within_get_bind fun s hs => ?_
  cases hdiscovery : s.rpcDiscovery with
  | none => exact hs
  | some d =>
    obtain ⟨recovered, t, hrun, hrecovered, hstages⟩ := recoveredService_run d w s
    have ht : Serving env t := ⟨hs.1.stages hstages, hstages.hasConfig.trans hs.2⟩
    dsimp only
    split
    swap
    · exact hs
    rw [final_bind_of_returns hrun, final_bind_of_returns (a := ⟨⟩) (returns_modify.mpr rfl)]
    split
    swap
    · exact ht.forget
    rename_i hgeneration
    split
    swap
    · exact ht.forget
    -- the service is still the one that was reflected
    rename_i service hservice
    have hplace : t.currentConfig.rpcServices[d.index]? = some recovered.config := by
      rw [hstages.currentConfig, hrecovered]
      exact (hs.1.discovery d hdiscovery).2 hgeneration
    refine ((awaits_finishDiscovery env w d.index
      { recovered with attempts := service.attempts + 1 }).bind (fun _ => within_pure true)
      { t with rpcDiscovery := none } ⟨ht.forget, hplace⟩).1

/-- The next reflection is started for a service of this generation. -/
theorem Serving.launch (hs : Serving env s) (now : Int) : Serving env (s.launchDiscovery now) := by
  unfold State.launchDiscovery
  split
  · exact hs
  · rename_i index hnext
    split
    · exact hs
    · rename_i service hservice
      have hplace : (s.rpcServices.map RpcServiceState.config)[index]? = some service.config := by
        rw [List.getElem?_map, hservice]
        rfl
      refine hs.background (map_config_set hplace) fun d hd => ?_
      cases hd
      refine ⟨le_refl _, fun _ => ?_⟩
      rw [← (hs.1.committed hs.2).services]
      exact hplace

/-- **One recovery.** -/
theorem serving_pumpRpcRecovery (env : Platform) (w : World) :
    Within (Keeps (Serving env)) (pumpRpcRecovery env w) := by
  unfold pumpRpcRecovery
  split
  · refine (serving_completeDiscovery env w).bind fun completed => ?_
    split
    · exact within_modify fun s hs => hs.launch w.now
    · exact within_pure _
  · exact within_pure _

end Recoveries

/-! ## Startup -/

section Startup

variable {env : Platform} {w : World} {config : AppConfig} {s t : State} {c : Controller}

variable {secured : Bool}

/-- Before the first generation only the access controller and the diagnostics are there. -/
theorem running_unconfigured (hagrees : Agrees c) (hempty : c.registry.bindings = ∅)
    (hpolicy : secured = true → PolicyActive env.lib c ∨ c.library = none ∧ c.activePolicy = "")
    (status : ReloadStatus) (admin : AdminNamespace) (next : ObjectId) :
    Running env {
      launched := true, reload := status, access := c, secured := secured, admin := admin
      nextObject := next } := by
  have hnone : ∀ {p : Prop}, false = true → p := fun h => by cases h
  refine ⟨⟨⟨?_, ?_, ?_⟩, hagrees, orderly_empty, hnone, fun _ => ⟨rfl, rfl, rfl, ?_⟩⟩, rfl, hnone,
    hnone, hnone, hnone, ?_, fun _ => hnone, ?_⟩
  · intro name o ho
    cases ho
  · intro name o ho
    cases ho
  · intro o ho
    cases ho
  · show (if secured = true then c.registry else {}).bindings = ∅
    split
    · exact hempty
    · rfl
  · intro hsecured
    rcases hpolicy hsecured with hactive | hnothing
    · exact .inl hactive
    · exact .inr ⟨rfl, hnothing⟩
  · intro d hd
    cases hd

/-- What `startAccess` leaves, with its outcome. -/
structure AccessStarted (env : Platform) (w : World) (config : AppConfig) (c : Controller)
    (secured : Bool) (o : Outcome) : Prop where
  agrees : Agrees c
  empty : c.registry.bindings = ∅
  policy : secured = true → PolicyActive env.lib c ∨ c.library = none ∧ c.activePolicy = ""
  started : o = .ok () → secured = config.access.enabled ∧ (secured = true →
    PolicyActive env.lib c ∧ c.config = config.access ∧
      c.configuredAsgs = requiredAccessAsgs config ∧ PolicyFrom env.lib w.access c)

theorem startAccess_run (env : Platform) (w : World) (config : AppConfig) (status : ReloadStatus) :
    ∃ o status' c secured, Returns (startAccess env w config)
        { launched := true, reload := status } o
        { launched := true, reload := status', access := c, secured := secured } ∧
      AccessStarted env w config c secured o := by
  unfold startAccess
  cases henabled : config.access.enabled with
  | false =>
    refine ⟨.ok (), status, {}, false, returns_pure.mpr ⟨rfl, rfl⟩, agrees_new _ _, rfl, ?_, ?_⟩
    · intro h
      cases h
    · intro _
      refine ⟨henabled.symm, fun h => ?_⟩
      cases h
  | true =>
    obtain ⟨o, c, hrun, hturn, hcase⟩ := start_run
      (c := { config := config.access }) henabled env.lib w.access (requiredAccessAsgs config)
    refine ⟨o, { status with phase := .policy }, c, true, ?_, ?_, ?_, ?_, ?_⟩
    · refine returns_bind.mpr ⟨⟨⟩, _, returns_modify.mpr rfl, ?_⟩
      refine returns_bind.mpr ⟨⟨⟩, _, returns_modify.mpr rfl, ?_⟩
      exact returns_zoom.mpr ⟨c, hrun, rfl⟩
    · exact hturn.agrees (agrees_new _ _)
    · rw [hturn.registry]
      rfl
    · intro _
      rcases hcase with ⟨-, hactive, -⟩ | ⟨-, hlibrary, hpolicy⟩
      · exact .inl hactive
      · exact .inr ⟨hlibrary, hpolicy⟩
    · intro ho
      refine ⟨henabled.symm, fun _ => ?_⟩
      rcases hcase with ⟨-, hactive, hfrom⟩ | ⟨⟨e, he⟩, -⟩
      · exact ⟨hactive, hturn.config, hturn.configuredAsgs, hfrom⟩
      · rw [he] at ho
        cases ho

theorem AccessStarted.ready (h : AccessStarted env w config c secured (.ok ()))
    (status : ReloadStatus) (admin : AdminNamespace) (next : ObjectId) :
    Ready env w config {
      launched := true, reload := status, access := c, secured := secured, admin := admin
      nextObject := next } := by
  obtain ⟨-, hpolicy⟩ := h.started rfl
  refine ⟨(running_unconfigured h.agrees h.empty h.policy status admin next).toSound, ?_, ?_⟩
  · exact fun hsecured => (hpolicy hsecured).1
  · exact fun hsecured _ => (hpolicy hsecured).2

/-- The first generation. -/
theorem Running.applyFirst (hs : Running env s) (hready : ∀ status,
      Ready env w config { s with reload := status })
    (hadmin : s.admin.server = config.server) (henabled : s.secured = config.access.enabled)
    (hparsed : ∃ root, parseConfig root = .ok config) :
    ∃ report t, Returns (Application.applyConfig env w config true) s report t ∧ Running env t ∧
      (report.accepted = true → t.hasConfig = true) := by
  have hdescribed : Running env (s.describeReload config) := hs.reload _
  obtain ⟨report, t, hrun, hrunning, hhas⟩ :=
    hdescribed.applyGeneration (hready _) hadmin henabled hparsed
  refine ⟨report, t, returns_bind.mpr ⟨(), _, returns_modify.mpr rfl, ?_⟩, hrunning,
    fun haccepted => hhas (.inl haccepted)⟩
  rw [returns_get_bind, if_pos rfl]
  exact hrun

/-- An application with a generation may be started. -/
theorem Serving.begin (hs : Serving env s) : Serving env { s with started := true } := by
  obtain ⟨hs, hconfig⟩ := hs
  have hcommitted := hs.committed hconfig
  refine ⟨⟨⟨⟨hs.range.backends, hs.range.runtimes, hs.range.alarm⟩, hs.agrees, hs.orderly,
    fun _ => ?_, hs.empty⟩, hs.launched, fun _ => hconfig, hs.parsed, hs.admin, hs.enabled,
    hs.policy, hs.required, hs.discovery⟩, hconfig⟩
  exact ⟨hcommitted.backends, hcommitted.adapters, hcommitted.alarm, hcommitted.names,
    hcommitted.keys, hcommitted.runtimes, hcommitted.services, hcommitted.assembled,
    hcommitted.catalog, hcommitted.bindings⟩

/-- The rest of a startup whose access controller runs. -/
theorem running_startGeneration {status : ReloadStatus}
    (h : AccessStarted env w config c secured (.ok ()))
    (hparsed : ∃ root, parseConfig root = .ok config) :
    Running env (final ((startGeneration env w config).run
      { launched := true, reload := status, access := c, secured := secured })) := by
  obtain ⟨report, t, hrun, hrunning, hhas⟩ :=
    (running_unconfigured h.agrees h.empty h.policy status
      { object := 0, server := config.server, accessConfigured := config.access.enabled }
      (0 + (1 + (diagnostics config.server).length))).applyFirst (w := w)
        (fun status => h.ready status _ _) rfl (h.started rfl).1 hparsed
  have hadmin : Returns (newAdmin config)
      { launched := true, reload := status, access := c, secured := secured } () _ :=
    returns_modify.mpr rfl
  unfold startGeneration
  rw [final_bind_of_returns hadmin, final_bind_of_returns hrun]
  split
  · -- what follows an acceptance keeps the generation
    rename_i haccepted
    have hrest : Within (Keeps (Serving env)) (do
        raise w.serverStart
        modify fun s => { s with started := true }
        finishReload true ""
        return true) := by
      refine Within.bind ?_ fun _ => Within.bind (within_modify fun s hs => hs.begin) fun _ =>
        (serving_finishReload _ _).bind fun _ => within_pure _
      intro s hs
      have hstages := within_raise w.serverStart s
      exact ⟨hs.1.stages hstages, hstages.hasConfig.trans hs.2⟩
    exact (hrest t ⟨hrunning, hhas haccepted⟩).1
  · exact ((running_finishReload _ _).bind fun _ => within_pure _) t hrunning

/-- **The startup** establishes the invariant, whether it succeeds or not. -/
theorem running_start (env : Platform) (w : World) :
    Running env (final ((start env w).run { launched := true })) := by
  have hnone : ∀ status, Running env { launched := true, reload := status } := fun status =>
    running_unconfigured (agrees_new _ _) rfl (fun h => by cases h) status {} 0
  have hbegin : Returns (beginReload .startup) { launched := true } () _ := returns_modify.mpr rfl
  unfold start
  rw [final_bind_of_returns hbegin]
  refine final_tryCatch ?_ fun e => ?_
  swap
  · exact within_get.bind fun s => (running_finishReload _ _).bind fun _ => within_pure _
  have hload : Within Eq (loadConfigFile w) :=
    (within_ofExcept _).bind fun _ => within_ofExcept _
  have hraise : Within Eq (raise w.serverBuild) := by
    unfold raise
    split
    · exact within_pure _
    · exact within_throw _
  refine final_bind (fun e t ht => ?_) fun config t ht => ?_
  · rw [← hload.throws ht]
    exact hnone _
  obtain ⟨rfl, hparsed⟩ := loadConfigFile_parsed ht
  have hdescribe : Returns (describeReload config)
      (({ launched := true } : State).beginReload .startup) () _ := returns_modify.mpr rfl
  rw [final_bind_of_returns hdescribe]
  refine final_bind (fun e t ht => ?_) fun _ t ht => ?_
  · rw [← hraise.throws ht]
    exact hnone _
  rw [← hraise.returns ht]
  obtain ⟨o, status, c, secured, hrun, hstarted⟩ := startAccess_run env w config _
  refine (congrArg (Running env) (final_bind_of_returns hrun)).mpr ?_
  cases o with
  | ok v => exact running_startGeneration hstarted hparsed
  | error e =>
    exact ((running_finishReload _ _).bind fun _ => within_pure _) _
      (running_unconfigured hstarted.agrees hstarted.empty hstarted.policy status {} 0)

end Startup

/-! ## Runs -/

section Runs

variable {env : Platform} {s t : State}

/-- The state before and after `start` was called. -/
def Between (env : Platform) (s : State) : Prop := s = {} ∨ Running env s

theorem between_step {a : Label} (hs : Between env s) (h : (machine env).step s a = some t) :
    Between env t := by
  have hserving : s.started = true → Serving env s := by
    intro hstarted
    rcases hs with rfl | hs
    · cases hstarted
    · exact ⟨hs, hs.started hstarted⟩
  have hturn : ∀ {x : Effect Controller Unit}, Within (PolicyTurn env.lib) x →
      (s.started && s.secured) = true → Running env (s.run (zoom State.accessPart x)) := by
    intro x hx hboth
    obtain ⟨hstarted, hsecured⟩ := Bool.and_eq_true_iff.mp hboth
    obtain ⟨hrunning, hconfig⟩ := hserving hstarted
    exact Within.zoom (R := fun s t => s.hasConfig = true → s.secured = true → Running env s →
      Running env t) hx (fun s c hc hcon hsec hrun => hrun.policyTurn hcon hsec hc) s hconfig
      hsecured hrunning
  cases a with
  | start w =>
    simp only [machine, step] at h
    split at h
    · cases h
    · rename_i hlaunched
      cases h
      rcases hs with rfl | hs
      · exact .inr (running_start env w)
      · exact absurd hs.launched hlaunched
  | reload w =>
    simp only [machine, step] at h
    split at h
    · rename_i hstarted
      cases h
      exact .inr (serving_reloadConfig env w s (hserving hstarted)).1
    · cases h
  | requestAccessReload =>
    simp only [machine, step] at h
    split at h
    · rename_i hboth
      cases h
      exact .inr (hturn (policyTurn_requestReload _) hboth)
    · cases h
  | pumpAccess w w' polled now =>
    simp only [machine, step] at h
    split at h
    · rename_i hboth
      cases h
      exact .inr (hturn (policyTurn_pump _ _ _ _ _) hboth)
    · cases h
  | pumpRpcRecovery w =>
    simp only [machine, step] at h
    split at h
    · rename_i hstarted
      cases h
      exact .inr (serving_pumpRpcRecovery env w s (hserving hstarted)).1
    · cases h

/-- **Every run keeps the invariant.** -/
theorem between_reachable (h : (machine env).Reachable s) : Between env s :=
  h.invariant (fun _ hstart => .inl hstart) fun _ _ _ hs hstep => between_step hs hstep

end Runs

/-! ## All or nothing -/

section AllOrNothing

variable {env : Platform} {w : World} {config : AppConfig} {s : State}

/-- The states in which `applyGeneration` is called for a candidate: at the end of a startup, and
    between two operations of an application that was started.  The status of the reload may be
    anything. -/
inductive CallsGeneration (env : Platform) (w : World) (config : AppConfig) : State → Prop where
  | startup {u v : State} {status : ReloadStatus}
      (haccess : Returns (startAccess env w config) { launched := true, reload := status } (.ok ()) u)
      (hadmin : Returns (newAdmin config) u () v) (status' : ReloadStatus) :
    CallsGeneration env w config { v with reload := status' }
  | reload {u : State} (hu : (machine env).Reachable u) (hstarted : u.started = true)
      (status : ReloadStatus) : CallsGeneration env w config { u with reload := status }

theorem CallsGeneration.ready (h : CallsGeneration env w config s) : Ready env w config s := by
  cases h with
  | startup haccess hadmin status' =>
    rename_i u v status
    obtain ⟨o, status'', c, secured, hrun, hstarted⟩ := startAccess_run env w config status
    have hsame := haccess.symm.trans hrun
    simp only [EStateM.Result.ok.injEq] at hsame
    obtain ⟨rfl, rfl⟩ := hsame
    obtain rfl := returns_modify.mp hadmin
    exact hstarted.ready status' _ _
  | reload hu hstarted status =>
    rcases between_reachable hu with rfl | hrunning
    · cases hstarted
    · exact (hrunning.reload status).ready (hrunning.started hstarted) w config

end AllOrNothing

/-! ## A small application -/

def smallPlatform : Platform where
  lib := plainMacros
  grpc := false
  epicsVersion := "7.0"
  version := "1.0"

end RedisPvxsIoc.Application
