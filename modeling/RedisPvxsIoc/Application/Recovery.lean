import RedisPvxsIoc.Application.Reload

/-!
# Recovered Services

An RPC service that could not be reached when its generation was built is reflected in the
background and published later.  That publication makes a generation of its own: it has the
configuration, the adapters and the runtimes of the running one, and its bindings are built by
loops that do not look whether a name is taken.

## Main results

- `returns_stageRecovery`: what a staged recovery consists of
- `buildRecovery_cases`: a recovery is published or nothing has changed
- `RecoveryBuilt.committed`: a published recovery is a committed generation
-/

namespace RedisPvxsIoc.Application

open Foundations Config PVRegistry Access Discovery

/-! ## What a staged recovery is -/

structure RecoveryStaged (env : Platform) (w : World) (index : Nat) (recovered : RpcServiceState)
    (s : State) (st : Recovered) (t : State) : Prop where
  keeps : s.Stages t
  services : st.services = s.rpcServices.set index recovered
  assembled : assembleRpcPVs s.currentConfig st.services = .ok (st.rpcs, st.assignments)
  catalog : buildDiscoveryCatalog env w s.currentConfig st.rpcs (s.generation + 1) =
    .ok st.catalog
  updates : st.updates =
    updatesFor (fun pv => s.runtimes.find? (fullPVName s.currentConfig.server pv))
      (s.generation + 1) (s.alarmPublisher.getD 0) s.currentConfig.pvs
  endpoints : ∃ bindings u,
    generationBindings s.admin s.currentConfig s.runtimes st.rpcs st.assignments = .ok bindings ∧
      s.Stages u ∧ Returns (prepareEndpoints w bindings) u st.endpoints t

/-- Preparing endpoints does not depend on the status of the reload. -/
theorem returns_prepareEndpoints_reload {w : World} {bindings : PVBindings} {endpoints : Nat}
    {s t : State} (h : Returns (prepareEndpoints w bindings) s endpoints t)
    (status : ReloadStatus) :
    Returns (prepareEndpoints w bindings) { s with reload := status } endpoints
      { t with reload := status } := by
  unfold prepareEndpoints at h ⊢
  rw [returns_get_bind] at h ⊢
  by_cases hsecured : s.secured = true
  · rw [if_pos hsecured] at h
    obtain ⟨c, hcall, rfl⟩ := returns_zoom.mp h
    rw [if_pos hsecured]
    exact returns_zoom.mpr ⟨c, hcall, rfl⟩
  · rw [if_neg hsecured] at h
    obtain ⟨r, hcall, rfl⟩ := returns_zoom.mp h
    rw [if_neg hsecured]
    exact returns_zoom.mpr ⟨r, hcall, rfl⟩

section Recovery

variable {env : Platform} {w : World} {index : Nat} {recovered : RpcServiceState} {s t u : State}
  {st : Recovered}

/-- **What a staged recovery consists of.**  The diagnostics have to be those of the server of
    the configuration. -/
theorem returns_stageRecovery (hserver : s.admin.server = s.currentConfig.server)
    (h : Returns (stageRecovery env w index recovered) s st t) :
    RecoveryStaged env w index recovered s st t := by
  have hall := (within_stageRecovery env w index recovered).returns h
  unfold stageRecovery at h
  rw [returns_get_bind] at h
  dsimp only at h
  obtain ⟨assembled, s₁, hcall₁, rest1⟩ := returns_bind.mp h
  obtain ⟨hassembled, rfl⟩ := returns_ofExcept.mp hcall₁
  obtain ⟨catalog, s₂, hcall₂, rest2⟩ := returns_bind.mp rest1
  obtain ⟨hcatalog, rfl⟩ := returns_ofExcept.mp hcall₂
  obtain ⟨base, s₃, hcall₃, rest3⟩ := returns_bind.mp rest2
  obtain ⟨hbase, rfl⟩ := returns_ofExcept.mp hcall₃
  obtain ⟨stage, s₄, hstage, rest4⟩ := returns_bind.mp rest3
  have hpvs := returns_recoverPVs hstage
  obtain rfl : s₄ = s₃ := hpvs.state
  obtain ⟨bindings, s₅, hcall₅, rest5⟩ := returns_bind.mp rest4
  obtain ⟨hrpcs, rfl⟩ := returns_ofExcept.mp hcall₅
  obtain ⟨endpoints, s₆, hprepare, rest6⟩ := returns_bind.mp rest5
  obtain ⟨⟨⟩, s₇, hphase, rest7⟩ := returns_bind.mp rest6
  obtain rfl := returns_modify.mp hphase
  obtain ⟨rfl, rfl⟩ := returns_pure.mp rest7
  refine ⟨hall, rfl, hassembled, hcatalog, hpvs.updates, bindings, _, ?_, ?_,
    returns_prepareEndpoints_reload hprepare _⟩
  · -- the bindings that were emplaced without a check
    have hruntimes : ∀ pv ∈ s₅.currentConfig.pvs,
        fullPVName s₅.currentConfig.server pv ∈ s₅.runtimes.keys := by
      intro pv hpv
      obtain ⟨o, hfind, -⟩ := hpvs.found pv hpv
      exact (FinMap.mem_keys _).mpr ⟨o, hfind⟩
    rw [recoverRpcs_ok hrpcs, hpvs.bindings]
    exact (assembleRpcPVs_ok hassembled).recoverBindings hserver hruntimes hbase
  · exact stages_reload _ _

/-! ## Publication of a recovery -/

/-- What a published recovery leaves, with the state `u` in which its staging ended. -/
structure RecoveryBuilt (env : Platform) (w : World) (index : Nat) (recovered : RpcServiceState)
    (s : State) (st : Recovered) (u t : State) : Prop where
  staged : RecoveryStaged env w index recovered s st u
  objects : t.runtimeObjects = (u.commitRuntimes st.updates []).runtimeObjects
  rest : t = ({ u with
    runtimeObjects := t.runtimeObjects, registry := t.registry, access := t.access } :
      State).installRecovery st
  controller : t.access = { u.access with
    registry := t.access.registry, members := t.access.members, prepared := t.access.prepared }
  agrees : Agrees t.access
  orderly : Orderly t.registry
  bindings : generationBindings s.admin s.currentConfig s.runtimes st.rpcs st.assignments =
    .ok t.served.bindings

/-- The callback of the publication. -/
theorem returns_recoveryCallback {updates : List RuntimeUpdate} {o : Outcome}
    (h : Returns (andThen noCallback (modify fun s => s.commitRuntimes updates [])) s o t) :
    t = s.commitRuntimes updates [] := by
  cases h
  rfl

theorem returns_buildRecovery (hs : Sound env s) (hconfig : s.hasConfig = true)
    (hserver : s.admin.server = s.currentConfig.server)
    (h : Returns (buildRecovery env w index recovered) s (.ok ()) t) :
    ∃ st u, RecoveryBuilt env w index recovered s st u t := by
  unfold buildRecovery at h
  rcases returns_tryCatch.mp h with hbody | ⟨e, v, -, hhandler⟩
  swap
  · cases (returns_pure.mp hhandler).1
  obtain ⟨st, u, hstage, hrest⟩ := returns_bind.mp hbody
  obtain ⟨v, hpublish, hinstall⟩ := returns_andThen.mp hrest
  obtain rfl := returns_modify.mp hinstall
  have hstaged := returns_stageRecovery hserver hstage
  obtain ⟨bindings, u₀, hbindings, hkeeps, hprepare⟩ := hstaged.endpoints
  have hpv : ∀ name old new, u₀.served.bindings.find? name = some old →
      bindings.find? name = some new → old.owner = new.owner → old.pv = new.pv := by
    intro name old new hold hnew howner
    rw [hkeeps.servedBindings hs.agrees hs.orderly] at hold
    exact samePV_generationBindings (hs.committed hconfig).bindings hbindings hold hnew howner
  have hcallback : ∀ x, Returns (andThen noCallback
      (modify fun s => s.commitRuntimes st.updates [])) u (.ok ()) x → x.secured = u.secured ∧
      x.registry = u.registry ∧ SameEndpoints u.access x.access := by
    intro x hx
    rw [returns_recoveryCallback hx, commitRuntimes_rest]
    exact ⟨rfl, rfl, refl _⟩
  obtain ⟨x, hcommit, hpublished⟩ := returns_publishEndpoints
    (hkeeps.controller.agrees hs.agrees) (hkeeps.orderly hs.orderly) hpv hprepare hcallback hpublish
  obtain rfl := returns_recoveryCallback hcommit
  have hcommitted := commitRuntimes_rest u st.updates []
  refine ⟨st, u, hstaged, ?_, ?_, ?_, hpublished.agrees, hpublished.orderly, ?_⟩
  · show v.runtimeObjects = _
    rw [hpublished.rest]
  · rw [hpublished.rest, hcommitted]
    rfl
  · have hcontroller := hpublished.controller
    rw [hcommitted] at hcontroller
    exact hcontroller
  · rw [hbindings, ← hpublished.bindings]
    rfl

/-- **A recovery is published or nothing has changed.** -/
theorem buildRecovery_cases (env : Platform) (w : World) (index : Nat)
    (recovered : RpcServiceState) (s : State) :
    (∃ t, Returns (buildRecovery env w index recovered) s (.ok ()) t) ∨
      ∃ e t, Returns (buildRecovery env w index recovered) s (.error e) t ∧ s.Stages t := by
  refine AllOrNothing.reported (AllOrNothing.bind (within_stageRecovery env w index recovered)
    fun st => AllOrNothing.andThen ?_ fun u => ⟨_, returns_modify.mpr rfl⟩) s
  refine allOrNothing_publishEndpoints (AllOrNothing.andThen ?_ fun u => ⟨_, returns_modify.mpr rfl⟩)
  exact (within_pure _).allOrNothing

namespace RecoveryBuilt

/-- What a recovery takes over from the running generation. -/
theorem frame (h : RecoveryBuilt env w index recovered s st u t) :
    t.currentConfig = s.currentConfig ∧ t.hasConfig = s.hasConfig ∧
      t.redisBackends = s.redisBackends ∧ t.alarmPublisher = s.alarmPublisher ∧
      t.runtimes = s.runtimes ∧ t.admin = s.admin ∧ t.secured = s.secured ∧
      t.launched = s.launched ∧ t.started = s.started ∧ t.rpcDiscovery = s.rpcDiscovery := by
  have hkeeps := h.staged.keeps
  rw [h.rest]
  exact ⟨hkeeps.currentConfig, hkeeps.hasConfig, hkeeps.redisBackends, hkeeps.alarmPublisher,
    hkeeps.runtimes, hkeeps.admin, hkeeps.secured, hkeeps.launched, hkeeps.started,
    hkeeps.rpcDiscovery⟩

/-- What it brings. -/
theorem installed (h : RecoveryBuilt env w index recovered s st u t) :
    t.rpcServices = st.services ∧ t.rpcPVs = st.rpcs ∧ t.rpcAssignments = st.assignments ∧
      t.catalog = st.catalog ∧ t.generation = s.generation + 1 := by
  rw [h.rest]
  exact ⟨rfl, rfl, rfl, rfl, congrArg (· + 1) h.staged.keeps.generation⟩

theorem objects_eq (h : RecoveryBuilt env w index recovered s st u t) :
    t.adapters = u.adapters ∧ t.publishers = u.publishers ∧ t.nextObject = u.nextObject := by
  rw [h.rest]
  exact ⟨rfl, rfl, rfl⟩

/-- Every runtime is kept and joins the new generation. -/
theorem runtime (hs : Sound env s) (hconfig : s.hasConfig = true)
    (h : RecoveryBuilt env w index recovered s st u t) {pv : PVConfig}
    (hpv : pv ∈ s.currentConfig.pvs) :
    ∃ o alarm, s.runtimes.find? (fullPVName s.currentConfig.server pv) = some o ∧
      s.alarmPublisher = some alarm ∧
      (t.runtimeObjects o).Serves s.currentConfig.server pv (s.generation + 1) alarm := by
  have hcommitted := hs.committed hconfig
  obtain ⟨o, alarm, hfind, halarm, hserves⟩ := hcommitted.runtimes pv hpv
  refine ⟨o, alarm, hfind, halarm, ?_⟩
  -- two PVs with the same runtime have the same name
  have hinj : ∀ pv ∈ s.currentConfig.pvs, ∀ pv' ∈ s.currentConfig.pvs, ∀ o,
      s.runtimes.find? (fullPVName s.currentConfig.server pv) = some o →
      s.runtimes.find? (fullPVName s.currentConfig.server pv') = some o → pv = pv' := by
    intro pv hpv pv' hpv' o ho ho'
    exact List.inj_on_of_nodup_map hcommitted.names hpv hpv'
      ((hs.named ho).1.symm.trans (hs.named ho').1)
  rw [h.objects, h.staged.updates,
    commitRuntimes_kept hinj hpv hfind List.not_mem_nil, halarm,
    h.staged.keeps.runtimeObjects o (hs.range.runtimes _ o hfind)]
  exact ⟨hserves.named, rfl, rfl, rfl, hserves.active⟩

/-- The recovered service has the place and the configuration of the one it replaces. -/
theorem services (hcommitted : Committed env s)
    (hplace : s.currentConfig.rpcServices[index]? = some recovered.config)
    (h : RecoveryBuilt env w index recovered s st u t) :
    st.services.map RpcServiceState.config = s.currentConfig.rpcServices := by
  obtain ⟨hlt, heq⟩ := List.getElem?_eq_some_iff.mp hplace
  rw [h.staged.services, List.map_set, hcommitted.services, ← heq]
  exact List.set_getElem_self hlt

/-- **A published recovery is a committed generation.** -/
theorem committed (hs : Sound env s) (hconfig : s.hasConfig = true)
    (hplace : s.currentConfig.rpcServices[index]? = some recovered.config)
    (h : RecoveryBuilt env w index recovered s st u t) : Committed env t := by
  have hcommitted := hs.committed hconfig
  have hkeeps := h.staged.keeps
  obtain ⟨hcurrent, -, hbackends, halarm, hruntimes, hadmin, -⟩ := h.frame
  obtain ⟨hservices, hrpcs, hassignments, hcatalog, hgeneration⟩ := h.installed
  have hconfigs := h.services hcommitted hplace
  refine ⟨?_, ?_, ?_, ?_, ?_, ?_, ?_, ⟨st.services, ?_, ?_⟩, ⟨w, ?_⟩, ?_⟩
  · rw [hbackends, hcurrent]
    exact hcommitted.backends
  · rw [hbackends, hcurrent, h.objects_eq.1]
    intro name redis hredis
    obtain ⟨o, hfind, hadapter⟩ := hcommitted.adapters name redis hredis
    rw [← hkeeps.adapters o (hs.range.backends name o hfind)] at hadapter
    exact ⟨o, hfind, hadapter⟩
  · obtain ⟨o, redis, ho, hredis, htarget⟩ := hcommitted.alarm
    rw [halarm, hcurrent, h.objects_eq.2.1]
    rw [← hkeeps.publishers o (hs.range.alarm o ho)] at htarget
    exact ⟨o, redis, ho, hredis, htarget⟩
  · rw [hcurrent]
    exact hcommitted.names
  · rw [hruntimes, hcurrent]
    exact hcommitted.keys
  · rw [hruntimes, hcurrent, halarm, hgeneration]
    intro pv hpv
    exact h.runtime hs hconfig hpv
  · rw [hservices, hcurrent]
    exact hconfigs
  · rw [hcurrent]
    exact hconfigs
  · rw [hcurrent, hrpcs, hassignments]
    exact h.staged.assembled
  · rw [hcurrent, hrpcs, hgeneration, hcatalog]
    exact h.staged.catalog
  · rw [hadmin, hcurrent, hruntimes, hrpcs, hassignments]
    exact h.bindings

theorem sound (hs : Sound env s) (hconfig : s.hasConfig = true)
    (hplace : s.currentConfig.rpcServices[index]? = some recovered.config)
    (h : RecoveryBuilt env w index recovered s st u t) : Sound env t := by
  obtain ⟨-, hhas, hbackends, halarm, hruntimes, -⟩ := h.frame
  have hrange := h.staged.keeps.toExtends.inRange hs.range
  refine ⟨⟨?_, ?_, ?_⟩, h.agrees, h.orderly, fun _ => h.committed hs hconfig hplace, ?_⟩
  · rw [hbackends, h.objects_eq.2.2, ← h.staged.keeps.redisBackends]
    exact hrange.backends
  · rw [hruntimes, h.objects_eq.2.2, ← h.staged.keeps.runtimes]
    exact hrange.runtimes
  · rw [halarm, h.objects_eq.2.2, ← h.staged.keeps.alarmPublisher]
    exact hrange.alarm
  · rw [hhas, hconfig]
    intro hno
    cases hno

/-- A recovery leaves the policy alone. -/
theorem policy (h : RecoveryBuilt env w index recovered s st u t) :
    t.access.config = s.access.config ∧ t.access.configuredAsgs = s.access.configuredAsgs ∧
      (PolicyActive env.lib s.access → PolicyActive env.lib t.access) := by
  have hrest := h.staged.keeps.access.rest
  rw [h.controller]
  refine ⟨(congrArg Controller.config hrest :), (congrArg Controller.configuredAsgs hrest :), ?_⟩
  intro hactive
  have hstaged := hactive.stages h.staged.keeps.controller
  exact ⟨hstaged.library, hstaged.groups, hstaged.derived, hstaged.read⟩

end RecoveryBuilt

end Recovery

end RedisPvxsIoc.Application
