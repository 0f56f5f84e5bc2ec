import RedisPvxsIoc.Application.Generation

/-!
# Staging Leaves the Running Generation Alone

Everything before the publication only allocates: adapters, publishers, runtimes, access
members, registrations and snapshots are made beside the ones that exist.  `Extends` says so,
and every staging function stays within it whether it returns or throws, with both registries
left in order.  The second half of the file says what a staging function that returns has built.

## Main results

- `within_stageGeneration`, `within_stageRecovery`
- `returns_buildRedisBackends`, `returns_stageAlarm`, `returns_stageRuntimes`,
  `returns_stageServices`
-/

namespace RedisPvxsIoc.Application

open Foundations Config PVRegistry Access Discovery

/-! ## Extension -/

/-- No object that existed has changed, and nothing else has but the status of the reload. -/
structure State.Extends (s s' : State) : Prop where
  nextObject : s.nextObject ≤ s'.nextObject
  adapters : ∀ o, o < s.nextObject → s'.adapters o = s.adapters o
  publishers : ∀ o, o < s.nextObject → s'.publishers o = s.publishers o
  runtimeObjects : ∀ o, o < s.nextObject → s'.runtimeObjects o = s.runtimeObjects o
  registry : PVRegistry.Extends s.registry s'.registry
  access : s.access.Extends s'.access
  rest : { s' with
    adapters := s.adapters, publishers := s.publishers, runtimeObjects := s.runtimeObjects
    nextObject := s.nextObject, registry := s.registry, access := s.access
    reload := s.reload } = s

instance : IsPreorder State State.Extends where
  refl s := ⟨le_refl _, fun _ _ => rfl, fun _ _ => rfl, fun _ _ => rfl, refl s.registry,
    refl s.access, rfl⟩
  trans s _ _ h h' :=
    { nextObject := h.nextObject.trans h'.nextObject
      adapters := fun o ho =>
        (h'.adapters o (lt_of_lt_of_le ho h.nextObject)).trans (h.adapters o ho)
      publishers := fun o ho =>
        (h'.publishers o (lt_of_lt_of_le ho h.nextObject)).trans (h.publishers o ho)
      runtimeObjects := fun o ho =>
        (h'.runtimeObjects o (lt_of_lt_of_le ho h.nextObject)).trans (h.runtimeObjects o ho)
      registry := IsTrans.trans _ _ _ h.registry h'.registry
      access := IsTrans.trans _ _ _ h.access h'.access
      rest := (congrArg (fun s' : State => { s' with
        adapters := s.adapters, publishers := s.publishers, runtimeObjects := s.runtimeObjects
        nextObject := s.nextObject, registry := s.registry, access := s.access
        reload := s.reload }) h'.rest).trans h.rest }

section Fields

variable {s s' : State} (h : s.Extends s')

include h

theorem State.Extends.currentConfig : s'.currentConfig = s.currentConfig :=
  (congrArg State.currentConfig h.rest :)

theorem State.Extends.hasConfig : s'.hasConfig = s.hasConfig :=
  (congrArg State.hasConfig h.rest :)

theorem State.Extends.generation : s'.generation = s.generation :=
  (congrArg State.generation h.rest :)

theorem State.Extends.redisBackends : s'.redisBackends = s.redisBackends :=
  (congrArg State.redisBackends h.rest :)

theorem State.Extends.alarmPublisher : s'.alarmPublisher = s.alarmPublisher :=
  (congrArg State.alarmPublisher h.rest :)

theorem State.Extends.runtimes : s'.runtimes = s.runtimes := (congrArg State.runtimes h.rest :)

theorem State.Extends.rpcPVs : s'.rpcPVs = s.rpcPVs := (congrArg State.rpcPVs h.rest :)

theorem State.Extends.rpcAssignments : s'.rpcAssignments = s.rpcAssignments :=
  (congrArg State.rpcAssignments h.rest :)

theorem State.Extends.rpcServices : s'.rpcServices = s.rpcServices :=
  (congrArg State.rpcServices h.rest :)

theorem State.Extends.catalog : s'.catalog = s.catalog := (congrArg State.catalog h.rest :)

theorem State.Extends.secured : s'.secured = s.secured := (congrArg State.secured h.rest :)

theorem State.Extends.admin : s'.admin = s.admin := (congrArg State.admin h.rest :)

theorem State.Extends.rpcDiscovery : s'.rpcDiscovery = s.rpcDiscovery :=
  (congrArg State.rpcDiscovery h.rest :)

theorem State.Extends.launched : s'.launched = s.launched := (congrArg State.launched h.rest :)

theorem State.Extends.started : s'.started = s.started := (congrArg State.started h.rest :)

end Fields

/-- What staging may do: extend the state, and leave both registries in order. -/
structure State.Stages (s s' : State) : Prop extends s.Extends s' where
  controller : s.access.Stages s'.access
  orderly : Orderly s.registry → Orderly s'.registry

instance : IsPreorder State State.Stages where
  refl s := ⟨refl s, refl s.access, id⟩
  trans _ _ _ h h' := ⟨IsTrans.trans _ _ _ h.toExtends h'.toExtends,
    IsTrans.trans _ _ _ h.controller h'.controller, h'.orderly ∘ h.orderly⟩

variable {s : State}

theorem State.Extends.stages {s' : State} (h : s.Extends s') (haccess : s'.access = s.access)
    (hregistry : s'.registry = s.registry) : s.Stages s' := by
  refine ⟨h, ?_, ?_⟩
  · rw [haccess]
    exact refl s.access
  · rw [hregistry]
    exact id

theorem stages_reload (s : State) (status : ReloadStatus) :
    s.Stages { s with reload := status } :=
  State.Extends.stages ⟨le_refl _, fun _ _ => rfl, fun _ _ => rfl, fun _ _ => rfl, refl s.registry,
    refl s.access, rfl⟩ rfl rfl

theorem stages_registry {r : PVRegistry.Impl} (h : PVRegistry.Extends s.registry r)
    (horderly : Orderly s.registry → Orderly r) : s.Stages (State.registryPart.set r s) :=
  ⟨⟨le_refl _, fun _ _ => rfl, fun _ _ => rfl, fun _ _ => rfl, h, refl s.access, rfl⟩,
    refl s.access, horderly⟩

theorem stages_access {c : Controller} (h : s.access.Stages c) :
    s.Stages (State.accessPart.set c s) :=
  ⟨⟨le_refl _, fun _ _ => rfl, fun _ _ => rfl, fun _ _ => rfl, refl s.registry, h.toExtends, rfl⟩,
    h, id⟩

/-! ## Frames of the staging functions -/

theorem within_reloadPhase (phase : ReloadPhase) : Within State.Stages (reloadPhase phase) :=
  within_modify fun s => stages_reload s _

theorem within_raise (message : Option String) : Within State.Stages (raise message) := by
  unfold raise
  split
  · exact within_pure _
  · exact within_throw _

theorem within_noteBackend (outcome : BackendPreparation) :
    Within State.Stages (noteBackend outcome) :=
  within_modify fun s => stages_reload s _

theorem within_newAdapter (config : RedisConfig) : Within State.Stages (newAdapter config) := by
  intro s
  exact State.Extends.stages ⟨Nat.le_succ _,
    fun o ho => Function.update_of_ne (Nat.ne_of_lt ho) _ _, fun _ _ => rfl, fun _ _ => rfl,
    refl s.registry, refl s.access, rfl⟩ rfl rfl

section Backends

variable (w : World) (config previous : RedisBackendConfigs) (existing : RedisBackendRegistry)

theorem within_buildBackend (backends : RedisBackendRegistry) (entry : String × RedisConfig) :
    Within State.Stages (buildBackend w previous existing backends entry) := by
  unfold buildBackend
  split
  · exact (within_noteBackend _).bind fun _ => within_pure _
  · split
    · exact (within_noteBackend _).bind fun _ => within_throw _
    · exact (within_newAdapter _).bind fun _ => (within_noteBackend _).bind fun _ => within_pure _

theorem within_buildRedisBackends :
    Within State.Stages (buildRedisBackends w config previous existing) := by
  unfold buildRedisBackends
  refine (Within.foldlM (within_buildBackend w previous existing) _ _).bind fun _ => ?_
  exact (Within.forM within_noteBackend _).bind fun _ => within_pure _

end Backends

theorem within_stageAlarm (w : World) (config : AppConfig) :
    Within State.Stages (stageAlarm w config) := by
  unfold stageAlarm
  refine within_get.bind fun s => (within_ofExcept _).bind fun reused => ?_
  split
  · exact within_pure _
  · refine Within.bind ?_ fun _ => within_pure _
    refine (within_ofExcept _).bind fun backend => (within_raise _).bind fun _ => ?_
    intro s
    exact State.Extends.stages ⟨Nat.le_succ _, fun _ _ => rfl,
      fun o ho => Function.update_of_ne (Nat.ne_of_lt ho) _ _, fun _ _ => rfl, refl s.registry,
      refl s.access, rfl⟩ rfl rfl

theorem within_prepareReconfigure (w : World) (runtime : ObjectId) (pv : PVConfig)
    (generation : Nat) (publisher : ObjectId) :
    Within State.Stages (prepareReconfigure w runtime pv generation publisher) := by
  unfold prepareReconfigure
  refine within_get.bind fun s => ?_
  dsimp only
  split
  · exact (within_raise _).bind fun _ => within_pure _
  · exact within_throw _

section Runtimes

variable (w : World) (server : ServerConfig) (backends : RedisBackendRegistry) (alarm : ObjectId)
  (generation : Nat)

theorem within_makeRuntime (pv : PVConfig) :
    Within State.Stages (makeRuntime w server pv backends alarm generation) := by
  unfold makeRuntime
  refine (within_ofExcept _).bind fun runtime => (within_raise _).bind fun _ => ?_
  intro s
  exact State.Extends.stages ⟨Nat.le_succ _, fun _ _ => rfl, fun _ _ => rfl,
    fun o ho => Function.update_of_ne (Nat.ne_of_lt ho) _ _, refl s.registry, refl s.access, rfl⟩
    rfl rfl

theorem within_stageRuntime (acc : RuntimeStage) (pv : PVConfig) :
    Within State.Stages (stageRuntime w server backends alarm generation acc pv) := by
  unfold stageRuntime
  refine within_get.bind fun s => ?_
  dsimp only
  split
  · exact (within_prepareReconfigure w _ pv generation alarm).bind fun _ => within_pure _
  · exact (within_makeRuntime w server backends alarm generation pv).bind fun _ => within_pure _

theorem within_stageRuntimes (config : AppConfig) :
    Within State.Stages (stageRuntimes w config backends alarm generation) :=
  Within.foldlM (within_stageRuntime w config.server backends alarm generation) _ _

end Runtimes

theorem within_allocate (n : Nat) : Within State.Stages (allocate n) := by
  intro s
  exact State.Extends.stages ⟨Nat.le_add_right _ _, fun _ _ => rfl, fun _ _ => rfl,
    fun _ _ => rfl, refl s.registry, refl s.access, rfl⟩ rfl rfl

theorem within_reflectRpcService (server : ServerConfig) (svc : RpcServiceConfig)
    (reflection : Reflection) :
    Within State.Stages (reflectRpcService server svc reflection) := by
  unfold reflectRpcService
  split
  · exact within_pure _
  · exact within_pure _
  · refine (within_allocate _).bind fun base => ?_
    split
    · exact within_pure _
    · exact within_pure _

theorem within_stageService (w : World) (server : ServerConfig) (previous staged : RpcServices)
    (svc : RpcServiceConfig) : Within State.Stages (stageService w server previous staged svc) := by
  unfold stageService
  split
  · exact within_pure _
  · refine (within_reflectRpcService _ _ _).bind fun reflected => ?_
    split
    · exact within_pure _
    · exact within_throw _
    · split
      · exact within_pure _
      · exact within_throw _

theorem within_stageServices (env : Platform) (w : World) (config : AppConfig)
    (previous : RpcServices) : Within State.Stages (stageServices env w config previous) := by
  unfold stageServices
  split
  · exact Within.foldlM (within_stageService w config.server previous) _ _
  · split
    · exact within_pure _
    · exact within_throw _

theorem within_buildRpcPVs (env : Platform) (w : World) (config : AppConfig) :
    Within State.Stages (buildRpcPVs env w config) :=
  within_get.bind fun _ => (within_stageServices env w config _).bind fun _ =>
    (within_ofExcept _).bind fun _ => within_pure _

theorem within_stagePolicy (env : Platform) (w : World) (config : AppConfig) :
    Within State.Stages (stagePolicy env w config) := by
  unfold stagePolicy
  refine within_get.bind fun s => ?_
  split
  · refine Within.bind ?_ fun _ => within_pure _
    exact (stages_prepareConfiguration env.lib w.access _ _).zoom fun s c hc => stages_access hc
  · exact within_pure _

theorem within_prepareEndpoints (w : World) (bindings : PVBindings) :
    Within State.Stages (prepareEndpoints w bindings) := by
  unfold prepareEndpoints
  refine within_get.bind fun s => ?_
  split
  · exact (stages_prepareBindings w.access bindings).zoom fun s c hc => stages_access hc
  · refine Within.zoom ((within_prepareCall bindings ∅).and (orderly_prepareCall bindings ∅)) ?_
    intro s r hr
    exact stages_registry hr.1 hr.2

/-- **Staging a generation** allocates and changes nothing else. -/
theorem within_stageGeneration (env : Platform) (w : World) (config : AppConfig)
    (generation : Nat) : Within State.Stages (stageGeneration env w config generation) := by
  unfold stageGeneration
  refine (within_reloadPhase _).bind fun _ => within_get.bind fun s => ?_
  refine (within_buildRedisBackends w _ _ _).bind fun backends => ?_
  refine (within_reloadPhase _).bind fun _ => (within_stageAlarm w config).bind fun alarm => ?_
  refine (within_stageRuntimes w backends alarm.1 generation config).bind fun stage => ?_
  refine (within_reloadPhase _).bind fun _ => (within_buildRpcPVs env w config).bind fun rpc => ?_
  refine (within_ofExcept _).bind fun catalog => (within_ofExcept _).bind fun bindings => ?_
  refine (within_reloadPhase _).bind fun _ => (within_stagePolicy env w config).bind fun policy => ?_
  exact (within_prepareEndpoints w bindings).bind fun _ => within_pure _

theorem within_recoverPV (w : World) (config : AppConfig) (runtimes : RuntimeMap) (alarm : ObjectId)
    (generation : Nat) (acc : RecoveryStage) (pv : PVConfig) :
    Within State.Stages (recoverPV w config runtimes alarm generation acc pv) :=
  (within_ofExcept _).bind fun runtime =>
    (within_prepareReconfigure w runtime pv generation alarm).bind fun _ => within_pure _

/-- **Staging a recovery** allocates and changes nothing else. -/
theorem within_stageRecovery (env : Platform) (w : World) (index : Nat)
    (recovered : RpcServiceState) : Within State.Stages (stageRecovery env w index recovered) := by
  unfold stageRecovery
  refine within_get.bind fun s => ?_
  refine (within_ofExcept _).bind fun assembled => (within_ofExcept _).bind fun catalog => ?_
  refine (within_ofExcept _).bind fun bindings => ?_
  refine (Within.foldlM (within_recoverPV w _ _ _ _) _ _).bind fun stage => ?_
  refine (within_ofExcept _).bind fun bindings => ?_
  exact (within_prepareEndpoints w bindings).bind fun _ =>
    (within_reloadPhase _).bind fun _ => within_pure _

/-! ## What the backends are -/

variable {t : State}

theorem returns_raise {message : Option String} {u : Unit} (h : Returns (raise message) s u t) :
    t = s := by
  unfold raise at h
  split at h
  · exact (returns_pure.mp h).2
  · exact absurd h not_returns_throw

variable {o : ObjectId}

theorem returns_newAdapter {config : RedisConfig} (h : Returns (newAdapter config) s o t) :
    o = s.nextObject ∧ t.nextObject = o + 1 ∧
      t.adapters o = { config := config } := by
  cases h
  exact ⟨rfl, rfl, Function.update_self _ _ _⟩

/-- The adapters of the next generation after the entries in `done`: one that is retained, or a
    new one. -/
structure BackendsBuilt (previous : RedisBackendConfigs) (existing : RedisBackendRegistry)
    (s : State) (done : List (String × RedisConfig)) (backends : RedisBackendRegistry)
    (t : State) : Prop where
  keeps : s.Extends t
  keys : ∀ name, name ∈ backends.keys ↔ name ∈ done.map Prod.fst
  entry : ∀ name config, (name, config) ∈ done → ∃ o, backends.find? name = some o ∧
    (retainedBackend previous existing name config = some o ∨
      (retainedBackend previous existing name config = none ∧ s.nextObject ≤ o ∧
        o < t.nextObject ∧ t.adapters o = { config := config }))

variable {u : State}

section Backends

variable {w : World} {config previous : RedisBackendConfigs} {existing : RedisBackendRegistry}
  {s t t' : State} {done : List (String × RedisConfig)} {backends : RedisBackendRegistry}
  {name : String} {redis : RedisConfig}

/-- What was built is still there after more has been staged. -/
theorem BackendsBuilt.later (h : BackendsBuilt previous existing s done backends t)
    (hkeeps : t.Extends t') : BackendsBuilt previous existing s done backends t' := by
  refine ⟨IsTrans.trans _ _ _ h.keeps hkeeps, h.keys, ?_⟩
  intro name redis hmem
  obtain ⟨o, hfind, hcase⟩ := h.entry name redis hmem
  refine ⟨o, hfind, ?_⟩
  rcases hcase with hkept | ⟨hnone, hle, hlt, hadapter⟩
  · exact .inl hkept
  · exact .inr ⟨hnone, hle, lt_of_lt_of_le hlt hkeeps.nextObject,
      (hkeeps.adapters o hlt).trans hadapter⟩

theorem BackendsBuilt.earlier (h : BackendsBuilt previous existing s done backends t)
    (hkeeps : u.Extends s) : BackendsBuilt previous existing u done backends t := by
  refine ⟨IsTrans.trans _ _ _ hkeeps h.keeps, h.keys, ?_⟩
  intro name redis hmem
  obtain ⟨o, hfind, hcase⟩ := h.entry name redis hmem
  refine ⟨o, hfind, ?_⟩
  rcases hcase with hkept | ⟨hnone, hle, hlt, hadapter⟩
  · exact .inl hkept
  · exact .inr ⟨hnone, hkeeps.nextObject.trans hle, hlt, hadapter⟩

theorem BackendsBuilt.emplace (h : BackendsBuilt previous existing s done backends t)
    (hnew : name ∉ done.map Prod.fst) (hkeeps : t.Extends t')
    (ho : retainedBackend previous existing name redis = some o ∨
      (retainedBackend previous existing name redis = none ∧ s.nextObject ≤ o ∧
        o < t'.nextObject ∧ t'.adapters o = { config := redis })) :
    BackendsBuilt previous existing s (done ++ [(name, redis)]) (backends.emplace name o) t' := by
  have hfind := backends.find?_emplace_new (mt (h.keys name).mp hnew) o
  refine ⟨IsTrans.trans _ _ _ h.keeps hkeeps, ?_, ?_⟩
  · intro x
    rw [FinMap.mem_keys_emplace, h.keys, List.map_append, List.mem_append, or_comm]
    simp
  · intro x c hmem
    rw [hfind]
    rcases List.mem_append.mp hmem with hold | hlast
    · have hx : x ≠ name := by
        rintro rfl
        exact hnew (List.mem_map_of_mem (f := Prod.fst) hold)
      rw [if_neg hx]
      exact (h.later hkeeps).entry x c hold
    · obtain ⟨rfl, rfl⟩ := Prod.mk.inj (List.mem_singleton.mp hlast)
      rw [if_pos rfl]
      exact ⟨o, rfl, ho⟩

theorem BackendsBuilt.turn (h : BackendsBuilt previous existing s done backends t)
    (hnew : name ∉ done.map Prod.fst) {backends' : RedisBackendRegistry}
    (hturn : Returns (buildBackend w previous existing backends (name, redis)) t backends' t') :
    BackendsBuilt previous existing s (done ++ [(name, redis)]) backends' t' := by
  have hkeeps :=
    ((within_buildBackend w previous existing backends (name, redis)).returns hturn).toExtends
  unfold buildBackend at hturn
  split at hturn
  · rename_i o hretained
    obtain ⟨⟨⟩, t₁, -, hpure⟩ := returns_bind.mp hturn
    obtain ⟨rfl, rfl⟩ := returns_pure.mp hpure
    exact h.emplace hnew hkeeps (.inl hretained)
  · rename_i hretained
    split at hturn
    · obtain ⟨⟨⟩, t₁, -, hthrow⟩ := returns_bind.mp hturn
      exact absurd hthrow not_returns_throw
    · obtain ⟨o, t₁, hadapter, hrest⟩ := returns_bind.mp hturn
      obtain ⟨⟨⟩, t₂, hnote, hpure⟩ := returns_bind.mp hrest
      obtain ⟨rfl, rfl⟩ := returns_pure.mp hpure
      obtain ⟨rfl, hnext, hobject⟩ := returns_newAdapter hadapter
      have hnote' := ((within_noteBackend _).returns hnote).toExtends
      have hlt : t.nextObject < t₁.nextObject := hnext ▸ Nat.lt_succ_self _
      refine h.emplace hnew hkeeps (.inr ⟨hretained, h.keeps.nextObject, ?_, ?_⟩)
      · exact lt_of_lt_of_le hlt hnote'.nextObject
      · exact (hnote'.adapters _ hlt).trans hobject

/-- **The backends of the next generation.** -/
theorem returns_buildRedisBackends
    (h : Returns (buildRedisBackends w config previous existing) s backends t) :
    BackendsBuilt previous existing s config.entries backends t := by
  unfold buildRedisBackends at h
  obtain ⟨built, t₁, hloop, h⟩ := returns_bind.mp h
  obtain ⟨⟨⟩, t₂, hnotes, hpure⟩ := returns_bind.mp h
  obtain ⟨rfl, rfl⟩ := returns_pure.mp hpure
  have hbuilt : BackendsBuilt previous existing s config.entries backends t₁ := by
    refine foldlM_returns (P := BackendsBuilt previous existing s) ?_
      ⟨refl s, by simp [FinMap.keys, FinMap.empty], by simp⟩ hloop
    rintro done ⟨name, redis⟩ rest acc u acc' u' hentries hacc hturn
    refine hacc.turn ?_ hturn
    have hnodup := config.keys_nodup
    rw [FinMap.keys, hentries, List.map_append] at hnodup
    exact fun hmem => (List.disjoint_of_nodup_append hnodup) hmem (by simp)
  exact hbuilt.later ((Within.forM within_noteBackend _).returns hnotes).toExtends

end Backends

/-! ## What the alarm publisher is -/

/-- The publisher of the next generation. -/
inductive AlarmStaged (config : AppConfig) (s : State) : ObjectId → Bool → State → Prop where
  | reused {o : ObjectId} {t : State} {backend : RedisConfig} (hconfig : s.hasConfig = true)
      (hpublisher : s.alarmPublisher = some o) (halarms : s.currentConfig.alarms = config.alarms)
      (hprior : s.currentConfig.redisBackends.find? config.alarms.backend = some backend)
      (hbackend : config.redisBackends.find? config.alarms.backend = some backend) :
      AlarmStaged config s o true t
  | built {o : ObjectId} {t : State} {backend : RedisConfig} (hnew : s.nextObject ≤ o)
      (hlt : o < t.nextObject)
      (hbackend : config.redisBackends.find? config.alarms.backend = some backend)
      (htarget : (t.publishers o).target = alarmTarget config.alarms backend) :
      AlarmStaged config s o false t

variable {w : World} {config : AppConfig}

theorem returns_buildAlarmPublisher (h : Returns (buildAlarmPublisher w config) s o t) :
    AlarmStaged config s o false t := by
  unfold buildAlarmPublisher at h
  obtain ⟨backend, t₁, hat, hrest⟩ := returns_bind.mp h
  obtain ⟨hbackend, rfl⟩ := returns_ofExcept.mp hat
  obtain ⟨⟨⟩, t₂, hraise, hset⟩ := returns_bind.mp hrest
  obtain rfl := returns_raise hraise
  cases hset
  refine .built (le_refl _) (Nat.lt_succ_self _) (atKey_ok.mp hbackend) ?_
  dsimp only
  rw [Function.update_self]

variable {reuse : Bool}

theorem returns_stageAlarm (h : Returns (stageAlarm w config) s (o, reuse) t) :
    AlarmStaged config s o reuse t := by
  unfold stageAlarm at h
  rw [returns_get_bind] at h
  obtain ⟨reused, t₁, hexcept, hrest⟩ := returns_bind.mp h
  obtain ⟨hreused, rfl⟩ := returns_ofExcept.mp hexcept
  split at hrest
  · rename_i publisher
    obtain ⟨hout, rfl⟩ := returns_pure.mp hrest
    cases hout
    unfold reusedAlarm at hreused
    split at hreused
    · rename_i hcondition
      rw [Bool.and_eq_true] at hcondition
      split at hreused
      · cases hreused
      · rename_i prior hprior
        obtain ⟨backend, hbackend, hpure⟩ := bind_eq_ok.mp hreused
        have hpublisher := Except.ok.inj hpure
        split at hpublisher
        · rename_i hsame
          obtain rfl := (sameRedisConfig_iff _ _).mp hsame
          exact .reused hcondition.1 hpublisher ((sameAlarmStreamConfig_iff _ _).mp hcondition.2)
            hprior (atKey_ok.mp hbackend)
        · cases hpublisher
    · cases hreused
  · obtain ⟨publisher, t₂, hbuild, hpure⟩ := returns_bind.mp hrest
    obtain ⟨hout, rfl⟩ := returns_pure.mp hpure
    cases hout
    exact returns_buildAlarmPublisher hbuild

theorem AlarmStaged.later {t' : State} (h : AlarmStaged config s o reuse t)
    (hkeeps : t.Extends t') :
    AlarmStaged config s o reuse t' := by
  cases h with
  | reused hconfig hpublisher halarms hprior hbackend =>
    exact .reused hconfig hpublisher halarms hprior hbackend
  | built hnew hlt hbackend htarget =>
    refine .built hnew (lt_of_lt_of_le hlt hkeeps.nextObject) hbackend ?_
    rw [hkeeps.publishers o hlt]
    exact htarget

theorem AlarmStaged.earlier (h : AlarmStaged config s o reuse t) (hkeeps : u.Extends s) :
    AlarmStaged config u o reuse t := by
  cases h with
  | reused hconfig hpublisher halarms hprior hbackend =>
    rw [hkeeps.hasConfig] at hconfig
    rw [hkeeps.alarmPublisher] at hpublisher
    rw [hkeeps.currentConfig] at halarms hprior
    exact .reused hconfig hpublisher halarms hprior hbackend
  | built hnew hlt hbackend htarget =>
    exact .built (hkeeps.nextObject.trans hnew) hlt hbackend htarget

/-! ## What the runtimes are -/

/-- Every identifier that the application holds has been handed out. -/
structure State.InRange (s : State) : Prop where
  backends : ∀ name o, s.redisBackends.find? name = some o → o < s.nextObject
  runtimes : ∀ name o, s.runtimes.find? name = some o → o < s.nextObject
  alarm : ∀ o, s.alarmPublisher = some o → o < s.nextObject

/-- Which runtime is kept does not depend on what has been staged so far. -/
theorem State.Extends.keptRuntime (h : s.Extends t) (hs : s.InRange)
    (backends : RedisBackendRegistry) (name : String) (pv : PVConfig) :
    t.keptRuntime backends name pv = s.keptRuntime backends name pv := by
  unfold State.keptRuntime
  rw [h.runtimes, h.redisBackends]
  cases hfind : s.runtimes.find? name with
  | none => rfl
  | some o => simp only [h.runtimeObjects o (hs.runtimes name o hfind)]

variable {pv : PVConfig}

theorem keptRuntime_current {backends : RedisBackendRegistry} {name : String}
    (h : s.keptRuntime backends name pv = some o) :
    s.runtimes.find? name = some o ∧ sameReaderTopology (s.runtimeObjects o).config pv = true ∧
      sameBackendBindings pv s.redisBackends backends = true := by
  unfold State.keptRuntime at h
  split at h
  · cases h
  · rename_i existing hfind
    split at h
    · rename_i hsame
      cases h
      rw [Bool.and_eq_true] at hsame
      exact ⟨hfind, hsame⟩
    · cases h

theorem returns_prepareReconfigure {runtime publisher : ObjectId} {generation : Nat}
    {update : RuntimeUpdate}
    (h : Returns (prepareReconfigure w runtime pv generation publisher) s update t) :
    t = s ∧ update = ⟨runtime, pv, generation, publisher⟩ ∧
      (s.runtimeObjects runtime).alive = true := by
  unfold prepareReconfigure at h
  rw [returns_get_bind] at h
  dsimp only at h
  split at h
  · rename_i hsame
    rw [Bool.and_eq_true] at hsame
    obtain ⟨⟨⟩, t₁, hraise, hpure⟩ := returns_bind.mp h
    obtain rfl := returns_raise hraise
    obtain ⟨rfl, rfl⟩ := returns_pure.mp hpure
    exact ⟨rfl, rfl, hsame.1⟩
  · exact absurd h not_returns_throw

variable {server : ServerConfig}

theorem returns_makeRuntime {backends : RedisBackendRegistry} {alarm : ObjectId} {generation : Nat}
    (h : Returns (makeRuntime w server pv backends alarm generation) s o t) :
    o = s.nextObject ∧ o < t.nextObject ∧
      runtimeFor server pv backends alarm generation = .ok (t.runtimeObjects o) := by
  unfold makeRuntime at h
  obtain ⟨runtime, t₁, hexcept, hrest⟩ := returns_bind.mp h
  obtain ⟨hruntime, rfl⟩ := returns_ofExcept.mp hexcept
  obtain ⟨⟨⟩, t₂, hraise, hset⟩ := returns_bind.mp hrest
  obtain rfl := returns_raise hraise
  cases hset
  refine ⟨rfl, Nat.lt_succ_self _, ?_⟩
  dsimp only
  rw [Function.update_self, hruntime]

/-- The update of a PV whose runtime is kept. -/
def State.updateFor (s : State) (server : ServerConfig) (backends : RedisBackendRegistry)
    (alarm : ObjectId) (generation : Nat) (pv : PVConfig) : Option RuntimeUpdate :=
  (s.keptRuntime backends (fullPVName server pv) pv).map fun o => ⟨o, pv, generation, alarm⟩

/-- The runtimes of the next generation after the PVs in `done`: one that is kept, or a new
    one. -/
structure RuntimesStaged (server : ServerConfig) (backends : RedisBackendRegistry)
    (alarm : ObjectId) (generation : Nat) (s : State) (done : List PVConfig)
    (acc : RuntimeStage) (t : State) : Prop where
  keeps : s.Extends t
  keys : ∀ name, name ∈ acc.runtimes.keys ↔ name ∈ done.map (fullPVName server)
  entry : ∀ pv ∈ done, ∃ o, acc.runtimes.find? (fullPVName server pv) = some o ∧
    ((s.keptRuntime backends (fullPVName server pv) pv = some o ∧
        (s.runtimeObjects o).alive = true) ∨
      (s.keptRuntime backends (fullPVName server pv) pv = none ∧ o ∈ acc.added ∧
        s.nextObject ≤ o ∧ o < t.nextObject ∧
        runtimeFor server pv backends alarm generation = .ok (t.runtimeObjects o)))
  updates : acc.updates = done.filterMap (s.updateFor server backends alarm generation)
  added : ∀ o ∈ acc.added, s.nextObject ≤ o ∧ ∃ pv ∈ done,
    acc.runtimes.find? (fullPVName server pv) = some o ∧
      s.keptRuntime backends (fullPVName server pv) pv = none

section Runtimes

variable {w : World} {server : ServerConfig} {backends : RedisBackendRegistry} {alarm : ObjectId}
  {generation : Nat} {s t t' : State} {done : List PVConfig} {acc acc' : RuntimeStage}
  {pv : PVConfig}

/-- What was staged before is still there after one more name. -/
theorem RuntimesStaged.entry_emplace (h : RuntimesStaged server backends alarm generation s done acc t)
    (hnew : fullPVName server pv ∉ done.map (fullPVName server)) (hkeeps : t.Extends t')
    (o : ObjectId) {added : List ObjectId} (hadded : ∀ o ∈ acc.added, o ∈ added)
    {pv' : PVConfig} (hpv' : pv' ∈ done) :
    ∃ o', (acc.runtimes.emplace (fullPVName server pv) o).find? (fullPVName server pv') = some o' ∧
      ((s.keptRuntime backends (fullPVName server pv') pv' = some o' ∧
          (s.runtimeObjects o').alive = true) ∨
        (s.keptRuntime backends (fullPVName server pv') pv' = none ∧ o' ∈ added ∧
          s.nextObject ≤ o' ∧ o' < t'.nextObject ∧
          runtimeFor server pv' backends alarm generation = .ok (t'.runtimeObjects o'))) := by
  have hne : fullPVName server pv' ≠ fullPVName server pv := fun heq =>
    hnew (heq ▸ List.mem_map_of_mem hpv')
  obtain ⟨o', hfind, hcase⟩ := h.entry pv' hpv'
  rw [acc.runtimes.find?_emplace_new (mt (h.keys _).mp hnew), if_neg hne]
  refine ⟨o', hfind, ?_⟩
  rcases hcase with hkept | ⟨hnone, hmem, hle, hlt, hobject⟩
  · exact .inl hkept
  · refine .inr ⟨hnone, hadded o' hmem, hle, lt_of_lt_of_le hlt hkeeps.nextObject, ?_⟩
    rw [hkeeps.runtimeObjects o' hlt]
    exact hobject

/-- What was staged is still there after more has been staged. -/
theorem RuntimesStaged.later (h : RuntimesStaged server backends alarm generation s done acc t)
    (hkeeps : t.Extends t') : RuntimesStaged server backends alarm generation s done acc t' := by
  refine ⟨IsTrans.trans _ _ _ h.keeps hkeeps, h.keys, ?_, h.updates, h.added⟩
  intro pv hpv
  obtain ⟨o, hfind, hcase⟩ := h.entry pv hpv
  refine ⟨o, hfind, ?_⟩
  rcases hcase with hkept | ⟨hnone, hmem, hle, hlt, hobject⟩
  · exact .inl hkept
  · refine .inr ⟨hnone, hmem, hle, lt_of_lt_of_le hlt hkeeps.nextObject, ?_⟩
    rw [hkeeps.runtimeObjects o hlt]
    exact hobject

/-- Which runtimes are kept was decided before anything was staged. -/
theorem RuntimesStaged.earlier (hu : u.InRange) (hkeeps : u.Extends s)
    (h : RuntimesStaged server backends alarm generation s done acc t) :
    RuntimesStaged server backends alarm generation u done acc t := by
  have hkept := hkeeps.keptRuntime hu backends
  refine ⟨IsTrans.trans _ _ _ hkeeps h.keeps, h.keys, ?_, ?_, ?_⟩
  · intro pv hpv
    obtain ⟨o, hfind, hcase⟩ := h.entry pv hpv
    refine ⟨o, hfind, ?_⟩
    rw [hkept] at hcase
    rcases hcase with ⟨hsome, halive⟩ | ⟨hnone, hmem, hle, hlt, hobject⟩
    · rw [hkeeps.runtimeObjects o (hu.runtimes _ o (keptRuntime_current hsome).1)] at halive
      exact .inl ⟨hsome, halive⟩
    · exact .inr ⟨hnone, hmem, hkeeps.nextObject.trans hle, hlt, hobject⟩
  · rw [h.updates]
    refine List.filterMap_congr fun pv _ => ?_
    rw [State.updateFor, State.updateFor, hkept]
  · intro o ho
    obtain ⟨hle, pv, hpv, hfind, hnone⟩ := h.added o ho
    rw [hkept] at hnone
    exact ⟨hkeeps.nextObject.trans hle, pv, hpv, hfind, hnone⟩

theorem RuntimesStaged.turn (hs : s.InRange)
    (h : RuntimesStaged server backends alarm generation s done acc t)
    (hnew : fullPVName server pv ∉ done.map (fullPVName server))
    (hturn : Returns (stageRuntime w server backends alarm generation acc pv) t acc' t') :
    RuntimesStaged server backends alarm generation s (done ++ [pv]) acc' t' := by
  have hkeeps :=
    ((within_stageRuntime w server backends alarm generation acc pv).returns hturn).toExtends
  have hfind := acc.runtimes.find?_emplace_new (mt (h.keys (fullPVName server pv)).mp hnew)
  have hkeys : ∀ o name, name ∈ (acc.runtimes.emplace (fullPVName server pv) o).keys ↔
      name ∈ (done ++ [pv]).map (fullPVName server) := by
    intro o name
    rw [FinMap.mem_keys_emplace, h.keys, List.map_append, List.mem_append, or_comm]
    simp
  -- a staged runtime keeps its name
  have hadded : ∀ o, ∀ o' ∈ acc.added, s.nextObject ≤ o' ∧ ∃ pv' ∈ done ++ [pv],
      (acc.runtimes.emplace (fullPVName server pv) o).find? (fullPVName server pv') = some o' ∧
        s.keptRuntime backends (fullPVName server pv') pv' = none := by
    intro o o' ho'
    obtain ⟨hle, pv', hpv', hfind', hnone⟩ := h.added o' ho'
    have hne : fullPVName server pv' ≠ fullPVName server pv := fun heq =>
      hnew (heq ▸ List.mem_map_of_mem hpv')
    refine ⟨hle, pv', List.mem_append_left _ hpv', ?_, hnone⟩
    rw [hfind, if_neg hne]
    exact hfind'
  unfold stageRuntime at hturn
  rw [returns_get_bind] at hturn
  dsimp only at hturn
  rw [h.keeps.keptRuntime hs] at hturn
  split at hturn
  · rename_i o hkept
    obtain ⟨update, t₁, hprepare, hpure⟩ := returns_bind.mp hturn
    obtain ⟨rfl, rfl⟩ := returns_pure.mp hpure
    obtain ⟨rfl, rfl, halive⟩ := returns_prepareReconfigure hprepare
    have hlt := hs.runtimes _ o (keptRuntime_current hkept).1
    rw [h.keeps.runtimeObjects o hlt] at halive
    refine ⟨IsTrans.trans _ _ _ h.keeps hkeeps, hkeys o, ?_, ?_, hadded o⟩
    · intro pv' hpv'
      rcases List.mem_append.mp hpv' with hold | hlast
      · exact h.entry_emplace hnew hkeeps o (fun _ ho => ho) hold
      · rw [List.mem_singleton.mp hlast, hfind, if_pos rfl]
        exact ⟨o, rfl, .inl ⟨hkept, halive⟩⟩
    · rw [List.filterMap_append, ← h.updates]
      simp [State.updateFor, hkept]
  · rename_i hkept
    obtain ⟨o, t₁, hmake, hpure⟩ := returns_bind.mp hturn
    obtain ⟨rfl, rfl⟩ := returns_pure.mp hpure
    obtain ⟨rfl, hlt, hobject⟩ := returns_makeRuntime hmake
    refine ⟨IsTrans.trans _ _ _ h.keeps hkeeps, hkeys _, ?_, ?_, ?_⟩
    · intro pv' hpv'
      rcases List.mem_append.mp hpv' with hold | hlast
      · exact h.entry_emplace hnew hkeeps _ (fun _ ho => List.mem_append_left _ ho) hold
      · rw [List.mem_singleton.mp hlast, hfind, if_pos rfl]
        exact ⟨_, rfl, .inr ⟨hkept, by simp, h.keeps.nextObject, hlt, hobject⟩⟩
    · rw [List.filterMap_append, ← h.updates]
      simp [State.updateFor, hkept]
    · intro o ho
      rcases List.mem_append.mp ho with hold | hlast
      · exact hadded _ o hold
      · obtain rfl := List.mem_singleton.mp hlast
        refine ⟨h.keeps.nextObject, pv, by simp, ?_, hkept⟩
        rw [hfind, if_pos rfl]

/-- **The runtimes of the next generation.** -/
theorem returns_stageRuntimes (hs : s.InRange)
    (hnames : (config.pvs.map (fullPVName config.server)).Nodup)
    (h : Returns (stageRuntimes w config backends alarm generation) s acc t) :
    RuntimesStaged config.server backends alarm generation s config.pvs acc t := by
  refine foldlM_returns (P := RuntimesStaged config.server backends alarm generation s) ?_
    ⟨refl s, by simp [FinMap.keys], by simp, rfl, by simp⟩ h
  intro done pv rest acc u acc' u' hpvs hacc hturn
  refine hacc.turn hs ?_ hturn
  rw [hpvs, List.map_append] at hnames
  exact fun hmem => (List.disjoint_of_nodup_append hnames) hmem (by simp)

end Runtimes

/-! ## What the services are -/

variable {svc : RpcServiceConfig}

theorem reflectMethods_config {base : ObjectId} {found : List BridgeMethod}
    {service : RpcServiceState} (h : reflectMethods server svc base found = .ok service) :
    service.config = svc ∧ service.state = .ready := by
  unfold reflectMethods at h
  split at h
  · cases h
  · refine foldlM_ok (P := fun _ acc => acc.config = svc ∧ acc.state = .ready) ?_ ⟨rfl, rfl⟩ h
    intro done item rest acc acc' _ hacc hstep
    unfold addMethod at hstep
    dsimp only at hstep
    split at hstep
    · cases hstep
    · cases hstep
      exact hacc

theorem returns_reflectRpcService {reflection : Reflection} {service : RpcServiceState}
    (h : Returns (reflectRpcService server svc reflection) s (.ok service) t) :
    service.config = svc ∧ service.state = .ready := by
  unfold reflectRpcService at h
  split at h
  · cases (returns_pure.mp h).1
  · cases (returns_pure.mp h).1
  · obtain ⟨base, t₁, -, hrest⟩ := returns_bind.mp h
    split at hrest
    · rename_i result hmethods
      cases (returns_pure.mp hrest).1
      exact reflectMethods_config hmethods
    · cases (returns_pure.mp hrest).1

theorem returns_stageService {previous staged staged' : RpcServices}
    (h : Returns (stageService w server previous staged svc) s staged' t) :
    staged'.map RpcServiceState.config = staged.map RpcServiceState.config ++ [svc] := by
  unfold stageService at h
  split at h
  · obtain ⟨rfl, -⟩ := returns_pure.mp h
    simp
  · obtain ⟨reflected, t₁, hreflect, hrest⟩ := returns_bind.mp h
    split at hrest
    · obtain ⟨rfl, -⟩ := returns_pure.mp hrest
      simp [(returns_reflectRpcService hreflect).1]
    · exact absurd hrest not_returns_throw
    · split at hrest
      · obtain ⟨rfl, -⟩ := returns_pure.mp hrest
        simp
      · exact absurd hrest not_returns_throw

/-- **The services of the next generation** are those of its configuration, in its order. -/
theorem returns_stageServices {env : Platform} {previous services : RpcServices}
    (h : Returns (stageServices env w config previous) s services t) :
    services.map RpcServiceState.config = config.rpcServices := by
  unfold stageServices at h
  split at h
  · refine foldlM_returns (P := fun done acc _ => acc.map RpcServiceState.config = done) ?_ rfl h
    intro done svc rest acc u acc' u' _ hacc hstep
    rw [returns_stageService hstep, hacc]
  · split at h
    · rename_i hempty
      obtain ⟨rfl, -⟩ := returns_pure.mp h
      exact (List.isEmpty_iff.mp hempty).symm
    · exact absurd h not_returns_throw

end RedisPvxsIoc.Application
