import RedisPvxsIoc.Application.Endpoints
import RedisPvxsIoc.Access.ActivePolicy

/-!
# Committed Generations

A generation is staged, its endpoints are published with the commit of its runtimes as the
callback, and what was staged is then installed.  `Committed` says what the parts of a committed
generation have to do with each other and with its configuration; `Sound` is what an operation
can rely on when it begins.

## Main results

- `returns_stageGeneration`: what a staged generation consists of
- `returns_publishEndpoints`: what is prepared and published is served
- `returns_buildGeneration`, `GenerationBuilt.committed`: an accepted generation is committed
-/

namespace RedisPvxsIoc.Application

open Foundations Config PVRegistry Access Discovery

variable {s t : State}

theorem State.Extends.inRange (h : s.Extends t) (hs : s.InRange) : t.InRange := by
  refine ⟨?_, ?_, ?_⟩
  · rw [h.redisBackends]
    exact fun name o ho => lt_of_lt_of_le (hs.backends name o ho) h.nextObject
  · rw [h.runtimes]
    exact fun name o ho => lt_of_lt_of_le (hs.runtimes name o ho) h.nextObject
  · rw [h.alarmPublisher]
    exact fun o ho => lt_of_lt_of_le (hs.alarm o ho) h.nextObject

/-! ## What a staged generation is -/

/-- The policy of a generation: one is prepared only when the access controller has a
    configuration already. -/
inductive PolicyStaged (env : Platform) (w : World) (config : AppConfig) (s : State) :
    Option PreparedConfiguration → State → Prop where
  | kept {t : State} (hfirst : (s.secured && s.hasConfig) = false) :
    PolicyStaged env w config s none t
  | prepared {t : State} {policy : PreparedConfiguration}
      (hsecured : (s.secured && s.hasConfig) = true)
      (hpolicy : PreparedFrom env.lib w.access config.access (requiredAccessAsgs config) policy
        t.access) : PolicyStaged env w config s (some policy) t

/-- Everything that a generation has been built from, up to the preparation of its endpoints. -/
structure GenerationStaged (env : Platform) (w : World) (config : AppConfig) (generation : Nat)
    (s : State) (st : Staged) (t : State) : Prop where
  keeps : s.Stages t
  sameConfig : st.config = config
  sameGeneration : st.generation = generation
  backends : BackendsBuilt s.currentConfig.redisBackends s.redisBackends s
    config.redisBackends.entries st.backends t
  alarm : AlarmStaged config s st.alarm st.reuseAlarm t
  names : (config.pvs.map (fullPVName config.server)).Nodup
  runtimes : RuntimesStaged config.server st.backends st.alarm generation s config.pvs
    ⟨st.runtimes, st.updates, st.added⟩ t
  retired : st.retired = retiredRuntimes s.runtimes st.runtimes
  services : st.services.map RpcServiceState.config = config.rpcServices
  assembled : assembleRpcPVs config st.services = .ok (st.rpcs, st.assignments)
  catalog : buildDiscoveryCatalog env w config st.rpcs generation = .ok st.catalog
  policy : PolicyStaged env w config s st.policy t
  endpoints : ∃ bindings u,
    generationBindings s.admin config st.runtimes st.rpcs st.assignments = .ok bindings ∧
      s.Stages u ∧ Returns (prepareEndpoints w bindings) u st.endpoints t

variable {config : AppConfig}

/-- The names of the PVs of an assembled generation are distinct. -/
theorem AssembledFor.nodup_pvs {services : RpcServices} {rpcs : RpcMap}
    {assignments : AssignmentMap} (h : AssembledFor config services rpcs assignments) :
    (config.pvs.map (fullPVName config.server)).Nodup :=
  nodup_fullPVName (List.nodup_append.mp (List.nodup_append.mp h.distinct).1).2.1

variable {policy : Option PreparedConfiguration}

variable {w : World} {env : Platform}

theorem returns_stagePolicy (h : Returns (stagePolicy env w config) s policy t) :
    PolicyStaged env w config s policy t := by
  unfold stagePolicy at h
  rw [returns_get_bind] at h
  split at h
  · rename_i hsecured
    obtain ⟨prepared, u, hzoom, hpure⟩ := returns_bind.mp h
    obtain ⟨rfl, rfl⟩ := returns_pure.mp hpure
    obtain ⟨c, hprepare, rfl⟩ := returns_zoom.mp hzoom
    exact .prepared hsecured (returns_prepareConfiguration hprepare)
  · rename_i hfirst
    obtain ⟨rfl, rfl⟩ := returns_pure.mp h
    exact .kept (by simpa using hfirst)

theorem PolicyStaged.earlier {u : State} (h : PolicyStaged env w config s policy t)
    (hkeeps : u.Extends s) :
    PolicyStaged env w config u policy t := by
  cases h with
  | kept hfirst =>
    rw [hkeeps.secured, hkeeps.hasConfig] at hfirst
    exact .kept hfirst
  | prepared hsecured hpolicy =>
    rw [hkeeps.secured, hkeeps.hasConfig] at hsecured
    exact .prepared hsecured hpolicy

theorem PolicyStaged.later {t' : State} (h : PolicyStaged env w config s policy t)
    (hkeeps : t.Stages t') :
    PolicyStaged env w config s policy t' := by
  cases h with
  | kept hfirst => exact .kept hfirst
  | prepared hsecured hpolicy => exact .prepared hsecured (hpolicy.stages hkeeps.controller)

/-- **What a staged generation consists of.** -/
theorem returns_stageGeneration {generation : Nat} {st : Staged} (hs : s.InRange)
    (h : Returns (stageGeneration env w config generation) s st t) :
    GenerationStaged env w config generation s st t := by
  have hall := (within_stageGeneration env w config generation).returns h
  unfold stageGeneration at h
  obtain ⟨⟨⟩, s₁, hphase₁, rest1⟩ := returns_bind.mp h
  have k₁ := (within_reloadPhase _).returns hphase₁
  rw [returns_get_bind] at rest1
  obtain ⟨backends, s₂, hbackends, rest2⟩ := returns_bind.mp rest1
  have k₂ := (within_buildRedisBackends w _ _ _).returns hbackends
  obtain ⟨⟨⟩, s₃, hphase₃, rest3⟩ := returns_bind.mp rest2
  have k₃ := (within_reloadPhase _).returns hphase₃
  obtain ⟨alarm, s₄, halarm, rest4⟩ := returns_bind.mp rest3
  have k₄ := (within_stageAlarm w config).returns halarm
  obtain ⟨stage, s₅, hstage, rest5⟩ := returns_bind.mp rest4
  have k₅ := (within_stageRuntimes w backends alarm.1 generation config).returns hstage
  obtain ⟨⟨⟩, s₆, hphase₆, rest6⟩ := returns_bind.mp rest5
  have k₆ := (within_reloadPhase _).returns hphase₆
  obtain ⟨rpc, s₇, hrpc, rest7⟩ := returns_bind.mp rest6
  have k₇ := (within_buildRpcPVs env w config).returns hrpc
  obtain ⟨catalog, t₇, hcall₁, rest8⟩ := returns_bind.mp rest7
  obtain ⟨hcatalog, rfl⟩ := returns_ofExcept.mp hcall₁
  obtain ⟨bindings, s₇, hcall₂, rest9⟩ := returns_bind.mp rest8
  obtain ⟨hbindings, rfl⟩ := returns_ofExcept.mp hcall₂
  obtain ⟨⟨⟩, s₈, hphase₈, rest10⟩ := returns_bind.mp rest9
  have k₈ := (within_reloadPhase _).returns hphase₈
  obtain ⟨policy, s₉, hpolicy, rest11⟩ := returns_bind.mp rest10
  have k₉ := (within_stagePolicy env w config).returns hpolicy
  obtain ⟨endpoints, t', hendpoints, rest12⟩ := returns_bind.mp rest11
  have k₁₀ := (within_prepareEndpoints w bindings).returns hendpoints
  obtain ⟨rfl, rfl⟩ := returns_pure.mp rest12
  -- how far every state is from the first and from the last one
  have from₃ : s.Stages s₃ := IsTrans.trans _ _ _ k₁ (IsTrans.trans _ _ _ k₂ k₃)
  have from₄ : s.Stages s₄ := IsTrans.trans _ _ _ from₃ k₄
  have from₇ : s.Stages s₇ :=
    IsTrans.trans _ _ _ from₄ (IsTrans.trans _ _ _ k₅ (IsTrans.trans _ _ _ k₆ k₇))
  have from₈ : s.Stages s₈ := IsTrans.trans _ _ _ from₇ k₈
  have to₅ : s₅.Stages t := IsTrans.trans _ _ _ k₆ (IsTrans.trans _ _ _ k₇
    (IsTrans.trans _ _ _ k₈ (IsTrans.trans _ _ _ k₉ k₁₀)))
  have to₄ : s₄.Stages t := IsTrans.trans _ _ _ k₅ to₅
  have to₂ : s₂.Stages t := IsTrans.trans _ _ _ k₃ (IsTrans.trans _ _ _ k₄ to₄)
  unfold buildRpcPVs at hrpc
  rw [returns_get_bind] at hrpc
  obtain ⟨services, t₆, hservices, hassembly⟩ := returns_bind.mp hrpc
  obtain ⟨assembled, t₇, hexcept, hout⟩ := returns_bind.mp hassembly
  obtain ⟨hassembled, rfl⟩ := returns_ofExcept.mp hexcept
  obtain ⟨rfl, rfl⟩ := returns_pure.mp hout
  have hnames := (assembleRpcPVs_ok hassembled).nodup_pvs
  have hbuilt := returns_buildRedisBackends hbackends
  rw [k₁.currentConfig, k₁.redisBackends] at hbuilt
  have hruntimes := returns_stageRuntimes (from₄.toExtends.inRange hs) hnames hstage
  refine ⟨hall, rfl, rfl, ?_, ?_, hnames, ?_, ?_, returns_stageServices hservices, hassembled,
    hcatalog, ?_, bindings, s₉, ?_, ?_, hendpoints⟩
  · exact (hbuilt.earlier k₁.toExtends).later to₂.toExtends
  · exact ((returns_stageAlarm halarm).earlier from₃.toExtends).later to₄.toExtends
  · exact (hruntimes.earlier hs from₄.toExtends).later to₅.toExtends
  · rw [k₁.runtimes]
  · exact ((returns_stagePolicy hpolicy).earlier from₈.toExtends).later k₁₀
  · rw [k₁.admin] at hbindings
    exact hbindings
  · exact IsTrans.trans _ _ _ from₈ k₉

/-! ## Committing the runtimes -/

/-- What an update does to its runtime. -/
def RuntimeUpdate.apply (update : RuntimeUpdate) (runtime : Runtime) : Runtime :=
  { runtime with
    config := update.config, generation := update.generation, alarm := update.publisher }

theorem foldl_runtimeObjects {ξ : Type} {f : State → ξ → State}
    (hf : ∀ s x, f s x = { s with runtimeObjects := (f s x).runtimeObjects }) (l : List ξ)
    (s : State) : l.foldl f s = { s with runtimeObjects := (l.foldl f s).runtimeObjects } := by
  induction l generalizing s with
  | nil => rfl
  | cons x rest ih =>
    rw [List.foldl_cons]
    refine (ih (f s x)).trans ?_
    rw [hf s x]

/-- Committing only touches the runtimes. -/
theorem commitRuntimes_rest (s : State) (updates : List RuntimeUpdate) (added : List ObjectId) :
    s.commitRuntimes updates added =
      { s with runtimeObjects := (s.commitRuntimes updates added).runtimeObjects } := by
  unfold State.commitRuntimes
  have hupdates := foldl_runtimeObjects (f := State.commitUpdate) (fun _ _ => rfl) updates s
  have hadded := foldl_runtimeObjects (f := State.activateRuntime) (fun _ _ => rfl) added
    (updates.foldl State.commitUpdate s)
  refine hadded.trans ?_
  rw [hupdates]

/-- A runtime with one update gets it, and one without an update stays. -/
theorem commitUpdates_object {updates : List RuntimeUpdate} (update : RuntimeUpdate)
    (honly : ∀ u ∈ updates, u.runtime = update.runtime → u = update) (s : State) :
    (updates.foldl State.commitUpdate s).runtimeObjects update.runtime =
      if update ∈ updates then update.apply (s.runtimeObjects update.runtime)
      else s.runtimeObjects update.runtime := by
  induction updates generalizing s with
  | nil => simp
  | cons u rest ih =>
    rw [List.foldl_cons, ih (fun u' hu' => honly u' (List.mem_cons_of_mem _ hu'))]
    by_cases hu : u.runtime = update.runtime
    · obtain rfl := honly u (List.mem_cons_self ..) hu
      have hself : (s.commitUpdate u).runtimeObjects u.runtime =
          u.apply (s.runtimeObjects u.runtime) := Function.update_self _ _ _
      simp only [hself, List.mem_cons, true_or, if_true]
      split
      · rfl
      · rfl
    · have hother : (s.commitUpdate u).runtimeObjects update.runtime =
          s.runtimeObjects update.runtime := Function.update_of_ne (Ne.symm hu) _ _
      have hne : update ≠ u := fun heq => hu (heq ▸ rfl)
      simp only [hother, List.mem_cons, hne, false_or]

variable {o : ObjectId}

theorem commitUpdates_other {updates : List RuntimeUpdate} (hnone : ∀ u ∈ updates, u.runtime ≠ o)
    (s : State) :
    (updates.foldl State.commitUpdate s).runtimeObjects o = s.runtimeObjects o := by
  induction updates generalizing s with
  | nil => rfl
  | cons u rest ih =>
    rw [List.foldl_cons, ih fun u' hu' => hnone u' (List.mem_cons_of_mem _ hu')]
    exact Function.update_of_ne (Ne.symm (hnone u (List.mem_cons_self ..))) _ _

theorem activateRuntimes_object (added : List ObjectId) (s : State) (o : ObjectId) :
    (added.foldl State.activateRuntime s).runtimeObjects o =
      if o ∈ added then { s.runtimeObjects o with committed := true } else s.runtimeObjects o := by
  induction added generalizing s with
  | nil => simp
  | cons a rest ih =>
    rw [List.foldl_cons, ih]
    by_cases ho : o = a
    · subst ho
      have hself : (s.activateRuntime o).runtimeObjects o =
          { s.runtimeObjects o with committed := true } := Function.update_self _ _ _
      simp [hself]
    · have hother : (s.activateRuntime a).runtimeObjects o = s.runtimeObjects o :=
        Function.update_of_ne ho _ _
      simp [hother, ho]

variable {pv : PVConfig}

section Commit

variable {pvs : List PVConfig} {found : PVConfig → Option ObjectId} {generation : Nat}
  {alarm : ObjectId} {added : List ObjectId}

/-- The updates of the PVs for which a runtime is found. -/
def updatesFor (found : PVConfig → Option ObjectId) (generation : Nat) (alarm : ObjectId)
    (pvs : List PVConfig) : List RuntimeUpdate :=
  pvs.filterMap fun pv => (found pv).map fun o => ⟨o, pv, generation, alarm⟩

theorem mem_updatesFor {update : RuntimeUpdate} :
    update ∈ updatesFor found generation alarm pvs ↔
      ∃ pv ∈ pvs, ∃ o, found pv = some o ∧ ⟨o, pv, generation, alarm⟩ = update := by
  simp only [updatesFor, List.mem_filterMap, Option.map_eq_some_iff]

/-- **A runtime that is kept** gets the configuration of its PV. -/
theorem commitRuntimes_kept (hinj : ∀ pv ∈ pvs, ∀ pv' ∈ pvs, ∀ o, found pv = some o →
      found pv' = some o → pv = pv') (hpv : pv ∈ pvs) (ho : found pv = some o) (hadded : o ∉ added)
    (s : State) :
    (s.commitRuntimes (updatesFor found generation alarm pvs) added).runtimeObjects o =
      { s.runtimeObjects o with config := pv, generation := generation, alarm := alarm } := by
  have hmem : (⟨o, pv, generation, alarm⟩ : RuntimeUpdate) ∈
      updatesFor found generation alarm pvs := mem_updatesFor.mpr ⟨pv, hpv, o, ho, rfl⟩
  have honly : ∀ u ∈ updatesFor found generation alarm pvs, u.runtime = o →
      u = ⟨o, pv, generation, alarm⟩ := by
    intro u hu hruntime
    obtain ⟨pv', hpv', o', ho', rfl⟩ := mem_updatesFor.mp hu
    obtain rfl : o' = o := hruntime
    rw [hinj pv hpv pv' hpv' o' ho ho']
  rw [State.commitRuntimes, activateRuntimes_object, if_neg hadded]
  refine (commitUpdates_object ⟨o, pv, generation, alarm⟩ honly s).trans ?_
  rw [if_pos hmem]
  rfl

/-- **A new runtime** is activated. -/
theorem commitRuntimes_added (hadded : o ∈ added) (hnone : ∀ pv ∈ pvs, found pv ≠ some o)
    (s : State) :
    (s.commitRuntimes (updatesFor found generation alarm pvs) added).runtimeObjects o =
      { s.runtimeObjects o with committed := true } := by
  have hother : ∀ u ∈ updatesFor found generation alarm pvs, u.runtime ≠ o := by
    intro u hu heq
    obtain ⟨pv, hpv, o', ho', rfl⟩ := mem_updatesFor.mp hu
    obtain rfl : o' = o := heq
    exact hnone pv hpv ho'
  rw [State.commitRuntimes, activateRuntimes_object, if_pos hadded, commitUpdates_other hother]

end Commit

/-! ## Publishing the endpoints -/

/-- The state `v` after a publication of `bindings` whose callback has left `t`. -/
structure EndpointsPublished (t v : State) (bindings : PVBindings) : Prop where
  rest : v = { t with registry := v.registry, access := v.access }
  controller : v.access = { t.access with
    registry := v.access.registry, members := v.access.members, prepared := v.access.prepared }
  bindings : v.served.bindings = bindings
  agrees : Agrees v.access
  orderly : Orderly v.registry

/-- **What is prepared and published is served**, provided that the callback leaves the
    endpoints alone. -/
theorem returns_publishEndpoints {bindings : PVBindings} {endpoints : Nat} {u v : State}
    {callback : Effect State Outcome} (hagrees : Agrees s.access) (horderly : Orderly s.registry)
    (hpv : ∀ name old new, s.served.bindings.find? name = some old →
      bindings.find? name = some new → old.owner = new.owner → old.pv = new.pv)
    (hprepare : Returns (prepareEndpoints w bindings) s endpoints u)
    (hcallback : ∀ t, Returns callback u (.ok ()) t → t.secured = u.secured ∧
      t.registry = u.registry ∧ SameEndpoints u.access t.access)
    (h : Returns (publishEndpoints endpoints callback) u (.ok ()) v) :
    ∃ t, Returns callback u (.ok ()) t ∧ EndpointsPublished t v bindings := by
  have hkeeps := (within_prepareEndpoints w bindings).returns hprepare
  have horderly' := hkeeps.orderly horderly
  have hagrees' := hkeeps.controller.agrees hagrees
  unfold prepareEndpoints at hprepare
  rw [returns_get_bind] at hprepare
  unfold publishEndpoints at h
  rw [returns_get_bind, hkeeps.secured] at h
  by_cases hsecured : s.secured = true
  · rw [if_pos hsecured] at hprepare h
    obtain ⟨c, hcall, rfl⟩ := returns_zoom.mp hprepare
    obtain ⟨members, c', -, registry, p, hregistry, rfl, rfl⟩ := returns_prepareBindings hagrees hcall
    obtain ⟨p', hp', -, t, ht, rfl⟩ := returns_publishBindings.mp h
    obtain ⟨hsame, hplain, hendpoints⟩ := hcallback t ht
    have hlast : p' = ⟨p, members⟩ := by
      refine Option.some.inj (hp'.symm.trans ?_)
      exact List.getElem?_concat_length
    subst hlast
    have hp : t.access.prepared[s.access.prepared.length]? = some ⟨p, members⟩ := by
      rw [hendpoints.prepared]
      exact hp'
    have hserved : s.served = s.access.registry := if_pos hsecured
    rw [hserved] at hpv
    obtain ⟨hfresh, hbindings⟩ := bindings_publish hagrees.consistent hpv hregistry
    have hregistry' : t.access.registry = registry := hendpoints.registry
    have hv : (t.access.afterPublish s.access.prepared.length p).registry =
        (registry.publish p true).1 := by
      rw [afterPublish_eq hp, hregistry']
    refine ⟨t, ht, ⟨rfl, ?_, ?_, ?_, ?_⟩⟩
    · show t.access.afterPublish s.access.prepared.length p = _
      rw [afterPublish_eq hp]
      simp only [State.accessPart, afterPublish_eq hp]
    · have hserved' : (State.accessPart.set (t.access.afterPublish s.access.prepared.length p)
          t).served = (t.access.afterPublish s.access.prepared.length p).registry :=
        if_pos (hsame.trans hsecured)
      exact (congrArg Impl.bindings (hserved'.trans hv)).trans hbindings
    · refine agrees_afterPublish (hendpoints.agrees hagrees') hp ?_
      show t.access.registry.fresh p = true
      rw [hregistry']
      exact hfresh
    · show Orderly t.registry
      rw [hplain]
      exact horderly
  · rw [if_neg hsecured] at hprepare h
    obtain ⟨registry, hcall, rfl⟩ := returns_zoom.mp hprepare
    have hregistry := returns_prepareCall.mp hcall
    obtain ⟨-, t, ht, rfl⟩ := returns_publishCall.mp h
    obtain ⟨hsame, hplain, hendpoints⟩ := hcallback t ht
    have hserved : s.served = s.registry := if_neg hsecured
    rw [hserved] at hpv
    obtain ⟨hfresh, hbindings⟩ := bindings_publish horderly.consistent hpv hregistry
    have hplain' : t.registry = registry := hplain
    refine ⟨t, ht, ⟨rfl, rfl, ?_, ?_, ?_⟩⟩
    · have hserved' : (State.registryPart.set ((t.registry).publish endpoints true).1 t).served =
          (t.registry.publish endpoints true).1 :=
        if_neg (fun hsec => hsecured (hsame.symm.trans hsec))
      rw [hplain'] at hserved'
      refine (congrArg Impl.bindings ?_).trans hbindings
      refine Eq.trans ?_ hserved'
      rw [← hplain']
      rfl
    · show Agrees t.access
      exact hendpoints.agrees hagrees
    · show Orderly (t.registry.publish endpoints true).1
      refine Orderly.publish ?_ ?_
      · rw [hplain']
        exact horderly'
      · rw [hplain']
        exact hfresh

variable {name : String}

/-- The same diagnostics serve a name with the same `SharedPV`, and so does the same owner. -/
theorem samePV_generationBindings {admin : AdminNamespace} {config' : AppConfig}
    {runtimes runtimes' : RuntimeMap} {rpcs rpcs' : RpcMap}
    {assignments assignments' : AssignmentMap} {bindings bindings' : PVBindings}
    {old new : PVBinding}
    (h : generationBindings admin config runtimes rpcs assignments = .ok bindings)
    (h' : generationBindings admin config' runtimes' rpcs' assignments' = .ok bindings')
    (hold : bindings.find? name = some old) (hnew : bindings'.find? name = some new)
    (howner : old.owner = new.owner) : old.pv = new.pv := by
  have hadmin : ∀ {command : Bool} {place : Nat},
      ((name, command), place) ∈ (diagnostics admin.server).zipIdx →
      (diagnostics admin.server)[place]? = some (name, command) :=
    fun hmem => List.mem_zipIdx_iff_getElem?.mp hmem
  have hname : ∀ {command : Bool} {place : Nat},
      ((name, command), place) ∈ (diagnostics admin.server).zipIdx →
      name ∈ adminPVNames admin.server := by
    intro command place hmem
    rw [← (diagnostics_perm admin.server).mem_iff]
    exact List.mem_map.mpr ⟨_, List.mem_of_getElem? (hadmin hmem), rfl⟩
  rcases pv_generationBindings h hold with ⟨command, place, hmem, hpv⟩ | ⟨hnot, hpv⟩
  · rcases pv_generationBindings h' hnew with ⟨command', place', hmem', hpv'⟩ | ⟨hnot', -⟩
    · -- a name has one place among the diagnostics
      have hnodup : ((diagnostics admin.server).map Prod.fst).Nodup :=
        (diagnostics_perm admin.server).nodup_iff.mpr (nodup_adminPVNames _)
      have hplace : ((diagnostics admin.server).map Prod.fst)[place]? =
          ((diagnostics admin.server).map Prod.fst)[place']? := by
        rw [List.getElem?_map, List.getElem?_map, hadmin hmem, hadmin hmem']
        rfl
      have hlt : place < ((diagnostics admin.server).map Prod.fst).length := by
        rw [List.length_map]
        exact (List.getElem?_eq_some_iff.mp (hadmin hmem)).1
      rw [hpv, hpv', (List.getElem?_inj hlt hnodup).mp hplace]
    · exact absurd (hname hmem) hnot'
  · rcases pv_generationBindings h' hnew with ⟨command', place', hmem', -⟩ | ⟨-, hpv'⟩
    · exact absurd (hname hmem') hnot
    · rw [hpv, hpv', howner]

/-! ## Committed generations -/

/-- A runtime that serves the PV in the generation and publishes its alarms there. -/
structure Runtime.Serves (runtime : Runtime) (server : ServerConfig) (pv : PVConfig)
    (generation : Nat) (alarm : ObjectId) : Prop where
  named : runtime.fullName = fullPVName server pv
  configured : runtime.config = pv
  current : runtime.generation = generation
  alarmed : runtime.alarm = alarm
  active : runtime.committed = true

/-- **A committed generation**: every part is the one for the current configuration. -/
structure Committed (env : Platform) (s : State) : Prop where
  backends : ∀ name, name ∈ s.redisBackends.keys ↔ name ∈ s.currentConfig.redisBackends.keys
  adapters : ∀ name redis, s.currentConfig.redisBackends.find? name = some redis →
    ∃ o, s.redisBackends.find? name = some o ∧ (s.adapters o).config = redis
  alarm : ∃ o redis, s.alarmPublisher = some o ∧
    s.currentConfig.redisBackends.find? s.currentConfig.alarms.backend = some redis ∧
      (s.publishers o).target = alarmTarget s.currentConfig.alarms redis
  names : (s.currentConfig.pvs.map (fullPVName s.currentConfig.server)).Nodup
  keys : ∀ name, name ∈ s.runtimes.keys ↔
    name ∈ s.currentConfig.pvs.map (fullPVName s.currentConfig.server)
  runtimes : ∀ pv ∈ s.currentConfig.pvs, ∃ o alarm,
    s.runtimes.find? (fullPVName s.currentConfig.server pv) = some o ∧
      s.alarmPublisher = some alarm ∧
      (s.runtimeObjects o).Serves s.currentConfig.server pv s.generation alarm
  services : s.rpcServices.map RpcServiceState.config = s.currentConfig.rpcServices
  /-- The services as they were when the generation was committed. -/
  assembled : ∃ services : RpcServices,
    services.map RpcServiceState.config = s.currentConfig.rpcServices ∧
      assembleRpcPVs s.currentConfig services = .ok (s.rpcPVs, s.rpcAssignments)
  catalog : ∃ w, buildDiscoveryCatalog env w s.currentConfig s.rpcPVs s.generation = .ok s.catalog
  bindings : generationBindings s.admin s.currentConfig s.runtimes s.rpcPVs s.rpcAssignments =
    .ok s.served.bindings

/-- What an operation can rely on when it begins. -/
structure Sound (env : Platform) (s : State) : Prop where
  range : s.InRange
  agrees : Agrees s.access
  orderly : Orderly s.registry
  committed : s.hasConfig = true → Committed env s
  empty : s.hasConfig = false → s.redisBackends = ∅ ∧ s.runtimes = ∅ ∧ s.alarmPublisher = none ∧
    s.served.bindings = ∅

section Committed

variable {env : Platform} {w : World} {config : AppConfig} {generation : Nat} {s t u : State}
  {st : Staged}

/-- A runtime is kept under its own name. -/
theorem Sound.named (hs : Sound env s) (h : s.runtimes.find? name = some o) :
    (s.runtimeObjects o).fullName = name ∧ (s.runtimeObjects o).committed = true := by
  cases hconfig : s.hasConfig with
  | false =>
    rw [(hs.empty hconfig).2.1] at h
    cases h
  | true =>
    have hcommitted := hs.committed hconfig
    have hkey := (hcommitted.keys name).mp (FinMap.mem_keys _ |>.mpr ⟨o, h⟩)
    obtain ⟨pv, hpv, rfl⟩ := List.mem_map.mp hkey
    obtain ⟨o', alarm, hfind, -, hruntime⟩ := hcommitted.runtimes pv hpv
    obtain rfl := Option.some.inj (h.symm.trans hfind)
    exact ⟨hruntime.named, hruntime.active⟩

theorem runtimeFor_ok {server : ServerConfig} {backends : RedisBackendRegistry} {alarm : ObjectId}
    {runtime : Runtime} (h : runtimeFor server pv backends alarm generation = .ok runtime) :
    runtime.fullName = fullPVName server pv ∧ runtime.config = pv ∧
      runtime.generation = generation ∧ runtime.alarm = alarm := by
  unfold runtimeFor at h
  dsimp only at h
  split at h
  · obtain ⟨read, -, h⟩ := bind_eq_ok.mp h
    split at h
    · cases h
      exact ⟨rfl, rfl, rfl, rfl⟩
    · obtain ⟨write, -, h⟩ := bind_eq_ok.mp h
      obtain ⟨confirm, -, h⟩ := bind_eq_ok.mp h
      cases h
      exact ⟨rfl, rfl, rfl, rfl⟩
  · cases h

/-- **The runtimes after the commit.** -/
theorem GenerationStaged.committedRuntimes (hs : Sound env s)
    (h : GenerationStaged env w config generation s st t) {x : State}
    (hx : x.runtimeObjects = t.runtimeObjects) (hpv : pv ∈ config.pvs) :
    ∃ o, st.runtimes.find? (fullPVName config.server pv) = some o ∧ o < t.nextObject ∧
      ((x.commitRuntimes st.updates st.added).runtimeObjects o).Serves config.server pv generation
        st.alarm := by
  have hupdates : st.updates = updatesFor (fun pv =>
      s.keptRuntime st.backends (fullPVName config.server pv) pv) generation st.alarm config.pvs :=
    h.runtimes.updates
  rw [hupdates]
  have hold : ∀ pv' o', s.keptRuntime st.backends (fullPVName config.server pv') pv' = some o' →
      o' < s.nextObject := fun pv' o' hkept =>
    hs.range.runtimes _ o' (keptRuntime_current hkept).1
  obtain ⟨o, hfind, hcase⟩ := h.runtimes.entry pv hpv
  refine ⟨o, hfind, ?_⟩
  rcases hcase with ⟨hkept, -⟩ | ⟨-, hadded, hle, hlt, hobject⟩
  · -- two PVs with the same runtime have the same name
    have hinj : ∀ pv ∈ config.pvs, ∀ pv' ∈ config.pvs, ∀ o,
        s.keptRuntime st.backends (fullPVName config.server pv) pv = some o →
        s.keptRuntime st.backends (fullPVName config.server pv') pv' = some o → pv = pv' := by
      intro pv hpv pv' hpv' o ho ho'
      have hname := (hs.named (keptRuntime_current ho).1).1
      have hname' := (hs.named (keptRuntime_current ho').1).1
      exact List.inj_on_of_nodup_map h.names hpv hpv' (hname.symm.trans hname')
    have hnot : o ∉ st.added := fun hmem =>
      absurd (hold pv o hkept) (Nat.not_lt.mpr (h.runtimes.added o hmem).1)
    rw [commitRuntimes_kept hinj hpv hkept hnot, hx, h.keeps.runtimeObjects o (hold pv o hkept)]
    obtain ⟨hname, hcommitted⟩ := hs.named (keptRuntime_current hkept).1
    exact ⟨lt_of_lt_of_le (hold pv o hkept) h.keeps.nextObject, hname, rfl, rfl, rfl, hcommitted⟩
  · have hnone : ∀ pv' ∈ config.pvs,
        s.keptRuntime st.backends (fullPVName config.server pv') pv' ≠ some o := fun pv' _ hkept =>
      absurd (hold pv' o hkept) (Nat.not_lt.mpr hle)
    rw [commitRuntimes_added hadded hnone, hx]
    obtain ⟨hname, hconfig, hgeneration, halarm⟩ := runtimeFor_ok hobject
    exact ⟨hlt, hname, hconfig, hgeneration, halarm, rfl⟩

/-- The policy after the commit: the prepared one, or the one that was there. -/
inductive PolicyCommitted (env : Platform) (w : World) (config : AppConfig) (s : State)
    (before after : Controller) : Prop where
  | kept (hfirst : (s.secured && s.hasConfig) = false) (hsame : after = before)
  | activated (prepared : PreparedConfiguration) (hsecured : (s.secured && s.hasConfig) = true)
      (hpolicy : PreparedFrom env.lib w.access config.access (requiredAccessAsgs config) prepared
        before)
      (hafter : ∃ library, after = { before with library := library }.activated prepared)
      (hactive : PolicyActive env.lib before → PolicyActive env.lib after)

theorem PolicyCommitted.sameEndpoints {before after : Controller}
    (h : PolicyCommitted env w config s before after) : SameEndpoints before after := by
  cases h with
  | kept hfirst hsame =>
    subst hsame
    exact refl _
  | activated prepared hsecured hpolicy hafter hactive =>
    obtain ⟨library, rfl⟩ := hafter
    exact ⟨rfl, rfl, rfl, rfl, rfl⟩

theorem returns_commit (hpolicy : PolicyStaged env w config s st.policy u)
    (h : Returns (commit w st) u (.ok ()) t) :
    ∃ c, PolicyCommitted env w config s u.access c ∧
      t = ({ u with access := c } : State).commitRuntimes st.updates st.added := by
  obtain ⟨v, hactivate, hmodify⟩ := returns_andThen.mp h
  obtain rfl := returns_modify.mp hmodify
  unfold activatePolicy at hactivate
  generalize st.policy = policy at hpolicy hactivate
  cases hpolicy with
  | kept hfirst =>
    obtain rfl : v = u := (returns_pure.mp hactivate).2
    exact ⟨v.access, .kept hfirst rfl, rfl⟩
  | prepared hsecured hprepared =>
    obtain ⟨c, hc, rfl⟩ := returns_zoom.mp hactivate
    rename_i prepared
    exact ⟨c, .activated prepared hsecured hprepared ⟨_, returns_activateConfiguration hc⟩
      fun hactive => hactive.activated hprepared hc, rfl⟩

/-- What an accepted generation leaves, with the state `u` in which its staging ended and the
    controller `c` as its commit has left it. -/
structure GenerationBuilt (env : Platform) (w : World) (config : AppConfig) (generation : Nat)
    (s : State) (st : Staged) (u : State) (c : Controller) (t : State) : Prop where
  staged : GenerationStaged env w config generation s st u
  policy : PolicyCommitted env w config s u.access c
  objects : t.runtimeObjects =
    (({ u with access := c } : State).commitRuntimes st.updates st.added).runtimeObjects
  rest : t = ({ u with
    runtimeObjects := t.runtimeObjects, registry := t.registry, access := t.access } :
      State).install st
  controller : t.access = { c with
    registry := t.access.registry, members := t.access.members, prepared := t.access.prepared }
  agrees : Agrees t.access
  orderly : Orderly t.registry
  bindings : generationBindings s.admin config st.runtimes st.rpcs st.assignments =
    .ok t.served.bindings

theorem State.Stages.servedBindings (h : s.Stages t) (hagrees : Agrees s.access)
    (horderly : Orderly s.registry) : t.served.bindings = s.served.bindings := by
  unfold State.served
  rw [h.secured]
  split
  · exact h.access.registry.bindings hagrees.consistent
  · exact h.registry.bindings horderly.consistent

/-- **An accepted generation** is what was staged. -/
theorem returns_buildGeneration (hs : Sound env s)
    (h : Returns (buildGeneration env w config generation) s (.ok st) t) :
    ∃ u c, GenerationBuilt env w config generation s st u c t := by
  unfold buildGeneration at h
  rcases returns_tryCatch.mp h with hbody | ⟨e, v, -, hhandler⟩
  swap
  · cases (returns_pure.mp hhandler).1
  obtain ⟨st', u, hstage, hrest⟩ := returns_bind.mp hbody
  obtain ⟨out, v, hpublish, hinstall⟩ := returns_bind.mp hrest
  cases out with
  | error e => cases (returns_pure.mp hinstall).1
  | ok v' =>
    obtain ⟨⟨⟩, v₁, hmodify, hpure⟩ := returns_bind.mp hinstall
    obtain rfl := returns_modify.mp hmodify
    obtain ⟨hst, rfl⟩ := returns_pure.mp hpure
    cases hst
    have hstaged := returns_stageGeneration hs.range hstage
    obtain ⟨bindings, u₀, hbindings, hkeeps, hprepare⟩ := hstaged.endpoints
    -- whatever is served already is served by the same `SharedPV`
    have hpv : ∀ name old new, u₀.served.bindings.find? name = some old →
        bindings.find? name = some new → old.owner = new.owner → old.pv = new.pv := by
      intro name old new hold hnew howner
      rw [hkeeps.servedBindings hs.agrees hs.orderly] at hold
      cases hconfig : s.hasConfig with
      | false =>
        rw [(hs.empty hconfig).2.2.2] at hold
        cases hold
      | true =>
        exact samePV_generationBindings (hs.committed hconfig).bindings hbindings hold hnew howner
    have hcallback : ∀ x, Returns (commit w st) u (.ok ()) x → x.secured = u.secured ∧
        x.registry = u.registry ∧ SameEndpoints u.access x.access := by
      intro x hx
      obtain ⟨c, hpolicy, rfl⟩ := returns_commit hstaged.policy hx
      rw [commitRuntimes_rest]
      exact ⟨rfl, rfl, hpolicy.sameEndpoints⟩
    obtain ⟨x, hcommit, hpublished⟩ := returns_publishEndpoints
      (hkeeps.controller.agrees hs.agrees) (hkeeps.orderly hs.orderly) hpv hprepare hcallback
      hpublish
    obtain ⟨c, hpolicy, rfl⟩ := returns_commit hstaged.policy hcommit
    have hcommitted := commitRuntimes_rest { u with access := c } st.updates st.added
    refine ⟨u, c, hstaged, hpolicy, ?_, ?_, ?_, hpublished.agrees, hpublished.orderly, ?_⟩
    · show v.runtimeObjects = _
      rw [hpublished.rest]
    · rw [hpublished.rest, hcommitted]
      rfl
    · have hcontroller := hpublished.controller
      rw [hcommitted] at hcontroller
      exact hcontroller
    · rw [hbindings, ← hpublished.bindings]
      rfl

namespace GenerationBuilt

variable {c : Controller}

theorem currentConfig (h : GenerationBuilt env w config generation s st u c t) :
    t.currentConfig = config := by
  rw [h.rest]
  exact h.staged.sameConfig

theorem sameGeneration (h : GenerationBuilt env w config generation s st u c t) :
    t.generation = generation := by
  rw [h.rest]
  exact h.staged.sameGeneration

theorem hasConfig (h : GenerationBuilt env w config generation s st u c t) :
    t.hasConfig = true := by
  rw [h.rest]
  rfl

/-- What is neither staged nor published. -/
theorem frame (h : GenerationBuilt env w config generation s st u c t) :
    t.admin = s.admin ∧ t.secured = s.secured ∧ t.launched = s.launched ∧ t.started = s.started ∧
      t.rpcDiscovery = s.rpcDiscovery := by
  rw [h.rest]
  exact ⟨h.staged.keeps.admin, h.staged.keeps.secured, h.staged.keeps.launched,
    h.staged.keeps.started, h.staged.keeps.rpcDiscovery⟩

/-- What was staged is what is installed. -/
theorem installed (h : GenerationBuilt env w config generation s st u c t) :
    t.redisBackends = st.backends ∧ t.runtimes = st.runtimes ∧ t.alarmPublisher = some st.alarm ∧
      t.rpcServices = st.services ∧ t.rpcPVs = st.rpcs ∧ t.rpcAssignments = st.assignments ∧
      t.catalog = st.catalog := by
  rw [h.rest]
  exact ⟨rfl, rfl, rfl, rfl, rfl, rfl, rfl⟩

/-- The objects are those that staging has left. -/
theorem objects_eq (h : GenerationBuilt env w config generation s st u c t) :
    t.adapters = u.adapters ∧ t.publishers = u.publishers ∧ t.nextObject = u.nextObject := by
  rw [h.rest]
  exact ⟨rfl, rfl, rfl⟩

theorem runtime (hs : Sound env s) (h : GenerationBuilt env w config generation s st u c t)
    (hpv : pv ∈ config.pvs) :
    ∃ o, t.runtimes.find? (fullPVName config.server pv) = some o ∧ o < t.nextObject ∧
      (t.runtimeObjects o).Serves config.server pv generation st.alarm := by
  rw [h.installed.2.1, h.objects_eq.2.2, h.objects]
  have hx : ({ u with access := c } : State).runtimeObjects = u.runtimeObjects := rfl
  exact h.staged.committedRuntimes hs hx hpv

theorem adapter (hs : Sound env s) (h : GenerationBuilt env w config generation s st u c t)
    {redis : RedisConfig} (hredis : config.redisBackends.find? name = some redis) :
    ∃ o, t.redisBackends.find? name = some o ∧ o < t.nextObject ∧
      (t.adapters o).config = redis := by
  rw [h.installed.1, h.objects_eq.1, h.objects_eq.2.2]
  obtain ⟨o, hfind, hcase⟩ := h.staged.backends.entry name redis
    ((config.redisBackends.mem_entries).mpr hredis)
  refine ⟨o, hfind, ?_⟩
  rcases hcase with hretained | ⟨-, -, hlt, hadapter⟩
  · -- a retained adapter had the same settings
    unfold retainedBackend at hretained
    split at hretained
    · rename_i old runtime hprevious hexisting
      split at hretained
      · rename_i hsame
        cases hretained
        obtain rfl := (sameRedisConfig_iff _ _).mp hsame
        have hlt := hs.range.backends name o hexisting
        refine ⟨lt_of_lt_of_le hlt h.staged.keeps.nextObject, ?_⟩
        rw [h.staged.keeps.adapters o hlt]
        cases hconfig : s.hasConfig with
        | false =>
          rw [(hs.empty hconfig).1] at hexisting
          cases hexisting
        | true =>
          obtain ⟨o', hfind', hadapter⟩ := (hs.committed hconfig).adapters name redis hprevious
          obtain rfl := Option.some.inj (hexisting.symm.trans hfind')
          exact hadapter
      · cases hretained
    · cases hretained
  · rw [hadapter]
    exact ⟨hlt, rfl⟩

theorem alarm (hs : Sound env s) (h : GenerationBuilt env w config generation s st u c t) :
    st.alarm < t.nextObject ∧ ∃ redis,
      config.redisBackends.find? config.alarms.backend = some redis ∧
      (t.publishers st.alarm).target = alarmTarget config.alarms redis := by
  rw [h.objects_eq.2.1, h.objects_eq.2.2]
  have hstaged := h.staged.alarm
  generalize st.reuseAlarm = reuse at hstaged
  cases hstaged with
  | reused hconfig hpublisher halarms hprior hbackend =>
    have hlt := hs.range.alarm st.alarm hpublisher
    refine ⟨lt_of_lt_of_le hlt h.staged.keeps.nextObject, _, hbackend, ?_⟩
    rw [h.staged.keeps.publishers st.alarm hlt]
    obtain ⟨o, redis, ho, hredis, htarget⟩ := (hs.committed hconfig).alarm
    obtain rfl := Option.some.inj (hpublisher.symm.trans ho)
    rw [halarms] at hredis htarget
    obtain rfl := Option.some.inj (hprior.symm.trans hredis)
    exact htarget
  | built hnew hlt hbackend htarget => exact ⟨hlt, _, hbackend, htarget⟩

/-- **An accepted generation is committed.** -/
theorem committed (hs : Sound env s) (h : GenerationBuilt env w config generation s st u c t) :
    Committed env t := by
  obtain ⟨hbackends, hruntimes, halarm, hservices, hrpcs, hassignments, hcatalog⟩ := h.installed
  have hconfig := h.currentConfig
  refine ⟨?_, ?_, ?_, ?_, ?_, ?_, ?_, ⟨st.services, ?_, ?_⟩, ⟨w, ?_⟩, ?_⟩
  · rw [hbackends, hconfig]
    exact h.staged.backends.keys
  · rw [hconfig]
    intro name redis hredis
    obtain ⟨o, hfind, -, hadapter⟩ := h.adapter hs hredis
    exact ⟨o, hfind, hadapter⟩
  · obtain ⟨-, redis, hredis, htarget⟩ := h.alarm hs
    rw [hconfig]
    exact ⟨st.alarm, redis, halarm, hredis, htarget⟩
  · rw [hconfig]
    exact h.staged.names
  · rw [hruntimes, hconfig]
    exact h.staged.runtimes.keys
  · rw [hconfig]
    intro pv hpv
    obtain ⟨o, hfind, -, hserves⟩ := h.runtime hs hpv
    rw [h.sameGeneration]
    exact ⟨o, st.alarm, hfind, halarm, hserves⟩
  · rw [hservices, hconfig]
    exact h.staged.services
  · rw [hconfig]
    exact h.staged.services
  · rw [hconfig, hrpcs, hassignments]
    exact h.staged.assembled
  · rw [hconfig, hrpcs, hcatalog, h.sameGeneration]
    exact h.staged.catalog
  · rw [h.frame.1, hconfig, hruntimes, hrpcs, hassignments]
    exact h.bindings

theorem sound (hs : Sound env s) (h : GenerationBuilt env w config generation s st u c t) :
    Sound env t := by
  have hcommitted := h.committed hs
  have hconfig := h.currentConfig
  refine ⟨⟨?_, ?_, ?_⟩, h.agrees, h.orderly, fun _ => hcommitted, fun hno => ?_⟩
  · intro name o ho
    have hkey := (hcommitted.backends name).mp (FinMap.mem_keys _ |>.mpr ⟨o, ho⟩)
    rw [hconfig] at hkey
    obtain ⟨redis, hredis⟩ := (FinMap.mem_keys _).mp hkey
    obtain ⟨o', hfind, hlt, -⟩ := h.adapter hs hredis
    obtain rfl := Option.some.inj (ho.symm.trans hfind)
    exact hlt
  · intro name o ho
    have hkey := (hcommitted.keys name).mp (FinMap.mem_keys _ |>.mpr ⟨o, ho⟩)
    rw [hconfig] at hkey
    obtain ⟨pv, hpv, rfl⟩ := List.mem_map.mp hkey
    obtain ⟨o', hfind, hlt, -⟩ := h.runtime hs hpv
    obtain rfl := Option.some.inj (ho.symm.trans hfind)
    exact hlt
  · intro o ho
    obtain rfl := Option.some.inj (h.installed.2.2.1.symm.trans ho)
    exact (h.alarm hs).1
  · rw [h.hasConfig] at hno
    cases hno

/-- A policy that was active is followed by one that is active. -/
theorem policyActive (h : GenerationBuilt env w config generation s st u c t)
    (hactive : PolicyActive env.lib s.access) : PolicyActive env.lib t.access := by
  have hstaged := hactive.stages h.staged.keeps.controller
  have hc : PolicyActive env.lib c := by
    cases h.policy with
    | kept hfirst hsame => exact hsame ▸ hstaged
    | activated prepared hsecured hpolicy hafter hactive' => exact hactive' hstaged
  rw [h.controller]
  exact ⟨hc.library, hc.groups, hc.derived, hc.read⟩

/-- The first generation takes the policy that the startup has activated. -/
theorem policy_first (h : GenerationBuilt env w config generation s st u c t)
    (hfirst : (s.secured && s.hasConfig) = false) :
    t.access.config = s.access.config ∧ t.access.configuredAsgs = s.access.configuredAsgs ∧
      (PolicyFrom env.lib w.access s.access → PolicyFrom env.lib w.access t.access) := by
  rw [h.controller]
  cases h.policy with
  | kept hfirst' hsame =>
    subst hsame
    have hrest := h.staged.keeps.access.rest
    have hconfig : u.access.config = s.access.config := (congrArg Controller.config hrest :)
    have hasgs : u.access.configuredAsgs = s.access.configuredAsgs :=
      (congrArg Controller.configuredAsgs hrest :)
    refine ⟨hconfig, hasgs, ?_⟩
    rintro ⟨policy, hprepare, hactive, hprint, hraw⟩
    rw [← hconfig, ← hasgs] at hprepare
    exact ⟨policy, hprepare, (congrArg Controller.activePolicy hrest :).trans hactive,
      (congrArg Controller.policyFingerprint hrest :).trans hprint,
      (congrArg Controller.observedRaw hrest :).trans hraw⟩
  | activated prepared hsecured hpolicy hafter hactive =>
    rw [hfirst] at hsecured
    cases hsecured

/-- A later generation brings its own policy. -/
theorem policy_later (h : GenerationBuilt env w config generation s st u c t)
    (hlater : (s.secured && s.hasConfig) = true) :
    t.access.config = config.access ∧ t.access.configuredAsgs = requiredAccessAsgs config ∧
      PolicyFrom env.lib w.access t.access := by
  rw [h.controller]
  cases h.policy with
  | kept hfirst hsame =>
    rw [hlater] at hfirst
    cases hfirst
  | activated prepared hsecured hpolicy hafter hactive =>
    obtain ⟨library, rfl⟩ := hafter
    refine ⟨hpolicy.sameConfig, hpolicy.sameAsgs, prepared.policy, ?_, rfl, rfl, rfl⟩
    show preparePolicy env.lib w.access prepared.config prepared.requiredAsgs = _
    rw [hpolicy.sameConfig, hpolicy.sameAsgs]
    exact hpolicy.policy

end GenerationBuilt

end Committed

end RedisPvxsIoc.Application
