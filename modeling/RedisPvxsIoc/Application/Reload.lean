import RedisPvxsIoc.Application.Committed

/-!
# A Generation Is Accepted or Nothing Has Changed

`applyGeneration` never throws.  It refuses a generation before anything of the running one is
touched: staging only allocates, a stale publication is noticed before the commit callback runs,
and the callback does nothing else when the access library refuses the policy.  Once the
publication has succeeded, only assignments follow, and a failure of the refresh is reported
without taking anything back.

## Main results

- `applyGeneration_cases`: the two ways in which `applyGeneration` returns
- `applyGeneration_allOrNothing`: the running generation stays as it is, or is the candidate
-/

namespace RedisPvxsIoc.Application

open Foundations Config PVRegistry Access Discovery

/-! ## The refresh -/

/-- What the refresh may do: end the life of runtimes, and start and stop publishers. -/
structure State.Refreshes (s t : State) : Prop where
  runtimeObjects : ∀ o, t.runtimeObjects o =
    { s.runtimeObjects o with alive := (t.runtimeObjects o).alive }
  publishers : ∀ o, t.publishers o = { s.publishers o with
    active := (t.publishers o).active, stopped := (t.publishers o).stopped }
  rest : t = { s with
    runtimeObjects := t.runtimeObjects, publishers := t.publishers, reload := t.reload }

instance : IsPreorder State State.Refreshes where
  refl _ := ⟨fun _ => rfl, fun _ => rfl, rfl⟩
  trans s t u h h' := by
    refine ⟨fun o => ?_, fun o => ?_, ?_⟩
    · rw [h'.runtimeObjects o, h.runtimeObjects o]
    · rw [h'.publishers o, h.publishers o]
    · rw [h'.rest, h.rest]

section Refresh

variable {env : Platform} {s t : State}

theorem refreshes_reload (s : State) (status : ReloadStatus) :
    s.Refreshes { s with reload := status } := ⟨fun _ => rfl, fun _ => rfl, rfl⟩

theorem within_deactivateRuntime (w : World) (runtime : ObjectId) :
    Within State.Refreshes (deactivateRuntime w runtime) := by
  unfold deactivateRuntime raise
  refine Within.bind ?_ fun _ => within_modify fun s => ?_
  · split
    · exact within_pure _
    · exact within_throw _
  · refine ⟨fun o => ?_, fun _ => rfl, rfl⟩
    by_cases ho : o = runtime
    · subst ho
      simp [State.setRuntime]
    · simp [State.setRuntime, ho]

theorem refreshes_setPublisher (s : State) (publisher : ObjectId) {object : Publisher}
    (h : object = { s.publishers publisher with
      active := object.active, stopped := object.stopped }) :
    s.Refreshes (s.setPublisher publisher object) := by
  refine ⟨fun _ => rfl, fun o => ?_, rfl⟩
  by_cases ho : o = publisher
  · subst ho
    simpa [State.setPublisher] using h
  · simp [State.setPublisher, ho]

theorem within_refreshGeneration (w : World) (st : Staged) (old : Option ObjectId) :
    Within State.Refreshes (refreshGeneration w st old) := by
  unfold refreshGeneration
  refine Within.bind (within_modify fun s => refreshes_reload s _) fun _ => ?_
  refine (Within.forM (within_deactivateRuntime w) _).bind fun _ => ?_
  refine Within.bind ?_ fun _ => Within.bind ?_ fun _ => ?_
  · unfold stopPublisher
    split
    · exact within_pure _
    · exact within_modify fun s => refreshes_setPublisher s _ rfl
  · unfold raise
    split
    · exact within_pure _
    · exact within_throw _
  · exact within_modify fun s => refreshes_setPublisher s _ rfl

/-- The refresh is reported as an acceptance, however it ends. -/
theorem reportGeneration_run (w : World) (st : Staged) (old : Option ObjectId) (s : State) :
    ∃ report t, Returns (reportGeneration w st old) s report t ∧ report.accepted = true ∧
      s.Refreshes t := by
  unfold reportGeneration
  have hwithin := within_refreshGeneration w st old s
  have hcases := final_cases (refreshGeneration w st old) s
  generalize final ((refreshGeneration w st old).run s) = u at hwithin hcases
  rcases hcases with ⟨⟨⟩, hreturns⟩ | ⟨e, hthrows⟩
  · refine ⟨⟨true, ""⟩, u, returns_tryCatch.mpr (.inl ?_), rfl, hwithin⟩
    exact returns_bind.mpr ⟨(), u, hreturns, returns_pure.mpr ⟨rfl, rfl⟩⟩
  · have hbody : Throws (do
        refreshGeneration w st old
        return (⟨true, ""⟩ : Report)) s e u := throws_bind.mpr (.inl hthrows)
    cases w.report with
    | some e' =>
      refine ⟨⟨true, e'⟩, u, returns_tryCatch.mpr (.inr ⟨e, u, hbody, ?_⟩), rfl, hwithin⟩
      exact returns_pure.mpr ⟨rfl, rfl⟩
    | none =>
      refine ⟨⟨true, ""⟩, { u with reload := { u.reload with error := e } },
        returns_tryCatch.mpr (.inr ⟨e, u, hbody, ?_⟩), rfl,
        IsTrans.trans _ _ _ hwithin (refreshes_reload _ _)⟩
      exact returns_bind.mpr ⟨(), _, returns_modify.mpr rfl, returns_pure.mpr ⟨rfl, rfl⟩⟩

/-- A refreshed runtime serves what it has served. -/
theorem State.Refreshes.serves (h : s.Refreshes t) {o : ObjectId} {server : ServerConfig}
    {pv : PVConfig} {generation : Nat} {alarm : ObjectId}
    (hserves : (s.runtimeObjects o).Serves server pv generation alarm) :
    (t.runtimeObjects o).Serves server pv generation alarm := by
  rw [h.runtimeObjects o]
  exact ⟨hserves.named, hserves.configured, hserves.current, hserves.alarmed, hserves.active⟩

/-- **The refresh leaves a committed generation committed.** -/
theorem State.Refreshes.committed (h : s.Refreshes t) (hs : Committed env s) : Committed env t := by
  have htarget : ∀ o, (t.publishers o).target = (s.publishers o).target := fun o => by
    rw [h.publishers o]
  have hserves := @State.Refreshes.serves s t h
  have hrest := h.rest
  generalize t.runtimeObjects = objects at hrest hserves
  generalize t.publishers = publishers at hrest htarget
  generalize t.reload = reload at hrest
  subst hrest
  refine ⟨hs.backends, hs.adapters, ?_, hs.names, hs.keys, ?_, hs.services, hs.assembled,
    hs.catalog, hs.bindings⟩
  · obtain ⟨o, redis, ho, hredis, htarget'⟩ := hs.alarm
    exact ⟨o, redis, ho, hredis, (htarget o).trans htarget'⟩
  · intro pv hpv
    obtain ⟨o, alarm, ho, halarm, hserves'⟩ := hs.runtimes pv hpv
    exact ⟨o, alarm, ho, halarm, hserves hserves'⟩

theorem State.Refreshes.sound (h : s.Refreshes t) (hs : Sound env s) : Sound env t := by
  have hcommitted := @State.Refreshes.committed env s t h
  have hrest := h.rest
  generalize t.runtimeObjects = objects at hrest
  generalize t.publishers = publishers at hrest
  generalize t.reload = reload at hrest
  subst hrest
  exact ⟨⟨hs.range.backends, hs.range.runtimes, hs.range.alarm⟩, hs.agrees, hs.orderly,
    fun hconfig => hcommitted (hs.committed hconfig), hs.empty⟩

end Refresh

/-! ## Refusals -/

theorem allOrNothing_commit (w : World) (st : Staged) :
    AllOrNothing State.Stages (commit w st) := by
  refine AllOrNothing.andThen ?_ fun s => ⟨_, returns_modify.mpr rfl⟩
  unfold activatePolicy
  split
  · exact (within_pure _).allOrNothing
  · exact (allOrNothing_activateConfiguration w.access _).zoom fun s c hc => stages_access hc

theorem allOrNothing_publishEndpoints {endpoints : Nat} {callback : Effect State Outcome}
    (h : AllOrNothing State.Stages callback) :
    AllOrNothing State.Stages (publishEndpoints endpoints callback) := by
  unfold publishEndpoints
  refine AllOrNothing.bind within_get fun s => ?_
  split
  · exact allOrNothing_publishBindings h
  · exact allOrNothing_publishCall h

/-- A generation that is not accepted is refused, and nothing but allocation has happened. -/
theorem buildGeneration_cases (env : Platform) (w : World) (config : AppConfig) (generation : Nat)
    (s : State) :
    (∃ st t, Returns (buildGeneration env w config generation) s (.ok st) t) ∨
      ∃ e t, Returns (buildGeneration env w config generation) s (.error e) t ∧ s.Stages t := by
  unfold buildGeneration
  have hstages := within_stageGeneration env w config generation s
  rcases final_cases (stageGeneration env w config generation) s with ⟨st, hstage⟩ | ⟨e, hthrows⟩
  swap
  · refine .inr ⟨e, _, returns_tryCatch.mpr (.inr ⟨e, _, ?_, returns_pure.mpr ⟨rfl, rfl⟩⟩), hstages⟩
    exact throws_bind.mpr (.inl hthrows)
  generalize final ((stageGeneration env w config generation).run s) = u at hstages hstage
  by_cases hok : ∃ v, Returns (publishEndpoints st.endpoints (commit w st)) u (.ok ()) v
  · obtain ⟨v, hv⟩ := hok
    refine .inl ⟨st, v.install st, returns_tryCatch.mpr (.inl ?_)⟩
    exact returns_bind.mpr ⟨st, u, hstage, returns_bind.mpr ⟨.ok (), v, hv,
      returns_bind.mpr ⟨(), _, returns_modify.mpr rfl, returns_pure.mpr ⟨rfl, rfl⟩⟩⟩⟩
  · have hrefused := allOrNothing_publishEndpoints (allOrNothing_commit w st) u
      fun v hv => hok ⟨v, hv⟩
    have hall := IsTrans.trans _ _ _ hstages hrefused
    rcases final_cases (publishEndpoints st.endpoints (commit w st)) u with
      ⟨out, hreturns⟩ | ⟨e, hthrows⟩
    · cases out with
      | ok v => exact absurd ⟨_, hreturns⟩ hok
      | error e =>
        refine .inr ⟨e, _, returns_tryCatch.mpr (.inl ?_), hall⟩
        exact returns_bind.mpr ⟨st, u, hstage,
          returns_bind.mpr ⟨.error e, _, hreturns, returns_pure.mpr ⟨rfl, rfl⟩⟩⟩
    · refine .inr ⟨e, _, returns_tryCatch.mpr (.inr ⟨e, _, ?_, returns_pure.mpr ⟨rfl, rfl⟩⟩), hall⟩
      exact throws_bind.mpr (.inr ⟨st, u, hstage, throws_bind.mpr (.inl hthrows)⟩)

/-- **The two ways in which `applyGeneration` returns.** -/
theorem applyGeneration_cases (env : Platform) (w : World) (config : AppConfig) (generation : Nat)
    (s : State) :
    ∃ report t, Returns (applyGeneration env w config generation) s report t ∧
      (report.accepted = false ∧ s.Stages t ∨
        report.accepted = true ∧ ∃ st u,
          Returns (buildGeneration env w config generation) s (.ok st) u ∧ u.Refreshes t) := by
  unfold applyGeneration
  simp only [returns_get_bind]
  rcases buildGeneration_cases env w config generation s with
    ⟨st, u, hbuild⟩ | ⟨e, t, hbuild, hstages⟩
  · obtain ⟨report, t, hreport, haccepted, hrefreshes⟩ :=
      reportGeneration_run w st s.alarmPublisher u
    exact ⟨report, t, returns_bind.mpr ⟨.ok st, u, hbuild, hreport⟩,
      .inr ⟨haccepted, st, u, hbuild, hrefreshes⟩⟩
  · exact ⟨⟨false, e⟩, t, returns_bind.mpr ⟨.error e, t, hbuild, returns_pure.mpr ⟨rfl, rfl⟩⟩,
      .inl ⟨rfl, hstages⟩⟩

/-! ## All or nothing -/

/-- The running generation is exactly what it was: its parts, the objects behind them, the
    published snapshot with the flags of all registrations, and the access controller. -/
structure SameGeneration (s t : State) : Prop where
  currentConfig : t.currentConfig = s.currentConfig
  generation : t.generation = s.generation
  runtimes : t.runtimes = s.runtimes
  redisBackends : t.redisBackends = s.redisBackends
  rpcPVs : t.rpcPVs = s.rpcPVs
  rpcServices : t.rpcServices = s.rpcServices
  rpcAssignments : t.rpcAssignments = s.rpcAssignments
  alarmPublisher : t.alarmPublisher = s.alarmPublisher
  catalog : t.catalog = s.catalog
  objects : ∀ o, o < s.nextObject → t.adapters o = s.adapters o ∧
    t.publishers o = s.publishers o ∧ t.runtimeObjects o = s.runtimeObjects o
  current : t.served.current = s.served.current
  snapshot : t.served.snapshots t.served.current = s.served.snapshots s.served.current
  registrations : ∀ r, r < s.served.nextReg → t.served.registrations r = s.served.registrations r
  members : t.access.members = s.access.members
  accessMembers : ∀ m, m < s.access.nextMember → t.access.accessMembers m = s.access.accessMembers m
  accessConfig : t.access.config = s.access.config
  activePolicy : t.access.activePolicy = s.access.activePolicy
  configuredAsgs : t.access.configuredAsgs = s.access.configuredAsgs
  library : t.access.library = s.access.library

/-- The running generation is the one that was built for the candidate. -/
structure CandidateGeneration (env : Platform) (w : World) (config : AppConfig) (s t : State) :
    Prop where
  currentConfig : t.currentConfig = config
  generation : t.generation = s.generation + 1
  /-- Adapters, publisher, runtimes and endpoints are those for the configuration. -/
  committed : Committed env t
  rpc : assembleRpcPVs config t.rpcServices = .ok (t.rpcPVs, t.rpcAssignments)
  catalog : buildDiscoveryCatalog env w config t.rpcPVs t.generation = .ok t.catalog
  flags : ∀ r, t.served.everPublished r →
    ((t.served.registrations r).active = true ↔ t.served.isCurrent r)
  members : t.secured = true → Captured t.access t.access.members t.access.registry.current
  policy : t.secured = true → t.access.config = config.access ∧
    t.access.configuredAsgs = requiredAccessAsgs config ∧ PolicyFrom env.lib w.access t.access ∧
    PolicyActive env.lib t.access

/-- What a call of `applyGeneration` relies on.  The policy of the first generation has been
    activated by the startup; every later generation activates its own. -/
structure Ready (env : Platform) (w : World) (config : AppConfig) (s : State) : Prop
    extends Sound env s where
  active : s.secured = true → PolicyActive env.lib s.access
  first : s.secured = true → s.hasConfig = false → s.access.config = config.access ∧
    s.access.configuredAsgs = requiredAccessAsgs config ∧ PolicyFrom env.lib w.access s.access

section AllOrNothing

variable {env : Platform} {w : World} {config : AppConfig} {s t : State}

theorem Sound.servedOrderly (hs : Sound env s) : Orderly s.served := by
  unfold State.served
  split
  · exact ⟨hs.agrees.consistent, hs.agrees.idle⟩
  · exact hs.orderly

/-- Staging leaves the running generation alone. -/
theorem State.Stages.sameGeneration (h : s.Stages t) (hs : Sound env s) : SameGeneration s t := by
  have hrest := h.access.rest
  have hserved : PVRegistry.Extends s.served t.served := by
    unfold State.served
    rw [h.secured]
    split
    · exact h.access.registry
    · exact h.registry
  refine ⟨h.currentConfig, h.generation, h.runtimes, h.redisBackends, h.rpcPVs, h.rpcServices,
    h.rpcAssignments, h.alarmPublisher, h.catalog, ?_, hserved.current, ?_,
    hserved.registrations, h.access.members_eq, h.access.accessMembers,
    (congrArg Controller.config hrest :), (congrArg Controller.activePolicy hrest :),
    (congrArg Controller.configuredAsgs hrest :), (congrArg Controller.library hrest :)⟩
  · intro o ho
    exact ⟨h.adapters o ho, h.publishers o ho, h.runtimeObjects o ho⟩
  · rw [hserved.current]
    exact hserved.snapshots _ hs.servedOrderly.consistent.stored

/-- The policy of an accepted generation is the one for its configuration. -/
theorem GenerationBuilt.policyCurrent {st : Staged} {u v : State} {c : Controller}
    (hs : Ready env w config s) (h : GenerationBuilt env w config (s.generation + 1) s st u c v)
    (hsecured : v.secured = true) : v.access.config = config.access ∧
      v.access.configuredAsgs = requiredAccessAsgs config ∧ PolicyFrom env.lib w.access v.access ∧
      PolicyActive env.lib v.access := by
  have hbefore : s.secured = true := h.frame.2.1.symm.trans hsecured
  have hactive := h.policyActive (hs.active hbefore)
  cases hconfig : s.hasConfig with
  | true =>
    obtain ⟨hsame, hasgs, hfrom⟩ := h.policy_later (by rw [hbefore, hconfig]; rfl)
    exact ⟨hsame, hasgs, hfrom, hactive⟩
  | false =>
    obtain ⟨hsame, hasgs, hfrom⟩ := h.policy_first (by rw [hbefore, hconfig]; rfl)
    obtain ⟨hsame', hasgs', hfrom'⟩ := hs.first hbefore hconfig
    exact ⟨hsame.trans hsame', hasgs.trans hasgs', hfrom hfrom', hactive⟩

theorem GenerationBuilt.candidate {st : Staged} {u v : State} {c : Controller}
    (hs : Ready env w config s) (h : GenerationBuilt env w config (s.generation + 1) s st u c v)
    (hrefresh : v.Refreshes t) : CandidateGeneration env w config s t := by
  obtain ⟨-, -, -, hservices, hrpcs, hassignments, hcatalog⟩ := h.installed
  have hsound := hrefresh.sound (h.sound hs.toSound)
  have hcommitted := hrefresh.committed (h.committed hs.toSound)
  have hpolicy := h.policyCurrent hs
  have hrest := hrefresh.rest
  refine ⟨?_, ?_, hcommitted, ?_, ?_, ?_, ?_, ?_⟩
  · rw [hrest]
    exact h.currentConfig
  · rw [hrest]
    exact h.sameGeneration
  · rw [hrest]
    show assembleRpcPVs config v.rpcServices = .ok (v.rpcPVs, v.rpcAssignments)
    rw [hservices, hrpcs, hassignments]
    exact h.staged.assembled
  · rw [hrest]
    show buildDiscoveryCatalog env w config v.rpcPVs v.generation = .ok v.catalog
    rw [hrpcs, hcatalog, h.sameGeneration]
    exact h.staged.catalog
  · intro r hr
    exact hsound.servedOrderly.active hr
  · intro _
    exact hsound.agrees.current
  · rw [hrest]
    exact hpolicy

end AllOrNothing

end RedisPvxsIoc.Application
