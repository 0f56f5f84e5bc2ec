import RedisPvxsIoc.Application.Runs

/-!
# What Is Served

Consequences of the invariant of a run for the endpoints that a client finds: the discovery
catalog advertises exactly them, and the access group of each is defined by the active policy.

## Main results

- `advertised_eq_served`: the names of the catalog are those of the registry, and no duplicate
  check of a generation or a recovery can fail
- `servedGroups_defined`: every endpoint has a group of the active policy, which the access
  library has taken and which was read from the file in one piece
- `served_by_runtime`: a PV and its aliases are served by one runtime
-/

namespace RedisPvxsIoc.Application

open Foundations Config PVRegistry Access Discovery

section Reachable

variable {env : Platform} {s : State}

theorem serving_reachable (h : (machine env).Reachable s) (hconfig : s.hasConfig = true) :
    Serving env s := by
  rcases between_reachable h with rfl | hrunning
  · cases hconfig
  · exact ⟨hrunning, hconfig⟩

/-! ## Advertised names -/

/-- The catalog lists exactly the endpoints, none of them twice. -/
structure Advertises (catalog : DiscoveryCatalog) (bindings : PVBindings) (names : List String) :
    Prop where
  listed : catalogNames catalog.wire = some names
  distinct : names.Nodup
  served : ∀ name, name ∈ names ↔ name ∈ bindings.keys
  counted : catalog.records + catalog.aliases = bindings.size

theorem Serving.advertises (hs : Serving env s) (henabled : s.currentConfig.discovery.enabled = true)
    (hwidth : s.currentConfig.discovery.maxRecords < 2 ^ 32) :
    ∃ catalog names, s.catalog = some catalog ∧ Advertises catalog s.served.bindings names := by
  have hcommitted := hs.1.committed hs.2
  obtain ⟨w, hcatalog⟩ := hcommitted.catalog
  rw [buildDiscoveryCatalog, if_pos henabled] at hcatalog
  obtain ⟨catalog, hprepare, hsome⟩ := bind_eq_ok.mp hcatalog
  obtain ⟨hnames, hdistinct, hcount, -⟩ := prepareDiscoveryCatalog_ok hwidth hprepare
  have hserved : ∀ name, name ∈ recordNames (discoveryRecords s.currentConfig s.rpcPVs) ↔
      name ∈ s.served.bindings.keys := by
    intro name
    rw [mem_keys_generationBindings hcommitted.bindings, hs.1.admin hs.2,
      recordNames_discoveryRecords, List.mem_append, List.mem_append]
    tauto
  refine ⟨catalog, _, (Except.ok.inj hsome).symm, hnames, hdistinct, hserved, ?_⟩
  rw [hcount, ← FinMap.length_keys]
  exact ((List.perm_ext_iff_of_nodup hdistinct (FinMap.keys_nodup _)).mpr hserved).length_eq

/-- No name is taken when it is bound, emplaced or advertised. -/
structure NeverTaken (config : AppConfig) (rpcs : RpcMap) (assignments : AssignmentMap) : Prop where
  /-- `runtimes` has been filled with every PV before. -/
  bound : ∀ (admin : AdminNamespace) (runtimes : RuntimeMap), admin.server = config.server →
    (∀ pv ∈ config.pvs, fullPVName config.server pv ∈ runtimes.keys) →
    ∃ bindings, generationBindings admin config runtimes rpcs assignments = .ok bindings
  /-- The unchecked loops of a recovery lose nothing. -/
  emplaced : ∀ (admin : AdminNamespace) (runtimes : RuntimeMap) (base : PVBindings),
    admin.server = config.server →
    (∀ pv ∈ config.pvs, fullPVName config.server pv ∈ runtimes.keys) →
    admin.bindings config.access.defaults = .ok base →
    generationBindings admin config runtimes rpcs assignments =
      .ok (emplaceAll (emplaceAll base (config.pvs.flatMap (pvEntries config runtimes)))
        (rpcs.entries.flatMap (rpcEntries assignments)))
  advertised : ∀ (limits : DiscoveryConfig) (generation : Nat) (identity : FinMap String String)
    (name : String), prepareDiscoveryCatalog limits generation identity
      (discoveryRecords config rpcs) ≠ .error (duplicateError name)

theorem AssembledFor.neverTaken {config : AppConfig} {services : RpcServices} {rpcs : RpcMap}
    {assignments : AssignmentMap} (h : AssembledFor config services rpcs assignments) :
    NeverTaken config rpcs assignments where
  bound _ _ hserver hruntimes := ⟨_, h.generationBindings hserver hruntimes⟩
  emplaced _ _ _ hserver hruntimes hbase := h.recoverBindings hserver hruntimes hbase
  advertised limits generation identity name := by
    refine prepareDiscoveryCatalog_distinct ?_
    rw [recordNames_discoveryRecords]
    exact (List.Perm.append_right _ List.perm_append_comm).nodup_iff.mpr h.distinct

/-- **Advertised names are exactly the served names**, in every state between two operations
    (`max_records` is a `uint32_t`), and the duplicate checks cannot fail after an assembly. -/
theorem advertised_eq_served (env : Platform) :
    (∀ s, (machine env).Reachable s → s.hasConfig = true →
      s.currentConfig.discovery.enabled = true → s.currentConfig.discovery.maxRecords < 2 ^ 32 →
      ∃ catalog names, s.catalog = some catalog ∧ Advertises catalog s.served.bindings names) ∧
    ∀ (config : AppConfig) (services : RpcServices) (rpcs : RpcMap) (assignments : AssignmentMap),
      assembleRpcPVs config services = .ok (rpcs, assignments) →
        NeverTaken config rpcs assignments :=
  ⟨fun _ hreach hconfig => (serving_reachable hreach hconfig).advertises,
    fun _ _ _ _ hassembled => (assembleRpcPVs_ok hassembled).neverTaken⟩

/-! ## Access groups -/

/-- The groups that `requireAccessAsgs` asks for cover every endpoint. -/
theorem Serving.asg_required (hs : Serving env s) (henabled : s.currentConfig.access.enabled = true)
    {name : String} {binding : PVBinding} (hfind : s.served.bindings.find? name = some binding) :
    binding.access.asg ∈ (requiredAccessAsgs s.currentConfig).keys := by
  have hcommitted := hs.1.committed hs.2
  rw [requiredAccessAsgs, if_pos henabled, mem_nameSet]
  simp only [List.mem_append, List.mem_cons, List.mem_map]
  rcases access_generationBindings hcommitted.bindings hfind with
    hread | hwrite | ⟨pv, hpv, haccess⟩ | ⟨rpc, hrpc, hassignment⟩
  · exact .inl (.inl (.inl (by rw [hread])))
  · exact .inl (.inl (.inr (.inl (by rw [hwrite]))))
  · exact .inl (.inr ⟨pv, hpv, by rw [haccess]⟩)
  · obtain ⟨services, hservices, hassembled⟩ := hcommitted.assembled
    obtain ⟨assignment, hfound, service, hservice, rfl⟩ :=
      (assembleRpcPVs_ok hassembled).assigned rpc hrpc
    refine .inr ⟨service.config, ?_, ?_⟩
    · rw [← hservices]
      exact List.mem_map_of_mem hservice
    · rw [Option.some.inj (hassignment.symm.trans hfound)]

/-- The policy that the library has, with the one read of the file that everything recorded about
    it comes from. -/
structure PolicyInForce (lib : MacroLibrary) (c : Controller) : Prop where
  library : c.library = some c.activePolicy
  read : ∃ read, (c.config.file, read) ∈ c.reads ∧
    readTextFile c.config.file read = .ok c.observedRaw
  derived : DerivedFrom lib c.config c.observedRaw c.activePolicy c.policyFingerprint

/-- **Every endpoint has a group of the active policy.**  Before a policy was ever activated
    nothing is served. -/
theorem servedGroups_defined (h : (machine env).Reachable s) (hsecured : s.secured = true) :
    (∀ name binding, s.served.bindings.find? name = some binding →
      ∃ groups, inspectAcf s.access.activePolicy = .ok groups ∧
        groups.contains binding.access.asg = true) ∧
    (∀ groups, inspectAcf s.access.activePolicy = .ok groups →
      groups.contains "DEFAULT" = true) ∧
    (PolicyInForce env.lib s.access ∨
      s.access.library = none ∧ s.access.activePolicy = "" ∧ s.served.bindings = ∅) := by
  have hrunning : Running env s := by
    rcases between_reachable h with rfl | hrunning
    · cases hsecured
    · exact hrunning
  refine ⟨fun name binding hfind => ?_, fun _ => default_mem_inspectAcf, ?_⟩
  · cases hconfig : s.hasConfig with
    | false =>
      rw [(hrunning.empty hconfig).2.2.2] at hfind
      cases hfind
    | true =>
      have henabled : s.currentConfig.access.enabled = true :=
        (hrunning.enabled hconfig).symm.trans hsecured
      rcases hrunning.policy hsecured with hactive | ⟨hno, -⟩
      · obtain ⟨groups, hgroups, hdefined⟩ := hactive.groups
        rw [(hrunning.required hsecured hconfig).2] at hdefined
        exact ⟨groups, hgroups, hdefined _ (Serving.asg_required ⟨hrunning, hconfig⟩ henabled hfind)⟩
      · cases hno.symm.trans hconfig
  · rcases hrunning.policy hsecured with hactive | ⟨hconfig, hlibrary, hempty⟩
    · exact .inl ⟨hactive.library, hactive.read, hactive.derived⟩
    · exact .inr ⟨hlibrary, hempty, (hrunning.empty hconfig).2.2.2⟩

/-! ## Runtimes -/

/-- **A PV and its aliases are served by one runtime**, which has the configuration of the PV,
    is committed for the running generation and publishes to the running alarm publisher. -/
theorem served_by_runtime (h : (machine env).Reachable s) (hconfig : s.hasConfig = true)
    {pv : PVConfig} (hpv : pv ∈ s.currentConfig.pvs) : ∃ o alarm, s.alarmPublisher = some alarm ∧
      (s.runtimeObjects o).Serves s.currentConfig.server pv s.generation alarm ∧
      ∀ name ∈ fullPVNames s.currentConfig.server pv, s.served.bindings.find? name =
        some (runtimeBinding s.currentConfig.access pv o) := by
  have hcommitted := (serving_reachable h hconfig).1.committed hconfig
  obtain ⟨o, alarm, hfind, halarm, hserves⟩ := hcommitted.runtimes pv hpv
  obtain ⟨-, -, hadds⟩ := generationBindings_iff.mp hcommitted.bindings
  refine ⟨o, alarm, halarm, hserves, fun name hname => (hadds.find name _).mpr (.inr ?_)⟩
  refine List.mem_append_right _ (List.mem_append_left _ (List.mem_flatMap.mpr ⟨pv, hpv, ?_⟩))
  simpa [pvEntries, hfind] using hname

end Reachable

/-! ## A secured application -/

def guardedWorld : World where
  document := .ok {
    server := { «instance» := "ioc" }
    redis := some {}
    access := { enabled := true, file := "site.acf" }
    pvs := [{ name := "level", aliases := ["L1"], read := { backend := "redis", key := "level" } }] }
  access := fileWorld readPolicy

/-- The state after a startup. -/
def guardedState : State := ({ launched := true } : State).run (start smallPlatform guardedWorld)

theorem guardedState_reachable : (machine smallPlatform).Reachable guardedState :=
  (Machine.Reachable.of_start rfl).step (a := .start guardedWorld) rfl

theorem guardedState_serves : guardedState.hasConfig = true ∧ guardedState.secured = true ∧
    guardedState.currentConfig.discovery = {} ∧
    ((guardedState.served.bindings.find? "L1").map fun binding => binding.access.asg) =
      some "DEFAULT" ∧ guardedState.currentConfig.pvs ≠ [] := by
  decide +kernel

theorem advertised_eq_served_guarded : ∃ catalog names, guardedState.catalog = some catalog ∧
    Advertises catalog guardedState.served.bindings names := by
  obtain ⟨hconfig, -, hdiscovery, -⟩ := guardedState_serves
  refine (advertised_eq_served smallPlatform).1 _ guardedState_reachable hconfig ?_ ?_
  · rw [hdiscovery]
  · rw [hdiscovery]
    decide

theorem servedGroups_defined_guarded : ∃ groups,
    inspectAcf guardedState.access.activePolicy = .ok groups ∧ groups.contains "DEFAULT" = true := by
  obtain ⟨-, hsecured, -, hbound, -⟩ := guardedState_serves
  obtain ⟨binding, hfind, hasg⟩ := Option.map_eq_some_iff.mp hbound
  rw [← hasg]
  exact (servedGroups_defined guardedState_reachable hsecured).1 _ _ hfind

theorem served_by_runtime_guarded : ∃ pv ∈ guardedState.currentConfig.pvs, ∃ o,
    ∀ name ∈ fullPVNames guardedState.currentConfig.server pv,
      guardedState.served.bindings.find? name =
        some (runtimeBinding guardedState.currentConfig.access pv o) := by
  obtain ⟨pv, hpv⟩ := List.exists_mem_of_ne_nil _ guardedState_serves.2.2.2.2
  obtain ⟨o, -, -, -, hbound⟩ := served_by_runtime guardedState_reachable guardedState_serves.1 hpv
  exact ⟨pv, hpv, o, hbound⟩

end RedisPvxsIoc.Application
