import RedisPvxsIoc.Application.Staging
import RedisPvxsIoc.Config.Acceptance

/-!
# The Endpoints of a Generation

The names of a generation are reserved in one place, by `assembleRpcPVs`, and bound in two
others: `applyGeneration` refuses a name that is taken, `pumpRpcRecovery` ignores it.  A
reservation that succeeds makes all names distinct, so the refusal never happens and nothing is
ever ignored.

## Main results

- `assembleRpcPVs_ok`: what a successful assembly says about the names
- `generationBindings_iff`, `AssembledFor.generationBindings`: the endpoints that are bound, and
  that binding them succeeds after an assembly
- `AssembledFor.recoverBindings`: the unchecked loops of the recovery compute the same
- `recordNames_discoveryRecords`: the names that the catalog advertises
-/

namespace RedisPvxsIoc.Application

open Foundations Config PVRegistry Access Discovery

/-! ## Reserved names -/

/-- The names of the diagnostics and of the PVs with their aliases. -/
def configuredNames (config : AppConfig) : List String :=
  adminPVNames config.server ++ config.pvs.flatMap (fullPVNames config.server)

/-- The registry holds exactly these names, which are legal and distinct. -/
structure Reserves (r : EndpointRegistry) (names : List String) : Prop where
  legal : ∀ name ∈ names, validName name = true
  distinct : names.Nodup
  keys : ∀ name, name ∈ r.entries.keys ↔ name ∈ names

variable {r : EndpointRegistry}

theorem Reserves.reserveAll {r' : EndpointRegistry} {names : List String} {requests : List Reserve}
    (h : Reserves r names) (hall : r.reserveAll requests = .ok r') :
    Reserves r' (names ++ requests.map Reserve.name) := by
  obtain ⟨hlegal, hdistinct, hkeys⟩ := reserved_append h.legal h.distinct h.keys hall
  exact ⟨hlegal, hdistinct, hkeys⟩

theorem Reserves.reserve {r' : EndpointRegistry} {names : List String} {request : Reserve}
    (h : Reserves r names) (hone : r.reserve request = .ok r') :
    Reserves r' (names ++ [request.name]) := by
  have hall : r.reserveAll [request] = .ok r' := by
    rw [EndpointRegistry.reserveAll_cons, hone]
    rfl
  exact h.reserveAll hall

variable {config : AppConfig}

theorem configuredEndpoints_ok (h : configuredEndpoints config = .ok r) :
    Reserves r (configuredNames config) := by
  obtain ⟨r₀, hdiagnostics, hloop⟩ := bind_eq_ok.mp h
  have hempty : Reserves ({} : EndpointRegistry) [] := ⟨by simp, List.nodup_nil, by simp [FinMap.keys]⟩
  have hstart : Reserves r₀ (adminPVNames config.server) := by
    have hall := hempty.reserveAll hdiagnostics
    rw [List.nil_append, List.map_map] at hall
    simpa [Function.comp_def] using hall
  have hend := foldlM_ok (P := fun done acc => Reserves acc
    (adminPVNames config.server ++ (done.map Prod.fst).flatMap (fullPVNames config.server))) ?_
    (by simpa using hstart) hloop
  · rw [List.zipIdx_map_fst] at hend
    exact hend
  · rintro done ⟨pv, index⟩ rest acc acc' _ hacc hstep
    have hnext := hacc.reserveAll hstep
    rw [EndpointRegistry.names_pvRequests, List.append_assoc] at hnext
    simpa using hnext

/-! ## The assembly -/

def serviceNames (services : RpcServices) : List String :=
  services.flatMap fun service => service.pvs.keys

/-- The state of `assembleRpcPVs` after the RPC names in `names`; `source` are the services that
    have contributed. -/
structure Assembles (config : AppConfig) (source : List RpcServiceState) (names : List String)
    (acc : Assembly) : Prop where
  reserves : Reserves acc.endpoints (configuredNames config ++ names)
  keys : ∀ name, name ∈ acc.rpcPVs.keys ↔ name ∈ names
  assigned : ∀ name, name ∈ names → ∃ assignment, acc.assignments.find? name = some assignment ∧
    ∃ service ∈ source, assignment = service.config.access.getD config.access.defaults.rpc
  assignments : ∀ name, name ∈ acc.assignments.keys ↔ name ∈ names

section Assembly

variable {config : AppConfig} {service : RpcServiceState} {source : List RpcServiceState}
  {names : List String} {acc acc' : Assembly}

theorem Assembles.item (h : Assembles config source names acc) (hservice : service ∈ source)
    {item : String × ObjectId} (hstep : assembleItem config service acc item = .ok acc') :
    Assembles config source (names ++ [item.1]) acc' := by
  simp only [assembleItem, bind_eq_ok] at hstep
  obtain ⟨owner, -, endpoints, hreserve, hdone⟩ := hstep
  cases hdone
  have hreserves := h.reserves.reserve hreserve
  rw [List.append_assoc] at hreserves
  have hnew : item.1 ∉ names := by
    intro hmem
    have hnodup := (List.nodup_append.mp hreserves.distinct).2.1
    exact (List.disjoint_of_nodup_append hnodup) hmem (by simp)
  have hfind := acc.assignments.find?_emplace_new (mt (h.assignments item.1).mp hnew)
  refine ⟨hreserves, ?_, ?_, ?_⟩
  · intro name
    rw [FinMap.mem_keys_emplace, h.keys, List.mem_append, List.mem_singleton, or_comm]
  · intro name hname
    dsimp only
    rw [hfind]
    rcases List.mem_append.mp hname with hold | hlast
    · have hne : name ≠ item.1 := fun heq => hnew (heq ▸ hold)
      rw [if_neg hne]
      exact h.assigned name hold
    · rw [if_pos (List.mem_singleton.mp hlast)]
      exact ⟨_, rfl, service, hservice, rfl⟩
  · intro name
    rw [FinMap.mem_keys_emplace, h.assignments, List.mem_append, List.mem_singleton, or_comm]

theorem Assembles.wholeService (h : Assembles config source names acc) (hservice : service ∈ source)
    (hstep : assembleService config acc service = .ok acc') :
    Assembles config source (names ++ service.pvs.keys) acc' := by
  refine foldlM_ok (P := fun done acc => Assembles config source (names ++ done.map Prod.fst) acc)
    ?_ (by simpa using h) hstep
  intro done item rest acc acc' _ hacc hitem
  have hnext := hacc.item hservice hitem
  rw [List.append_assoc] at hnext
  simpa using hnext

end Assembly

/-- **A successful assembly**: every name of the generation is legal and served once, and every
    RPC name has the assignment of its service. -/
structure AssembledFor (config : AppConfig) (services : RpcServices) (rpcs : RpcMap)
    (assignments : AssignmentMap) : Prop where
  legal : ∀ name ∈ configuredNames config, validName name = true
  distinct : (configuredNames config ++ rpcs.keys).Nodup
  keys : ∀ name, name ∈ rpcs.keys ↔ name ∈ serviceNames services
  legalRpc : ∀ name ∈ rpcs.keys, validName name = true
  assigned : ∀ name ∈ rpcs.keys, ∃ assignment, assignments.find? name = some assignment ∧
    ∃ service ∈ services, assignment = service.config.access.getD config.access.defaults.rpc
  assignments : ∀ name, name ∈ assignments.keys ↔ name ∈ rpcs.keys

variable {services : RpcServices}

theorem assembleRpcPVs_ok {rpcs : RpcMap} {assignments : AssignmentMap}
    (h : assembleRpcPVs config services = .ok (rpcs, assignments)) :
    AssembledFor config services rpcs assignments := by
  simp only [assembleRpcPVs, bind_eq_ok] at h
  obtain ⟨endpoints, hendpoints, acc, hloop, hdone⟩ := h
  cases hdone
  have hconfigured := configuredEndpoints_ok hendpoints
  have hall : Assembles config services (serviceNames services) acc := by
    refine foldlM_ok (P := fun done acc => Assembles config services (serviceNames done) acc) ?_
      ⟨by simpa [serviceNames] using hconfigured, by simp [FinMap.keys, serviceNames],
        by simp [serviceNames], by simp [FinMap.keys, serviceNames]⟩ hloop
    intro done service rest acc acc' hservices hacc hstep
    have hnext := hacc.wholeService (by simp [hservices]) hstep
    simpa [serviceNames] using hnext
  obtain ⟨hdistinct, -, hdisjoint⟩ := List.nodup_append.mp hall.reserves.distinct
  refine ⟨hconfigured.legal, List.nodup_append.mpr ⟨hdistinct, acc.rpcPVs.keys_nodup, ?_⟩,
    hall.keys, ?_, ?_, ?_⟩
  · intro name hname other hother
    exact hdisjoint name hname other ((hall.keys other).mp hother)
  · intro name hname
    exact hall.reserves.legal name (List.mem_append_right _ ((hall.keys name).mp hname))
  · intro name hname
    exact hall.assigned name ((hall.keys name).mp hname)
  · intro name
    rw [hall.assignments, hall.keys]

/-! ## Loops that bind -/

variable {name : String} {binding : PVBinding} {bindings' : PVBindings}

variable {bindings : PVBindings}

theorem bind_iff :
    bind bindings name binding = .ok bindings' ↔ bindings.Adds [(name, binding)] bindings' := by
  rw [FinMap.adds_cons, FinMap.mem_keys_iff_contains]
  unfold bind
  cases hcontains : bindings.contains name with
  | true => simp
  | false =>
    simp only [Bool.false_eq_true, if_false, not_false_eq_true, true_and, Except.ok.injEq]
    constructor
    · rintro rfl
      exact FinMap.adds_nil _
    · intro h
      exact (FinMap.adds_nil _).unique h

/-- The endpoints of a PV, once its runtime is known. -/
def pvEntries (config : AppConfig) (runtimes : RuntimeMap) (pv : PVConfig) :
    List (String × PVBinding) :=
  (runtimes.find? (fullPVName config.server pv)).elim [] fun runtime =>
    (fullPVNames config.server pv).map fun name => (name, runtimeBinding config.access pv runtime)

def rpcEntries (assignments : AssignmentMap) (rpc : String × ObjectId) : List (String × PVBinding) :=
  (assignments.find? rpc.1).elim [] fun assignment => [(rpc.1, rpcBinding assignment rpc.2)]

variable {pv : PVConfig}

theorem bindPV_iff {runtimes : RuntimeMap} :
    bindPV config runtimes bindings pv = .ok bindings' ↔
      fullPVName config.server pv ∈ runtimes.keys ∧
        bindings.Adds (pvEntries config runtimes pv) bindings' := by
  unfold bindPV pvEntries
  rw [bind_eq_ok, FinMap.mem_keys]
  have hloop : ∀ runtime, (fullPVNames config.server pv).foldlM (fun acc name =>
      bind acc name (runtimeBinding config.access pv runtime)) bindings = .ok bindings' ↔
      bindings.Adds ((fullPVNames config.server pv).map fun name =>
        (name, runtimeBinding config.access pv runtime)) bindings' := by
    intro runtime
    have hone : ∀ acc name acc', bind acc name (runtimeBinding config.access pv runtime) = .ok acc' ↔
        True ∧ acc.Adds [(name, runtimeBinding config.access pv runtime)] acc' := by
      intro acc name acc'
      rw [bind_iff, true_and]
    rw [FinMap.foldlM_adds_iff hone, List.map_eq_flatMap]
    simp
  simp only [atKey_ok, hloop]
  cases hfind : runtimes.find? (fullPVName config.server pv) with
  | none => simp
  | some runtime => simp

variable {rpc : String × ObjectId}

theorem bindRpc_iff {assignments : AssignmentMap} :
    bindRpc assignments bindings rpc = .ok bindings' ↔
      rpc.1 ∈ assignments.keys ∧ bindings.Adds (rpcEntries assignments rpc) bindings' := by
  unfold bindRpc rpcEntries
  rw [bind_eq_ok, FinMap.mem_keys]
  simp only [atKey_ok, bind_iff]
  cases hfind : assignments.find? rpc.1 with
  | none => simp
  | some assignment => simp

/-! ## The diagnostics -/

/-- The places where `AdminNamespace::bindings` adds diagnostics with a name of their own. -/
theorem diagnostics_names (server : ServerConfig) : (diagnostics server).map Prod.fst =
    (["config:lastDiff", "config:reloadStatus", "stats:operations", "rpc:status", "alarms:status",
      "discovery:status", "config:reload"].map (adminPVName server)) ++
    (versionPVName server :: revisionPVName server ::
      (["version", "revision", "config:generation", "config:lastStatus", "config:lastError",
        "stats:pvCount", "stats:ndarrayInvalidFrames", "stats:ndarraySkippedFrames",
        "stats:ndarrayDiscontinuities", "backend:health", "source:status", "ready",
        "access:reload", "access:enabled", "access:generation", "access:lastStatus",
        "access:lastError", "access:policyFingerprint", "access:watchStatus",
        "access:activeClients", "access:deniedReads", "access:deniedWrites",
        "access:rightsChanges", "access:operations"].map (adminPVName server))) := rfl

/-- **The installed diagnostics are the reserved ones**, in another order. -/
theorem diagnostics_perm (server : ServerConfig) :
    ((diagnostics server).map Prod.fst).Perm (adminPVNames server) := by
  rw [diagnostics_names]
  refine (List.perm_append_comm).trans ?_
  rw [List.cons_append, List.cons_append, ← List.map_append]
  refine List.Perm.cons _ (List.Perm.cons _ (List.Perm.map _ ?_))
  decide +kernel

/-- What `AdminNamespace::bindings` adds. -/
def AdminNamespace.entries (admin : AdminNamespace) (defaults : AccessDefaultsConfig) :
    List (String × PVBinding) :=
  (diagnostics admin.server).zipIdx.map fun item =>
    (item.1.1, admin.binding defaults item.1.2 item.2)

theorem AdminNamespace.names_entries (admin : AdminNamespace) (defaults : AccessDefaultsConfig) :
    (admin.entries defaults).map Prod.fst = (diagnostics admin.server).map Prod.fst := by
  unfold AdminNamespace.entries
  rw [List.map_map]
  show (diagnostics admin.server).zipIdx.map (Prod.fst ∘ Prod.fst) = _
  rw [← List.map_map, List.zipIdx_map_fst]

variable {base : PVBindings}

section Admin

variable {admin : AdminNamespace} {defaults : AccessDefaultsConfig}

/-- The reservations and the bindings of the loop hold the same names. -/
theorem foldlM_add_iff {items : List ((String × Bool) × Nat)} {bs bs' : PVBindings}
    (hkeys : ∀ name, name ∈ r.entries.keys ↔ name ∈ bs.keys) :
    (∃ r', items.foldlM (admin.add defaults) (r, bs) = .ok (r', bs')) ↔
      (∀ item ∈ items, validName item.1.1 = true) ∧
        bs.Adds (items.map fun item => (item.1.1, admin.binding defaults item.1.2 item.2)) bs' := by
  induction items generalizing r bs with
  | nil =>
    simp only [List.foldlM_nil, List.not_mem_nil, List.map_nil, pure, Except.pure,
      Except.ok.injEq, Prod.mk.injEq, exists_eq_left', false_implies, implies_true, true_and]
    exact ⟨fun h => h ▸ FinMap.adds_nil bs, fun h => (FinMap.adds_nil bs).unique h⟩
  | cons item items ih =>
    simp only [List.foldlM_cons, bind_eq_ok, List.map_cons, FinMap.adds_cons, List.forall_mem_cons]
    have hfree : r.entries.find? item.1.1 = none ↔ item.1.1 ∉ bs.keys := by
      rw [← hkeys, FinMap.mem_keys]
      cases r.entries.find? item.1.1 with
      | none => simp
      | some v => simp
    have hadd : ∀ acc, admin.add defaults (r, bs) item = .ok acc ↔
        validName item.1.1 = true ∧ item.1.1 ∉ bs.keys ∧ acc =
          (⟨r.entries.insert item.1.1 ⟨.diagnostic, "runtime"⟩⟩,
            bs.insert item.1.1 (admin.binding defaults item.1.2 item.2)) := by
      intro acc
      unfold AdminNamespace.add
      simp only [bind_eq_ok, EndpointRegistry.reserve_ok_iff, hfree]
      constructor
      · rintro ⟨r', ⟨hvalid, hnew, rfl⟩, hdone⟩
        cases hdone
        refine ⟨hvalid, hnew, ?_⟩
        rw [FinMap.emplace, if_neg (fun h => hnew (bs.mem_keys_iff_contains.mpr h))]
      · rintro ⟨hvalid, hnew, rfl⟩
        refine ⟨_, ⟨hvalid, hnew, rfl⟩, ?_⟩
        rw [FinMap.emplace, if_neg (fun h => hnew (bs.mem_keys_iff_contains.mpr h))]
        rfl
    have hkeys' : ∀ name,
        name ∈ (r.entries.insert item.1.1 (⟨.diagnostic, "runtime"⟩ : EndpointReservation)).keys ↔
          name ∈ (bs.insert item.1.1 (admin.binding defaults item.1.2 item.2)).keys := by
      intro name
      rw [FinMap.mem_keys_insert, FinMap.mem_keys_insert, hkeys]
    constructor
    · rintro ⟨r', acc, hacc, hrest⟩
      obtain ⟨hvalid, hnew, rfl⟩ := (hadd acc).mp hacc
      obtain ⟨hvalids, hadds⟩ := (ih hkeys').mp ⟨r', hrest⟩
      exact ⟨⟨hvalid, hvalids⟩, hnew, hadds⟩
    · rintro ⟨⟨hvalid, hvalids⟩, hnew, hadds⟩
      obtain ⟨r', hrest⟩ := (ih hkeys').mpr ⟨hvalids, hadds⟩
      exact ⟨r', _, (hadd _).mpr ⟨hvalid, hnew, rfl⟩, hrest⟩

/-- The two checks at the end of `AdminNamespace::bindings` always pass. -/
theorem adminBindings_iff : admin.bindings defaults = .ok base ↔
    (∀ name ∈ adminPVNames admin.server, validName name = true) ∧
      FinMap.Adds ∅ (admin.entries defaults) base := by
  have hperm := diagnostics_perm admin.server
  have hvalid : (∀ item ∈ (diagnostics admin.server).zipIdx, validName item.1.1 = true) ↔
      ∀ name ∈ adminPVNames admin.server, validName name = true := by
    have hnames : (diagnostics admin.server).zipIdx.map (fun item => item.1.1) =
        (diagnostics admin.server).map Prod.fst := by
      rw [← List.zipIdx_map_fst 0 (diagnostics admin.server), List.map_map, List.zipIdx_map_fst]
      rfl
    constructor
    · intro h name hname
      rw [← hperm.mem_iff, ← hnames] at hname
      obtain ⟨item, hitem, rfl⟩ := List.mem_map.mp hname
      exact h item hitem
    · intro h item hitem
      refine h _ ?_
      rw [← hperm.mem_iff, ← hnames]
      exact List.mem_map.mpr ⟨item, hitem, rfl⟩
  have hloop : (∃ r', (diagnostics admin.server).zipIdx.foldlM (admin.add defaults) ({}, ∅) =
      .ok (r', base)) ↔ _ := foldlM_add_iff (by simp [FinMap.keys])
  rw [hvalid] at hloop
  -- what the loop has added has the reserved names, so neither check can fail
  have hchecks : FinMap.Adds ∅ (admin.entries defaults) base →
      base.size = (adminPVNames admin.server).length ∧
        (adminPVNames admin.server).find? (fun name => !base.contains name) = none := by
    intro hadds
    have hkeys : ∀ name, name ∈ base.keys ↔ name ∈ adminPVNames admin.server := by
      intro name
      rw [hadds.mem_keys, admin.names_entries, hperm.mem_iff]
      simp [FinMap.keys]
    refine ⟨?_, ?_⟩
    · rw [← FinMap.length_keys]
      exact ((List.perm_ext_iff_of_nodup base.keys_nodup (nodup_adminPVNames _)).mpr hkeys).length_eq
    · rw [List.find?_eq_none]
      intro name hname
      rw [(base.mem_keys_iff_contains).mp ((hkeys name).mpr hname)]
      decide
  unfold AdminNamespace.bindings
  rw [bind_eq_ok]
  constructor
  · rintro ⟨⟨r', bs⟩, hrun, hrest⟩
    have hbs : bs = base := by
      dsimp only at hrest
      split at hrest
      · split at hrest
        · cases hrest
        · cases hrest
          rfl
      · cases hrest
    subst hbs
    exact hloop.mp ⟨r', hrun⟩
  · intro h
    obtain ⟨r', hrun⟩ := hloop.mpr h
    obtain ⟨hsize, hnone⟩ := hchecks h.2
    refine ⟨_, hrun, ?_⟩
    simp only [hsize, hnone, if_true]
    rfl

end Admin

/-! ## The endpoints of a generation -/

section Generation

variable {admin : AdminNamespace} {config : AppConfig} {runtimes : RuntimeMap} {rpcs : RpcMap}
  {assignments : AssignmentMap} {bindings : PVBindings}

/-- All endpoints but the diagnostics. -/
def generationEntries (config : AppConfig) (runtimes : RuntimeMap) (rpcs : RpcMap)
    (assignments : AssignmentMap) : List (String × PVBinding) :=
  config.pvs.flatMap (pvEntries config runtimes) ++ rpcs.entries.flatMap (rpcEntries assignments)

/-- Every PV has its runtime and every RPC name its assignment. -/
structure Resolved (config : AppConfig) (runtimes : RuntimeMap) (rpcs : RpcMap)
    (assignments : AssignmentMap) : Prop where
  runtimes : ∀ pv ∈ config.pvs, fullPVName config.server pv ∈ runtimes.keys
  rpcs : ∀ rpc ∈ rpcs.entries, rpc.1 ∈ assignments.keys

/-- **Binding the endpoints of a generation** succeeds exactly when all look-ups do and the
    names are legal, new and distinct. -/
theorem generationBindings_iff :
    generationBindings admin config runtimes rpcs assignments = .ok bindings ↔
      (∀ name ∈ adminPVNames admin.server, validName name = true) ∧
        Resolved config runtimes rpcs assignments ∧
        FinMap.Adds ∅ (admin.entries config.access.defaults ++
          generationEntries config runtimes rpcs assignments) bindings := by
  have hpvs := FinMap.foldlM_adds_iff
    (fun acc pv acc' => (bindPV_iff : bindPV config runtimes acc pv = .ok acc' ↔ _)) config.pvs
  have hrpcs := FinMap.foldlM_adds_iff
    (fun acc rpc acc' => (bindRpc_iff : bindRpc assignments acc rpc = .ok acc' ↔ _)) rpcs.entries
  unfold generationBindings generationEntries
  simp only [bind_eq_ok, adminBindings_iff, FinMap.adds_append, hpvs, hrpcs]
  constructor
  · rintro ⟨base, ⟨hvalid, hbase⟩, mid, ⟨hruntimes, hmid⟩, hrpcs, hlast⟩
    exact ⟨hvalid, ⟨hruntimes, hrpcs⟩, base, hbase, mid, hmid, hlast⟩
  · rintro ⟨hvalid, hresolved, base, hbase, mid, hmid, hlast⟩
    exact ⟨base, ⟨hvalid, hbase⟩, mid, ⟨hresolved.runtimes, hmid⟩, hresolved.rpcs, hlast⟩

theorem names_pvEntries (h : fullPVName config.server pv ∈ runtimes.keys) :
    (pvEntries config runtimes pv).map Prod.fst = fullPVNames config.server pv := by
  obtain ⟨runtime, hfind⟩ := runtimes.mem_keys.mp h
  simp [pvEntries, hfind, Function.comp_def]

theorem names_rpcEntries (h : rpc.1 ∈ assignments.keys) :
    (rpcEntries assignments rpc).map Prod.fst = [rpc.1] := by
  obtain ⟨assignment, hfind⟩ := assignments.mem_keys.mp h
  simp [rpcEntries, hfind]

/-- The names that are bound, in the order of the loops. -/
theorem names_generationEntries (h : Resolved config runtimes rpcs assignments) :
    (generationEntries config runtimes rpcs assignments).map Prod.fst =
      config.pvs.flatMap (fullPVNames config.server) ++ rpcs.keys := by
  have hpvs : (config.pvs.flatMap (pvEntries config runtimes)).map Prod.fst =
      config.pvs.flatMap (fullPVNames config.server) := by
    rw [List.map_flatMap]
    exact List.flatMap_congr fun pv hpv => names_pvEntries (h.runtimes pv hpv)
  have hrpcs : (rpcs.entries.flatMap (rpcEntries assignments)).map Prod.fst = rpcs.keys := by
    rw [List.map_flatMap, List.flatMap_congr fun rpc hrpc => names_rpcEntries (h.rpcs rpc hrpc),
      ← List.map_eq_flatMap]
    rfl
  rw [generationEntries, List.map_append, hpvs, hrpcs]

/-- The names of all endpoints are distinct once the assembly has succeeded. -/
theorem AssembledFor.nodup_names (h : AssembledFor config services rpcs assignments)
    (hserver : admin.server = config.server)
    (hresolved : Resolved config runtimes rpcs assignments) :
    ((admin.entries config.access.defaults ++
      generationEntries config runtimes rpcs assignments).map Prod.fst).Nodup := by
  rw [List.map_append, admin.names_entries, names_generationEntries hresolved, hserver]
  refine (List.Perm.append_right _ (diagnostics_perm config.server)).nodup_iff.mpr ?_
  rw [← List.append_assoc]
  exact h.distinct

theorem AssembledFor.resolved (h : AssembledFor config services rpcs assignments)
    (hruntimes : ∀ pv ∈ config.pvs, fullPVName config.server pv ∈ runtimes.keys) :
    Resolved config runtimes rpcs assignments := by
  refine ⟨hruntimes, fun rpc hrpc => ?_⟩
  rw [h.assignments]
  exact List.mem_map_of_mem hrpc

/-- **Binding never fails** after an assembly for the server of the diagnostics. -/
theorem AssembledFor.generationBindings (h : AssembledFor config services rpcs assignments)
    (hserver : admin.server = config.server)
    (hruntimes : ∀ pv ∈ config.pvs, fullPVName config.server pv ∈ runtimes.keys) :
    generationBindings admin config runtimes rpcs assignments =
      .ok ((admin.entries config.access.defaults ++
        generationEntries config runtimes rpcs assignments).foldl
          (fun acc entry => acc.emplace entry.1 entry.2) ∅) := by
  have hresolved := h.resolved hruntimes
  refine generationBindings_iff.mpr ⟨?_, hresolved, ?_⟩
  · rw [hserver]
    exact fun name hname => h.legal name (List.mem_append_left _ hname)
  · exact FinMap.adds_emplace (by simp [FinMap.keys]) (h.nodup_names hserver hresolved)

/-- The names that are served. -/
theorem mem_keys_generationBindings
    (h : Application.generationBindings admin config runtimes rpcs assignments = .ok bindings)
    (name : String) : name ∈ bindings.keys ↔ name ∈ adminPVNames admin.server ∨
      name ∈ config.pvs.flatMap (fullPVNames config.server) ∨ name ∈ rpcs.keys := by
  obtain ⟨-, hresolved, hadds⟩ := generationBindings_iff.mp h
  rw [hadds.mem_keys, List.map_append, List.mem_append, admin.names_entries,
    (diagnostics_perm admin.server).mem_iff, names_generationEntries hresolved, List.mem_append]
  simp [FinMap.keys]

theorem binding_of_mem_pvEntries (h : (name, binding) ∈ pvEntries config runtimes pv) :
    ∃ runtime, binding = runtimeBinding config.access pv runtime := by
  unfold pvEntries at h
  cases hruntime : runtimes.find? (fullPVName config.server pv) with
  | none => simp [hruntime] at h
  | some runtime =>
    rw [hruntime] at h
    obtain ⟨served, -, heq⟩ := List.mem_map.mp h
    cases heq
    exact ⟨runtime, rfl⟩

theorem binding_of_mem_rpcEntries (h : (name, binding) ∈ rpcEntries assignments rpc) :
    ∃ assignment, assignments.find? rpc.1 = some assignment ∧
      binding = rpcBinding assignment rpc.2 := by
  unfold rpcEntries at h
  cases hassignment : assignments.find? rpc.1 with
  | none => simp [hassignment] at h
  | some assignment =>
    rw [hassignment] at h
    cases List.mem_singleton.mp h
    exact ⟨assignment, rfl, rfl⟩

/-- The group of every endpoint is one of the configured ones. -/
theorem access_generationBindings
    (h : Application.generationBindings admin config runtimes rpcs assignments = .ok bindings)
    (hfind : bindings.find? name = some binding) :
    binding.access = config.access.defaults.adminRead ∨
      binding.access = config.access.defaults.adminWrite ∨
      (∃ pv ∈ config.pvs, binding.access = pv.access.getD config.access.defaults.pv) ∨
      ∃ rpc ∈ rpcs.keys, assignments.find? rpc = some binding.access := by
  obtain ⟨-, -, hadds⟩ := generationBindings_iff.mp h
  rcases (hadds.find name binding).mp hfind with hnone | hmem
  · cases hnone
  · rcases List.mem_append.mp hmem with hadmin | hrest
    · obtain ⟨item, -, heq⟩ := List.mem_map.mp hadmin
      cases heq
      unfold AdminNamespace.binding
      cases item.1.2 with
      | true => exact .inr (.inl rfl)
      | false => exact .inl rfl
    · rcases List.mem_append.mp hrest with hpvs | hrpcs
      · obtain ⟨pv, hpv, hentry⟩ := List.mem_flatMap.mp hpvs
        obtain ⟨runtime, rfl⟩ := binding_of_mem_pvEntries hentry
        exact .inr (.inr (.inl ⟨pv, hpv, rfl⟩))
      · obtain ⟨rpc, hrpc, hentry⟩ := List.mem_flatMap.mp hrpcs
        obtain ⟨assignment, hassignment, rfl⟩ := binding_of_mem_rpcEntries hentry
        exact .inr (.inr (.inr ⟨rpc.1, List.mem_map_of_mem hrpc, hassignment⟩))

/-- A diagnostic is served by the `SharedPV` with its place, everything else by its owner. -/
theorem pv_generationBindings
    (h : Application.generationBindings admin config runtimes rpcs assignments = .ok bindings)
    (hfind : bindings.find? name = some binding) :
    (∃ command place, ((name, command), place) ∈ (diagnostics admin.server).zipIdx ∧
        binding.pv = some (admin.object + 1 + place)) ∨
      (name ∉ adminPVNames admin.server ∧ binding.pv = binding.owner) := by
  obtain ⟨-, -, hadds⟩ := generationBindings_iff.mp h
  rcases (hadds.find name binding).mp hfind with hnone | hmem
  · cases hnone
  · rcases List.mem_append.mp hmem with hadmin | hrest
    · obtain ⟨item, hitem, heq⟩ := List.mem_map.mp hadmin
      cases heq
      exact .inl ⟨item.1.2, item.2, hitem, rfl⟩
    · -- a name that is bound later is not the name of a diagnostic
      have hnot : name ∉ adminPVNames admin.server := by
        rw [← (diagnostics_perm admin.server).mem_iff, ← admin.names_entries config.access.defaults]
        intro hmem'
        have hnodup := hadds.distinct
        rw [List.map_append] at hnodup
        exact (List.disjoint_of_nodup_append hnodup) hmem' (List.mem_map.mpr ⟨_, hrest, rfl⟩)
      refine .inr ⟨hnot, ?_⟩
      rcases List.mem_append.mp hrest with hpvs | hrpcs
      · obtain ⟨pv, -, hentry⟩ := List.mem_flatMap.mp hpvs
        obtain ⟨runtime, rfl⟩ := binding_of_mem_pvEntries hentry
        rfl
      · obtain ⟨rpc, -, hentry⟩ := List.mem_flatMap.mp hrpcs
        obtain ⟨assignment, -, rfl⟩ := binding_of_mem_rpcEntries hentry
        rfl

/-! ## Unchecked emplacement -/

/-- Emplace every entry whose name is new. -/
def emplaceAll (bindings : PVBindings) (entries : List (String × PVBinding)) : PVBindings :=
  entries.foldl (fun acc entry => acc.emplace entry.1 entry.2) bindings

theorem emplaceAll_append (bindings : PVBindings) (l l' : List (String × PVBinding)) :
    emplaceAll bindings (l ++ l') = emplaceAll (emplaceAll bindings l) l' :=
  List.foldl_append

theorem returns_recoverPV {w : World} {alarm : ObjectId} {generation : Nat}
    {acc acc' : RecoveryStage} {s t : State}
    (h : Returns (recoverPV w config runtimes alarm generation acc pv) s acc' t) :
    t = s ∧ ∃ o, runtimes.find? (fullPVName config.server pv) = some o ∧
      (s.runtimeObjects o).alive = true ∧
      acc'.updates = acc.updates ++ [⟨o, pv, generation, alarm⟩] ∧
      acc'.bindings = emplaceAll acc.bindings (pvEntries config runtimes pv) := by
  unfold recoverPV at h
  obtain ⟨o, t₁, hat, hrest⟩ := returns_bind.mp h
  obtain ⟨hfind, rfl⟩ := returns_ofExcept.mp hat
  obtain ⟨update, t₂, hprepare, hpure⟩ := returns_bind.mp hrest
  obtain ⟨rfl, rfl, halive⟩ := returns_prepareReconfigure hprepare
  obtain ⟨rfl, rfl⟩ := returns_pure.mp hpure
  refine ⟨rfl, o, atKey_ok.mp hfind, halive, rfl, ?_⟩
  rw [emplaceAll, pvEntries, atKey_ok.mp hfind]
  simp only [Option.elim_some, List.foldl_map]

theorem recoverRpc_ok {acc acc' : PVBindings} (h : recoverRpc assignments acc rpc = .ok acc') :
    acc' = emplaceAll acc (rpcEntries assignments rpc) := by
  unfold recoverRpc at h
  obtain ⟨assignment, hat, hpure⟩ := bind_eq_ok.mp h
  cases hpure
  simp [emplaceAll, rpcEntries, atKey_ok.mp hat]

/-- What the loop of the recovery over the PVs has prepared after those in `done`. -/
structure PVsRecovered (config : AppConfig) (runtimes : RuntimeMap) (alarm : ObjectId)
    (generation : Nat) (base : PVBindings) (s : State) (done : List PVConfig)
    (acc : RecoveryStage) (t : State) : Prop where
  state : t = s
  found : ∀ pv ∈ done, ∃ o, runtimes.find? (fullPVName config.server pv) = some o ∧
    (s.runtimeObjects o).alive = true
  updates : acc.updates = done.filterMap fun pv =>
    (runtimes.find? (fullPVName config.server pv)).map fun o => ⟨o, pv, generation, alarm⟩
  bindings : acc.bindings = emplaceAll base (done.flatMap (pvEntries config runtimes))

theorem returns_recoverPVs {w : World} {alarm : ObjectId} {generation : Nat} {acc : RecoveryStage}
    {s t : State} (h : Returns (config.pvs.foldlM (recoverPV w config runtimes alarm generation)
      { bindings := base }) s acc t) :
    PVsRecovered config runtimes alarm generation base s config.pvs acc t := by
  refine foldlM_returns (P := PVsRecovered config runtimes alarm generation base s) ?_
    ⟨rfl, by simp, rfl, rfl⟩ h
  intro done pv rest acc u acc' u' _ hacc hturn
  obtain ⟨rfl, o, hfind, halive, hupdates, hbindings⟩ := returns_recoverPV hturn
  refine ⟨hacc.state, ?_, ?_, ?_⟩
  · intro pv' hpv'
    rcases List.mem_append.mp hpv' with hold | hlast
    · exact hacc.found pv' hold
    · rw [List.mem_singleton.mp hlast]
      exact ⟨o, hfind, hacc.state ▸ halive⟩
  · rw [hupdates, hacc.updates]
    simp [hfind]
  · rw [hbindings, hacc.bindings, ← emplaceAll_append]
    simp

theorem recoverRpcs_ok (h : rpcs.entries.foldlM (recoverRpc assignments) base = .ok bindings) :
    bindings = emplaceAll base (rpcs.entries.flatMap (rpcEntries assignments)) := by
  refine foldlM_ok (P := fun done acc =>
    acc = emplaceAll base (done.flatMap (rpcEntries assignments))) ?_ rfl h
  intro done rpc rest acc acc' _ hacc hstep
  rw [recoverRpc_ok hstep, hacc, ← emplaceAll_append]
  simp

/-- **Nothing is dropped by the recovery**: the bindings that it emplaces without a check are
    those of a generation. -/
theorem AssembledFor.recoverBindings (h : AssembledFor config services rpcs assignments)
    (hserver : admin.server = config.server)
    (hruntimes : ∀ pv ∈ config.pvs, fullPVName config.server pv ∈ runtimes.keys)
    (hbase : admin.bindings config.access.defaults = .ok base) :
    Application.generationBindings admin config runtimes rpcs assignments =
      .ok (emplaceAll (emplaceAll base (config.pvs.flatMap (pvEntries config runtimes)))
        (rpcs.entries.flatMap (rpcEntries assignments))) := by
  have hresolved : Resolved config runtimes rpcs assignments := h.resolved hruntimes
  have hnodup := h.nodup_names hserver hresolved
  rw [List.map_append] at hnodup
  -- the diagnostics are emplaced into an empty map
  have hadmin : base = emplaceAll ∅ (admin.entries config.access.defaults) :=
    (adminBindings_iff.mp hbase).2.unique
      (FinMap.adds_emplace (by simp [FinMap.keys]) (List.Nodup.of_append_left hnodup))
  rw [h.generationBindings hserver hruntimes, ← emplaceAll_append, hadmin, ← emplaceAll_append]
  rfl

end Generation

/-! ## The advertised names -/

/-- The catalog lists the PVs with their aliases, the diagnostics and the RPC names. -/
theorem recordNames_discoveryRecords (config : AppConfig) (rpcs : RpcMap) :
    recordNames (discoveryRecords config rpcs) =
      config.pvs.flatMap (fullPVNames config.server) ++ adminPVNames config.server ++
        rpcs.keys := by
  have hplain : ∀ (type : String) (names : List String),
      (names.map (plainRecord type)).flatMap (fun record => record.name :: record.aliases) =
        names := by
    intro type names
    rw [List.flatMap_map]
    exact List.flatMap_singleton' names
  unfold recordNames discoveryRecords
  rw [List.flatMap_append, List.flatMap_append, hplain, hplain, List.flatMap_map]
  rfl

end RedisPvxsIoc.Application
