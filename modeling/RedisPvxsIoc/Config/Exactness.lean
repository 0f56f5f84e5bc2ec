import RedisPvxsIoc.Config.Diff
import RedisPvxsIoc.Config.Parse

/-!
# An Empty Diff Means No Difference

The comparisons of the diff cover every field of an accepted configuration but `legacyInput`.
Two lists are compared as sets, the PVs by their names and the aliases of a PV, and both have no
duplicates in a configuration that `parseConfig` accepts.

## Main results

- `find?_pvsByName`: the join of the diff finds every PV
- `diffConfigs_exact`: the diff is empty exactly for configurations that are equal up to order,
  and it is symmetric
-/

namespace RedisPvxsIoc.Config

open Foundations

/-- The PV with its aliases in a fixed order. -/
def PVConfig.canonical (pv : PVConfig) : PVConfig :=
  { pv with aliases := pv.aliases.insertionSort (· ≤ ·) }

/-- Equal in every field but `legacyInput`, up to the order of the PVs and of their aliases. -/
structure SameUpToOrder (a b : AppConfig) : Prop where
  schemaVersion : a.schemaVersion = b.schemaVersion
  server : a.server = b.server
  access : a.access = b.access
  redisBackends : a.redisBackends = b.redisBackends
  alarms : a.alarms = b.alarms
  channelFinder : a.channelFinder = b.channelFinder
  discovery : a.discovery = b.discovery
  limits : a.limits = b.limits
  pvs : (a.pvs.map PVConfig.canonical).Perm (b.pvs.map PVConfig.canonical)
  rpcServices : a.rpcServices = b.rpcServices

structure EmptyDiff (d : ConfigDiff) : Prop where
  added : d.added = []
  removed : d.removed = []
  replaced : d.replaced = []
  metadataChanged : d.metadataChanged = []
  aliasesChanged : d.aliasesChanged = []
  accessChanged : d.accessChanged = []
  backendsChanged : d.backendsChanged = []
  rpcServicesChanged : d.rpcServicesChanged = []
  restartRequired : d.restartRequired = []
  alarmStreamChanged : d.alarmStreamChanged = false
  catalogMetadataChanged : d.catalogMetadataChanged = false

/-! ## Accepted configurations -/

section Accepted

variable {root : Sections} {config : AppConfig} {pv : PVConfig} {name : String}

theorem parseConfig_schemaVersion (h : parseConfig root = .ok config) :
    config.schemaVersion = 1 := by
  simp only [parseConfig, bind_eq_ok] at h
  obtain ⟨_, hversion, limits, -, -, -, backends, -, -, -, backend, -, loop, -, rpcServices, -,
    -, -, -, -, h⟩ := h
  cases h
  simpa using check_ok_iff.mp hversion

theorem ServesPVs.names_nodup (h : ServesPVs config) :
    (config.pvs.map (fullPVName config.server)).Nodup :=
  nodup_fullPVName (List.nodup_append.mp h.distinct).2.1

theorem ServesPVs.aliases_nodup (h : ServesPVs config) (hpv : pv ∈ config.pvs) :
    pv.aliases.Nodup :=
  ((List.nodup_flatMap.mp (List.nodup_append.mp h.distinct).2.1).1 pv hpv).of_cons

/-- The PVs of an accepted configuration are found under their names. -/
theorem find?_pvsByName (h : ServesPVs config) : (pvsByName config).find? name = some pv ↔
    pv ∈ config.pvs ∧ fullPVName config.server pv = name := by
  constructor
  · intro hfind
    obtain ⟨p, hp, heq⟩ := List.mem_map.mp (FinMap.mem_of_find?_ofList hfind)
    obtain ⟨rfl, rfl⟩ := Prod.mk.inj heq
    exact ⟨hp, rfl⟩
  · rintro ⟨hpv, rfl⟩
    refine FinMap.find?_ofList_of_mem ?_ (List.mem_map.mpr ⟨pv, hpv, rfl⟩)
    simpa [Function.comp_def] using h.names_nodup

theorem mem_keys_pvsByName (h : ServesPVs config) : name ∈ (pvsByName config).keys ↔
    name ∈ config.pvs.map (fullPVName config.server) := by
  rw [FinMap.mem_keys, List.mem_map]
  simp only [find?_pvsByName h]

theorem nodup_canonical (h : ServesPVs config) : (config.pvs.map PVConfig.canonical).Nodup := by
  refine List.Nodup.of_map (fullPVName config.server) ?_
  rw [List.map_map]
  exact h.names_nodup

end Accepted

/-! ## PVs that do not differ -/

/-- None of the comparisons of the first loop finds a difference. -/
structure Unchanged (p q : PVConfig) : Prop where
  aliases : aliasSet p = aliasSet q
  topology : sameReaderTopology p q = true
  metadata : metadataDiffers p q = false
  access : sameAssignment p.access q.access = true

variable {p : PVConfig}

theorem aliasSet_eq_iff {q : PVConfig} (hp : p.aliases.Nodup) (hq : q.aliases.Nodup) :
    aliasSet p = aliasSet q ↔
      p.aliases.insertionSort (· ≤ ·) = q.aliases.insertionSort (· ≤ ·) := by
  have hsort : p.aliases.insertionSort (· ≤ ·) = q.aliases.insertionSort (· ≤ ·) ↔
      ∀ name, name ∈ p.aliases ↔ name ∈ q.aliases := by
    rw [← List.perm_ext_iff_of_nodup hp hq]
    constructor
    · intro h
      have hp := List.perm_insertionSort (· ≤ ·) p.aliases
      rw [h] at hp
      exact hp.symm.trans (List.perm_insertionSort _ _)
    · intro h
      exact ((List.perm_insertionSort _ _).trans (h.trans
        (List.perm_insertionSort _ _).symm)).eq_of_pairwise' (List.pairwise_insertionSort _ _)
          (List.pairwise_insertionSort _ _)
  rw [hsort]
  constructor
  · intro h name
    have hkeys : name ∈ (aliasSet p).keys ↔ name ∈ (aliasSet q).keys := by rw [h]
    rwa [aliasSet, aliasSet, mem_nameSet, mem_nameSet] at hkeys
  · intro h
    refine FinMap.ext_find? fun name => ?_
    have hkeys : name ∈ (aliasSet p).keys ↔ name ∈ (aliasSet q).keys := by
      rw [aliasSet, aliasSet, mem_nameSet, mem_nameSet, h]
    rw [FinMap.mem_keys, FinMap.mem_keys] at hkeys
    cases hp : (aliasSet p).find? name <;> cases hq : (aliasSet q).find? name <;> simp_all

theorem unchanged_iff {q : PVConfig} (hp : p.aliases.Nodup) (hq : q.aliases.Nodup) :
    Unchanged p q ↔ p.canonical = q.canonical := by
  constructor
  · rintro ⟨haliases, htopology, hmetadata, haccess⟩
    rw [aliasSet_eq_iff hp hq] at haliases
    rw [sameReaderTopology_iff] at htopology
    rw [metadataDiffers_iff] at hmetadata
    rw [sameAssignment_iff] at haccess
    obtain ⟨hname, hkind, htype, hshape, hbytes, hread, hwrite, hconfirm⟩ := htopology
    cases p
    cases q
    simp_all [PVConfig.canonical]
  · intro h
    simp only [PVConfig.canonical, PVConfig.mk.injEq] at h
    obtain ⟨hname, haliases, hkind, htype, hshape, hread, hwrite, hconfirm, hmetadata, halarms,
      htransform, hinitial, haccess, hbytes, hgap, hhealth⟩ := h
    exact ⟨(aliasSet_eq_iff hp hq).mpr haliases,
      (sameReaderTopology_iff p q).mpr ⟨hname, hkind, htype, hshape, hbytes, hread, hwrite, hconfirm⟩,
      (metadataDiffers_iff p q).mpr ⟨hmetadata, halarms, htransform, hinitial, hgap, hhealth⟩,
      (sameAssignment_iff _ _).mpr haccess⟩

/-! ## The two directions -/

section Directions

variable {a b : AppConfig}

variable {name : String}

theorem mem_aliasesChanged : name ∈ (diffConfigs a b).aliasesChanged ↔
    ∃ p q, (pvsByName a).find? name = some p ∧ (pvsByName b).find? name = some q ∧
      aliasSet p ≠ aliasSet q := by
  simp only [diffConfigs_aliasesChanged, mem_picked_onBoth, bne_iff_ne]

/-- Nothing is reported about the PVs of `a`. -/
theorem unchanged_of_empty (h : EmptyDiff (diffConfigs a b))
    (hp : (pvsByName a).find? name = some p) :
    ∃ q, (pvsByName b).find? name = some q ∧ Unchanged p q := by
  cases hq : (pvsByName b).find? name with
  | none =>
    have hmem : name ∈ (diffConfigs a b).removed := by
      rw [mem_removed, FinMap.mem_keys, FinMap.mem_keys]
      exact ⟨⟨p, hp⟩, by simp [hq]⟩
    rw [h.removed] at hmem
    cases hmem
  | some q =>
    have hbackends : changedBackends a.redisBackends b.redisBackends = [] :=
      diffConfigs_backendsChanged.symm.trans h.backendsChanged
    have hunused : usesChanged [] q = false := by simp [usesChanged]
    have htopology : sameReaderTopology p q = true := by
      by_contra hdiffers
      have hmem := mem_replaced.mpr ⟨p, q, hp, hq, .inl (Bool.not_eq_true _ ▸ hdiffers)⟩
      rw [h.replaced] at hmem
      cases hmem
    refine ⟨q, rfl, ?_, htopology, ?_, ?_⟩
    · by_contra hdiffers
      have hmem := mem_aliasesChanged.mpr ⟨p, q, hp, hq, hdiffers⟩
      rw [h.aliasesChanged] at hmem
      cases hmem
    · by_contra hdiffers
      have hmem := mem_metadataChanged.mpr ⟨p, q, hp, hq, htopology,
        (Bool.not_eq_false _).mp hdiffers, by rw [hbackends]; exact hunused⟩
      rw [h.metadataChanged] at hmem
      cases hmem
    · have hnone := (List.append_eq_nil_iff.mp
        (diffConfigs_accessChanged.symm.trans h.accessChanged)).2
      by_contra hdiffers
      refine List.eq_nil_iff_forall_not_mem.mp hnone name
        (mem_picked_onBoth.mpr ⟨p, q, hp, hq, ?_⟩)
      simpa using hdiffers

theorem mem_canonical_of_empty (ha : ServesPVs a) (hb : ServesPVs b)
    (h : EmptyDiff (diffConfigs a b)) :
    ∀ x ∈ a.pvs.map PVConfig.canonical, x ∈ b.pvs.map PVConfig.canonical := by
  intro x hx
  obtain ⟨p, hp, rfl⟩ := List.mem_map.mp hx
  obtain ⟨q, hq, hsame⟩ := unchanged_of_empty h ((find?_pvsByName ha).mpr ⟨hp, rfl⟩)
  obtain ⟨hq, -⟩ := (find?_pvsByName hb).mp hq
  exact List.mem_map.mpr ⟨q, hq,
    ((unchanged_iff (ha.aliases_nodup hp) (hb.aliases_nodup hq)).mp hsame).symm⟩

theorem EmptyDiff.symm (h : EmptyDiff (diffConfigs a b)) : EmptyDiff (diffConfigs b a) := by
  have hsymm := symmetricDiff b a
  exact {
    added := hsymm.added.trans h.removed
    removed := hsymm.removed.trans h.added
    replaced := hsymm.replaced.trans h.replaced
    metadataChanged := hsymm.metadataChanged.trans h.metadataChanged
    aliasesChanged := hsymm.aliasesChanged.trans h.aliasesChanged
    accessChanged := hsymm.accessChanged.trans h.accessChanged
    backendsChanged := hsymm.backendsChanged.trans h.backendsChanged
    rpcServicesChanged := hsymm.rpcServicesChanged.trans h.rpcServicesChanged
    restartRequired := hsymm.restartRequired.trans h.restartRequired
    alarmStreamChanged := by
      rw [← h.alarmStreamChanged]
      exact congrArg not (comm_of_iff sameAlarmStreamConfig_iff _ _)
    catalogMetadataChanged := (bne_comm ..).trans h.catalogMetadataChanged }

theorem changedBackends_eq_nil {m m' : RedisBackendConfigs} :
    changedBackends m m' = [] ↔ m = m' := by
  rw [List.eq_nil_iff_forall_not_mem]
  simp only [mem_changedBackends, FinMap.mem_keys]
  constructor
  · intro h
    refine FinMap.ext_find? fun name => ?_
    by_contra hne
    refine h name ⟨?_, hne⟩
    cases hm : m.find? name with
    | some v => exact .inl ⟨v, rfl⟩
    | none =>
      cases hm' : m'.find? name with
      | some v => exact .inr ⟨v, rfl⟩
      | none => exact absurd (hm.trans hm'.symm) hne
  · rintro rfl name ⟨-, hne⟩
    exact hne rfl

theorem rpcServicesChanged_eq_nil :
    (diffConfigs a b).rpcServicesChanged = [] ↔ a.rpcServices = b.rpcServices := by
  show (if rpcEqual _ _ then _ else _) = [] ↔ _
  rw [← rpcEqual_iff]
  split
  · rename_i heq
    simp [heq]
  · rename_i hne
    simp only [hne, Bool.false_eq_true, iff_false]
    intro hnil
    -- with no name at all both lists are empty, and they differ
    have hnone : ∀ name, name ∉ (a.rpcServices ++ b.rpcServices).map fun service =>
        service.service ++ service.suffix := by
      intro name hname
      rw [← mem_nameSet, hnil] at hname
      cases hname
    have hempty := List.map_eq_nil_iff.mp (List.eq_nil_iff_forall_not_mem.mpr hnone)
    obtain ⟨ha, hb⟩ := List.append_eq_nil_iff.mp hempty
    exact hne (by rw [ha, hb]; rfl)

theorem sameUpToOrder_of_empty (ha : ServesPVs a) (hb : ServesPVs b)
    (hversion : a.schemaVersion = b.schemaVersion) (h : EmptyDiff (diffConfigs a b)) :
    SameUpToOrder a b := by
  obtain ⟨hlimits, hserver, -, hdiscovery⟩ := restartRequired_eq_nil.mp
    (diffConfigs_restartRequired.symm.trans h.restartRequired)
  have haccess := (List.append_eq_nil_iff.mp
    (diffConfigs_accessChanged.symm.trans h.accessChanged)).1
  exact {
    schemaVersion := hversion
    server := hserver
    access := (sameAccessConfig_iff _ _).mp (by by_contra hne; simp [hne] at haccess)
    redisBackends := changedBackends_eq_nil.mp
      (diffConfigs_backendsChanged.symm.trans h.backendsChanged)
    alarms := (sameAlarmStreamConfig_iff _ _).mp (by
      have hflag : (!sameAlarmStreamConfig a.alarms b.alarms) = false := h.alarmStreamChanged
      simpa using hflag)
    channelFinder := by
      have hflag := h.catalogMetadataChanged
      obtain ⟨_, _, _, _, _, _, ⟨_, _, _, _⟩, _⟩ := a
      obtain ⟨_, _, _, _, _, _, ⟨_, _, _, _⟩, _⟩ := b
      simpa [diffConfigs] using hflag
    discovery := hdiscovery
    limits := hlimits
    pvs := (List.perm_ext_iff_of_nodup (nodup_canonical ha) (nodup_canonical hb)).mpr fun x =>
      ⟨mem_canonical_of_empty ha hb h x, mem_canonical_of_empty hb ha h.symm x⟩
    rpcServices := rpcServicesChanged_eq_nil.mp h.rpcServicesChanged }

/-- A PV is on both sides, and nothing about it differs. -/
theorem SameUpToOrder.unchanged (h : SameUpToOrder a b) (ha : ServesPVs a) (hb : ServesPVs b)
    (hp : (pvsByName a).find? name = some p) :
    ∃ q, (pvsByName b).find? name = some q ∧ Unchanged p q := by
  obtain ⟨hpa, rfl⟩ := (find?_pvsByName ha).mp hp
  obtain ⟨q, hq, hsame⟩ := List.mem_map.mp (h.pvs.mem_iff.mp (List.mem_map.mpr ⟨p, hpa, rfl⟩))
  have hname : q.canonical.name = p.canonical.name := congrArg PVConfig.name hsame
  refine ⟨q, (find?_pvsByName hb).mpr ⟨hq, ?_⟩,
    (unchanged_iff (ha.aliases_nodup hpa) (hb.aliases_nodup hq)).mpr hsame.symm⟩
  rw [h.server]
  exact fullPVName_inj.mpr hname

theorem SameUpToOrder.symm (h : SameUpToOrder a b) : SameUpToOrder b a :=
  ⟨h.schemaVersion.symm, h.server.symm, h.access.symm, h.redisBackends.symm, h.alarms.symm,
    h.channelFinder.symm, h.discovery.symm, h.limits.symm, h.pvs.symm, h.rpcServices.symm⟩

theorem empty_of_sameUpToOrder (ha : ServesPVs a) (hb : ServesPVs b) (h : SameUpToOrder a b) :
    EmptyDiff (diffConfigs a b) := by
  have hchanged : changedBackends a.redisBackends b.redisBackends = [] :=
    changedBackends_eq_nil.mpr h.redisBackends
  have hboth {name : String} {p q : PVConfig} (hp : (pvsByName a).find? name = some p)
      (hq : (pvsByName b).find? name = some q) : Unchanged p q := by
    obtain ⟨q', hq', hsame⟩ := h.unchanged ha hb hp
    cases hq.symm.trans hq'
    exact hsame
  have hkeys {a b : AppConfig} (h : SameUpToOrder a b) (ha : ServesPVs a) (hb : ServesPVs b) :
      (diffConfigs a b).removed = [] := by
    refine List.eq_nil_iff_forall_not_mem.mpr fun name hmem => ?_
    obtain ⟨hin, hout⟩ := mem_removed.mp hmem
    obtain ⟨p, hp⟩ := (FinMap.mem_keys _).mp hin
    obtain ⟨q, hq, -⟩ := h.unchanged ha hb hp
    exact hout ((FinMap.mem_keys _).mpr ⟨q, hq⟩)
  refine {
    added := (symmetricDiff a b).added.trans (hkeys h.symm hb ha)
    removed := hkeys h ha hb
    replaced := List.eq_nil_iff_forall_not_mem.mpr fun name hmem => ?_
    metadataChanged := List.eq_nil_iff_forall_not_mem.mpr fun name hmem => ?_
    aliasesChanged := List.eq_nil_iff_forall_not_mem.mpr fun name hmem => ?_
    accessChanged := ?_
    backendsChanged := diffConfigs_backendsChanged.trans hchanged
    rpcServicesChanged := rpcServicesChanged_eq_nil.mpr h.rpcServices
    restartRequired := diffConfigs_restartRequired.trans (restartRequired_eq_nil.mpr
      ⟨h.limits, h.server, congrArg AccessConfig.enabled h.access, h.discovery⟩)
    alarmStreamChanged := by
      simp [diffConfigs, (sameAlarmStreamConfig_iff _ _).mpr h.alarms]
    catalogMetadataChanged := by simp [diffConfigs, h.channelFinder] }
  · obtain ⟨p, q, hp, hq, hcase⟩ := mem_replaced.mp hmem
    rw [hchanged, (hboth hp hq).topology] at hcase
    simp [usesChanged] at hcase
  · obtain ⟨p, q, hp, hq, -, hdiffers, -⟩ := mem_metadataChanged.mp hmem
    rw [(hboth hp hq).metadata] at hdiffers
    cases hdiffers
  · obtain ⟨p, q, hp, hq, hne⟩ := mem_aliasesChanged.mp hmem
    exact hne (hboth hp hq).aliases
  · rw [diffConfigs_accessChanged, if_pos ((sameAccessConfig_iff _ _).mpr h.access),
      List.nil_append]
    refine List.eq_nil_iff_forall_not_mem.mpr fun name hmem => ?_
    obtain ⟨p, q, hp, hq, hne⟩ := mem_picked_onBoth.mp hmem
    rw [(hboth hp hq).access] at hne
    cases hne

end Directions

/-- **An empty diff means no difference, and the diff is symmetric.** -/
theorem diffConfigs_exact {root root' : Sections} {a b : AppConfig}
    (ha : parseConfig root = .ok a) (hb : parseConfig root' = .ok b) :
    (EmptyDiff (diffConfigs a b) ↔ SameUpToOrder a b) ∧
      ∀ c d : AppConfig, SymmetricDiff (diffConfigs c d) (diffConfigs d c) := by
  have hversion : a.schemaVersion = b.schemaVersion :=
    (parseConfig_schemaVersion ha).trans (parseConfig_schemaVersion hb).symm
  have ha := parseConfig_servesPVs ha
  have hb := parseConfig_servesPVs hb
  exact ⟨⟨sameUpToOrder_of_empty ha hb hversion, empty_of_sameUpToOrder ha hb⟩, symmetricDiff⟩

def levelPV : PVConfig where
  name := "level"
  aliases := ["L1", "L2"]
  read := { backend := "redis", key := "level" }

def tankPV : PVConfig where
  name := "tank"
  read := { backend := "redis", key := "tank" }

/-- A document with the one backend of the legacy form. -/
def tankSections (pvs : List PVConfig) : Sections where
  server := { «instance» := "ioc" }
  redis := some {}
  pvs := pvs

def tankConfig (pvs : List PVConfig) : AppConfig where
  server := { «instance» := "ioc" }
  redisBackends := FinMap.empty.insert kDefaultRedisBackendAlias {}
  alarms := { backend := kDefaultRedisBackendAlias }
  pvs := pvs.map fun pv => { pv with read.backend := kDefaultRedisBackendAlias }

theorem parse_tankSections :
    parseConfig (tankSections [levelPV, tankPV]) = .ok (tankConfig [levelPV, tankPV]) := by
  decide +kernel

/-- The same PVs, in the other order and with the aliases the other way round. -/
theorem diffConfigs_exact_reordered :
    EmptyDiff (diffConfigs (tankConfig [levelPV, tankPV])
      (tankConfig [tankPV, { levelPV with aliases := ["L2", "L1"] }])) := by
  have hb : parseConfig (tankSections [tankPV, { levelPV with aliases := ["L2", "L1"] }]) =
      .ok (tankConfig [tankPV, { levelPV with aliases := ["L2", "L1"] }]) := by
    decide +kernel
  exact (diffConfigs_exact parse_tankSections hb).1.mpr {
    schemaVersion := rfl, server := rfl, access := rfl, redisBackends := rfl, alarms := rfl
    channelFinder := rfl, discovery := rfl, limits := rfl, pvs := by decide +kernel, rpcServices := rfl }

end RedisPvxsIoc.Config
