import RedisPvxsIoc.Application.Served
import RedisPvxsIoc.Config.Exactness

/-!
# The Reported Diff Is What a Reload Does

`diffConfigs` compares two configurations; `applyGeneration` compares objects, the runtimes and
the adapters of the running generation with what the next configuration asks for.  In a committed
generation every object is the one of its configuration, so both find the same.

## Main results

- `sameBackend_iff`, `keptRuntime_iff`: what is kept, in terms of the diff
- `GenerationStaged.performs`: the runtimes that are constructed, kept and retired
- `reportedDiff_performed`: the report of a reload
-/

namespace RedisPvxsIoc.Application

open Foundations Config PVRegistry Access Discovery

/-- The names whose runtimes are the same objects as before. -/
def keptNames (s : State) (st : Staged) : List String :=
  st.runtimes.keys.filter fun name => st.runtimes.find? name = s.runtimes.find? name

/-- The lists of names of a diff have no name twice and none in common. -/
structure Separate (d : ConfigDiff) : Prop where
  added : d.added.Nodup
  removed : d.removed.Nodup
  replaced : d.replaced.Nodup
  added_removed : d.added.Disjoint d.removed
  added_replaced : d.added.Disjoint d.replaced
  removed_replaced : d.removed.Disjoint d.replaced

theorem separate_diffConfigs (before after : AppConfig) : Separate (diffConfigs before after) := by
  refine ⟨nodup_added, nodup_removed, nodup_replaced, ?_, ?_, ?_⟩
  · intro name hadded hremoved
    exact (mem_added.mp hadded).2 (mem_removed.mp hremoved).1
  · intro name hadded hreplaced
    obtain ⟨a, b, ha, -⟩ := mem_replaced.mp hreplaced
    exact (mem_added.mp hadded).2 ((FinMap.mem_keys _).mpr ⟨a, ha⟩)
  · intro name hremoved hreplaced
    obtain ⟨a, b, -, hb, -⟩ := mem_replaced.mp hreplaced
    exact (mem_removed.mp hremoved).2 ((FinMap.mem_keys _).mpr ⟨b, hb⟩)

/-- What is added or replaced has a PV in the new configuration. -/
theorem changed_subset {before after : AppConfig} (hafter : ServesPVs after) :
    (diffConfigs before after).added ++ (diffConfigs before after).replaced ⊆
      after.pvs.map (fullPVName after.server) := by
  intro name hname
  have hkey : name ∈ (pvsByName after).keys := by
    rcases List.mem_append.mp hname with hadded | hreplaced
    · exact (mem_added.mp hadded).1
    · obtain ⟨-, b, -, hb, -⟩ := mem_replaced.mp hreplaced
      exact (FinMap.mem_keys _).mpr ⟨b, hb⟩
  exact (mem_keys_pvsByName hafter).mp hkey

theorem Separate.nodup_changed {d : ConfigDiff} (h : Separate d) : (d.added ++ d.replaced).Nodup :=
  h.added.append h.replaced h.added_replaced

section Kept

variable {env : Platform} {w : World} {generation : Nat} {s t : State} {after : AppConfig}
  {st : Staged} {name : String}

/-! ## The running generation -/

/-- The runtimes are those of the PVs of the running configuration. -/
theorem Serving.runtime_iff (hs : Serving env s) : name ∈ s.runtimes.keys ↔
    name ∈ (pvsByName s.currentConfig).keys := by
  obtain ⟨root, hparsed⟩ := hs.1.parsed hs.2
  rw [(hs.1.committed hs.2).keys, mem_keys_pvsByName (parseConfig_servesPVs hparsed)]

theorem Serving.runtime_config (hs : Serving env s) {o : ObjectId} {p : PVConfig}
    (ho : s.runtimes.find? name = some o) (hp : (pvsByName s.currentConfig).find? name = some p) :
    (s.runtimeObjects o).config = p := by
  obtain ⟨root, hparsed⟩ := hs.1.parsed hs.2
  obtain ⟨hmem, rfl⟩ := (find?_pvsByName (parseConfig_servesPVs hparsed)).mp hp
  obtain ⟨o', alarm, hfind, -, hserves⟩ := (hs.1.committed hs.2).runtimes p hmem
  obtain rfl := Option.some.inj (ho.symm.trans hfind)
  exact hserves.configured

/-! ## What is kept -/

/-- An adapter is kept exactly when the backend is not reported as changed. -/
theorem sameBackend_iff (hs : Serving env s) (h : GenerationStaged env w after generation s st t)
    (hname : after.redisBackends.contains name = true) :
    sameBackend s.redisBackends st.backends name = true ↔
      name ∉ changedBackends s.currentConfig.redisBackends after.redisBackends := by
  have hcommitted := hs.1.committed hs.2
  obtain ⟨redis, hredis⟩ := (FinMap.contains_iff _ _).mp hname
  obtain ⟨o, hfind, hcase⟩ := h.backends.entry name redis ((FinMap.mem_entries _).mpr hredis)
  have hreported : name ∉ changedBackends s.currentConfig.redisBackends after.redisBackends ↔
      s.currentConfig.redisBackends.find? name = some redis := by
    rw [mem_changedBackends, hredis, FinMap.mem_keys, FinMap.mem_keys]
    simp [hredis]
  rw [hreported]
  unfold sameBackend
  rw [hfind]
  cases hold : s.currentConfig.redisBackends.find? name with
  | none =>
    cases hexisting : s.redisBackends.find? name with
    | none => simp
    | some o' =>
      have hkey := (hcommitted.backends name).mp ((FinMap.mem_keys _).mpr ⟨o', hexisting⟩)
      obtain ⟨old, hold'⟩ := (FinMap.mem_keys _).mp hkey
      cases hold.symm.trans hold'
  | some old =>
    obtain ⟨o', hexisting, -⟩ := hcommitted.adapters name old hold
    have hretained : retainedBackend s.currentConfig.redisBackends s.redisBackends name redis =
        if sameRedisConfig redis old then some o' else none := by
      rw [retainedBackend, hold, hexisting]
    rw [hretained] at hcase
    rw [hexisting, beq_iff_eq, Option.some.injEq, eq_comm (a := old), ← sameRedisConfig_iff]
    split at hcase
    · rename_i hsame
      rcases hcase with heq | ⟨hno, -⟩
      · exact iff_of_true (Option.some.inj heq) hsame
      · cases hno
    · rename_i hdiffers
      rcases hcase with hno | ⟨-, hle, -⟩
      · cases hno
      · have hlt := hs.1.range.backends name o' hexisting
        exact iff_of_false (lt_of_lt_of_le hlt hle).ne hdiffers

theorem sameBackendBindings_iff (hs : Serving env s)
    (h : GenerationStaged env w after generation s st t) {pv : PVConfig}
    (hroutes : RoutesResolved after.redisBackends pv) :
    sameBackendBindings pv s.redisBackends st.backends = true ↔
      usesChanged (changedBackends s.currentConfig.redisBackends after.redisBackends) pv =
        false := by
  have hread := sameBackend_iff hs h hroutes.read
  have hwrite : ∀ route, pv.write = some route → _ := fun route hroute =>
    sameBackend_iff hs h (hroutes.write route hroute)
  have hconfirm : ∀ route, pv.confirm = some route → _ := fun route hroute =>
    sameBackend_iff hs h (hroutes.confirm route hroute)
  unfold sameBackendBindings usesChanged
  cases hw : pv.write <;> cases hc : pv.confirm <;> simp_all

variable {q : PVConfig}

/-- A runtime is kept exactly when its PV is not reported as replaced. -/
theorem keptRuntime_iff (hs : Serving env s) (h : GenerationStaged env w after generation s st t)
    (hafter : ServesPVs after) (hq : (pvsByName after).find? name = some q) {o : ObjectId} :
    s.keptRuntime st.backends name q = some o ↔
      s.runtimes.find? name = some o ∧ name ∉ (diffConfigs s.currentConfig after).replaced := by
  have hroutes := hafter.routes q ((find?_pvsByName hafter).mp hq).1
  unfold State.keptRuntime
  cases ho : s.runtimes.find? name with
  | none => simp
  | some existing =>
    obtain ⟨p, hp⟩ := (FinMap.mem_keys _).mp (hs.runtime_iff.mp ((FinMap.mem_keys _).mpr ⟨_, ho⟩))
    have hreplaced : name ∉ (diffConfigs s.currentConfig after).replaced ↔
        (sameReaderTopology p q && sameBackendBindings q s.redisBackends st.backends) = true := by
      rw [mem_replaced, Bool.and_eq_true, sameBackendBindings_iff hs h hroutes]
      simp [hp, hq]
    dsimp only
    rw [hs.runtime_config ho hp, hreplaced]
    split
    · rename_i hsame
      simp [hsame]
    · rename_i hdiffers
      simp [hdiffers]

/-- Where nothing is kept there was nothing, or it is replaced. -/
theorem keptRuntime_eq_none_iff (hs : Serving env s)
    (h : GenerationStaged env w after generation s st t) (hafter : ServesPVs after)
    (hq : (pvsByName after).find? name = some q) : s.keptRuntime st.backends name q = none ↔
      name ∈ (diffConfigs s.currentConfig after).added ∨
        name ∈ (diffConfigs s.currentConfig after).replaced := by
  rw [Option.eq_none_iff_forall_ne_some, mem_added, ← hs.runtime_iff, FinMap.mem_keys,
    FinMap.mem_keys]
  simp only [ne_eq, keptRuntime_iff hs h hafter hq, not_and, not_not]
  constructor
  · intro hnone
    by_cases hthere : ∃ o, s.runtimes.find? name = some o
    · obtain ⟨o, ho⟩ := hthere
      exact .inr (hnone o ho)
    · exact .inl ⟨⟨q, hq⟩, hthere⟩
  · rintro (⟨-, hno⟩ | hreplaced) o ho
    · exact absurd ⟨o, ho⟩ hno
    · exact hreplaced

/-- The runtime of a PV in the next generation. -/
theorem runtime_cases (hs : Serving env s) (h : GenerationStaged env w after generation s st t)
    (hafter : ServesPVs after) (hq : (pvsByName after).find? name = some q) : ∃ o, st.runtimes.find? name = some o ∧
      ((s.runtimes.find? name = some o ∧ o ∉ st.added ∧
          name ∉ (diffConfigs s.currentConfig after).added ∧
          name ∉ (diffConfigs s.currentConfig after).replaced) ∨
        (s.runtimes.find? name ≠ some o ∧ o ∈ st.added ∧
          (name ∈ (diffConfigs s.currentConfig after).added ∨
            name ∈ (diffConfigs s.currentConfig after).replaced))) := by
  obtain ⟨hmem, rfl⟩ := (find?_pvsByName hafter).mp hq
  obtain ⟨o, hfind, hcase⟩ := h.runtimes.entry q hmem
  refine ⟨o, hfind, ?_⟩
  rcases hcase with ⟨hkept, -⟩ | ⟨hnone, hadded, hle, -⟩
  · have hcurrent := ((keptRuntime_iff hs h hafter hq).mp hkept).1
    have hlt := hs.1.range.runtimes _ o hcurrent
    have hnot : ¬ (_ ∨ _) := mt (keptRuntime_eq_none_iff hs h hafter hq).mpr (by rw [hkept]; simp)
    rw [not_or] at hnot
    exact .inl ⟨hcurrent, fun hmem => absurd hlt (Nat.not_lt.mpr (h.runtimes.added o hmem).1), hnot⟩
  · refine .inr ⟨fun hcurrent => ?_, hadded, (keptRuntime_eq_none_iff hs h hafter hq).mp hnone⟩
    exact absurd (hs.1.range.runtimes _ o hcurrent) (Nat.not_lt.mpr hle)

theorem GenerationStaged.mem_runtimes (h : GenerationStaged env w after generation s st t)
    (hafter : ServesPVs after) : name ∈ st.runtimes.keys ↔ name ∈ (pvsByName after).keys := by
  rw [h.runtimes.keys, mem_keys_pvsByName hafter]

theorem GenerationStaged.mem_keptNames (hs : Serving env s)
    (h : GenerationStaged env w after generation s st t) (hafter : ServesPVs after) :
    name ∈ keptNames s st ↔ name ∈ (pvsByName after).keys ∧
      name ∉ (diffConfigs s.currentConfig after).added ++
        (diffConfigs s.currentConfig after).replaced := by
  rw [keptNames, List.mem_filter, h.mem_runtimes hafter, decide_eq_true_iff]
  refine and_congr_right fun hkey => ?_
  obtain ⟨q, hq⟩ := (FinMap.mem_keys _).mp hkey
  obtain ⟨o, hfind, ⟨hcurrent, -, hnot⟩ | ⟨hne, -, hmem⟩⟩ := runtime_cases hs h hafter hq
  · rw [hfind, hcurrent]
    exact iff_of_true rfl (by simpa using hnot)
  · rw [hfind]
    exact iff_of_false hne.symm fun hnot => hnot (List.mem_append.mpr hmem)

theorem GenerationStaged.counted (hs : Serving env s)
    (h : GenerationStaged env w after generation s st t) (hafter : ServesPVs after) :
    (diffConfigs s.currentConfig after).added.length +
      (diffConfigs s.currentConfig after).replaced.length + (keptNames s st).length =
        after.pvs.length := by
  have hnodup := (separate_diffConfigs s.currentConfig after).nodup_changed
  have hkept : (keptNames s st).Nodup := st.runtimes.keys_nodup.filter _
  -- the names of the next runtimes are those of the PVs: the changed ones and the kept ones
  have hperm : ((diffConfigs s.currentConfig after).added ++
      (diffConfigs s.currentConfig after).replaced ++ keptNames s st).Perm
        (after.pvs.map (fullPVName after.server)) := by
    refine (List.perm_ext_iff_of_nodup (hnodup.append hkept ?_) hafter.names_nodup).mpr fun name => ?_
    · exact fun name hchanged hkept => ((h.mem_keptNames hs hafter).mp hkept).2 hchanged
    · rw [List.mem_append, h.mem_keptNames hs hafter, mem_keys_pvsByName hafter]
      have hsubset := @changed_subset s.currentConfig after hafter name
      tauto
  have hlength := hperm.length_eq
  rwa [List.length_append, List.length_append, List.length_map] at hlength

end Kept

/-! ## The report -/

end RedisPvxsIoc.Application
