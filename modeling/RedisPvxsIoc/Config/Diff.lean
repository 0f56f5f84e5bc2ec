import RedisPvxsIoc.Config.Endpoints
import Mathlib.Data.List.Sort

/-!
# The Configuration Diff

Model of `src/config_diff.cpp`: the report that a reload prints and that decides nothing.
The PVs of the two sides are joined by their full names; a PV that only moves to a changed
backend is found in a second pass, which also takes it out of the metadata changes.

## Main results

- `mem_added`, `mem_removed`, `mem_replaced`: the three lists as sets
- `mem_metadataChanged`: what is left after the second pass
- `nodup_added`, `nodup_removed`, `nodup_replaced`
-/

namespace RedisPvxsIoc.Config

open Foundations

/-! ## Comparisons of the PV sections -/

def sameMetadata (a b : MetadataConfig) : Bool :=
  (a.description, a.units, a.precision, a.form, a.display.low, a.display.high, a.control.low,
    a.control.high, a.minStep) ==
  (b.description, b.units, b.precision, b.form, b.display.low, b.display.high, b.control.low,
    b.control.high, b.minStep)

def sameAlarms (a b : AlarmConfig) : Bool :=
  (a.lowAlarm, a.lowWarning, a.highWarning, a.highAlarm, a.hysteresis) ==
  (b.lowAlarm, b.lowWarning, b.highWarning, b.highAlarm, b.hysteresis)

def sameTransform : Option LinearTransformConfig → Option LinearTransformConfig → Bool
  | none, none => true
  | some a, some b => a.scale == b.scale && a.offset == b.offset
  | _, _ => false

def sameAssignment : Option AccessAssignment → Option AccessAssignment → Bool
  | none, none => true
  | some a, some b => sameAccessAssignment a b
  | _, _ => false

def sameRpc (a b : RpcServiceConfig) : Bool :=
  (a.service, a.endpoint, a.suffix, a.defaults, a.methodDefaults, a.optional,
    a.discoveryTimeoutMs, a.timeoutMs, a.retryIntervalMs) ==
  (b.service, b.endpoint, b.suffix, b.defaults, b.methodDefaults, b.optional,
    b.discoveryTimeoutMs, b.timeoutMs, b.retryIntervalMs) &&
  sameAssignment a.access b.access

def aliasSet (pv : PVConfig) : NameSet := nameSet pv.aliases

/-- The condition of the branch that reports a metadata change. -/
def metadataDiffers (a b : PVConfig) : Bool :=
  !sameMetadata a.metadata b.metadata || !sameAlarms a.alarms b.alarms ||
  !sameTransform a.transform b.transform || a.initialValue != b.initialValue ||
  a.maxFrameGap != b.maxFrameGap || a.sourceHealth.required != b.sourceHealth.required ||
  a.sourceHealth.staleAfterMs != b.sourceHealth.staleAfterMs

/-! ## The diff -/

structure ConfigDiff where
  added : List String := []
  removed : List String := []
  replaced : List String := []
  metadataChanged : List String := []
  aliasesChanged : List String := []
  accessChanged : List String := []
  backendsChanged : List String := []
  rpcServicesChanged : List String := []
  restartRequired : List String := []
  alarmStreamChanged : Bool := false
  catalogMetadataChanged : Bool := false
  deriving DecidableEq, Repr

/-- `oldPVs` and `newPVs`: `emplace` keeps the first PV of a name. -/
def pvsByName (config : AppConfig) : FinMap String PVConfig :=
  FinMap.ofList (config.pvs.map fun pv => (fullPVName config.server pv, pv))

/-- The settings that only a restart can change, in the order of the checks. -/
def restartRequired (before after : AppConfig) : List String :=
  (if sameOperationLimits before.limits after.limits then [] else ["limits"]) ++
  (if before.server.instance = after.server.instance then [] else ["server.instance"]) ++
  (if before.server.nameSpace = after.server.nameSpace then [] else ["server.namespace"]) ++
  (if before.server.interfaces = after.server.interfaces then [] else ["server.interfaces"]) ++
  (if before.server.tcpPort = after.server.tcpPort then [] else ["server.tcp_port"]) ++
  (if before.server.udpPort = after.server.udpPort then [] else ["server.udp_port"]) ++
  (if before.server.autoBeacon = after.server.autoBeacon then [] else ["server.auto_beacon"]) ++
  (if before.access.enabled = after.access.enabled then [] else ["access.enabled"]) ++
  (if sameDiscoveryConfig before.discovery after.discovery then [] else ["discovery"])

/-- One turn of the loop over the old PVs. -/
def comparePV (newPVs : FinMap String PVConfig) (diff : ConfigDiff)
    (item : String × PVConfig) : ConfigDiff :=
  match newPVs.find? item.1 with
  | none => { diff with removed := diff.removed ++ [item.1] }
  | some b =>
    let a := item.2
    let diff :=
      if aliasSet a = aliasSet b then diff
      else { diff with aliasesChanged := diff.aliasesChanged ++ [item.1] }
    let diff :=
      if !sameReaderTopology a b then { diff with replaced := diff.replaced ++ [item.1] }
      else if metadataDiffers a b then
        { diff with metadataChanged := diff.metadataChanged ++ [item.1] }
      else diff
    if sameAssignment a.access b.access then diff
    else { diff with accessChanged := diff.accessChanged ++ [item.1] }

def backendChanged (before after : RedisBackendConfigs) (name : String) : Bool :=
  match before.find? name, after.find? name with
  | some a, some b => !sameRedisConfig a b
  | _, _ => true

def changedBackends (before after : RedisBackendConfigs) : List String :=
  (nameSet (before.keys ++ after.keys)).keys.filter (backendChanged before after)

/-- One of the routes of the PV leads to a changed backend. -/
def usesChanged (changed : List String) (pv : PVConfig) : Bool :=
  changed.contains pv.read.backend ||
  pv.write.any (fun route => changed.contains route.backend) ||
  pv.confirm.any (fun route => changed.contains route.backend)

/-- One turn of the second loop, over the new PVs. -/
def moveChanged (oldPVs : FinMap String PVConfig) (diff : ConfigDiff)
    (item : String × PVConfig) : ConfigDiff :=
  if oldPVs.contains item.1 && usesChanged diff.backendsChanged item.2 then
    { diff with
      replaced :=
        if diff.replaced.contains item.1 then diff.replaced else diff.replaced ++ [item.1]
      metadataChanged := diff.metadataChanged.filter (· ≠ item.1) }
  else diff

def rpcEqual (before after : List RpcServiceConfig) : Bool :=
  before.length == after.length && (before.zip after).all fun (a, b) => sameRpc a b

def diffConfigs (before after : AppConfig) : ConfigDiff :=
  let oldPVs := pvsByName before
  let newPVs := pvsByName after
  let diff : ConfigDiff :=
    { restartRequired := restartRequired before after
      accessChanged :=
        if sameAccessConfig before.access after.access then [] else ["policy/defaults/watcher"] }
  let diff := oldPVs.entries.foldl (comparePV newPVs) diff
  let diff := { diff with added := newPVs.keys.filter fun name => !oldPVs.contains name }
  let diff :=
    { diff with backendsChanged := changedBackends before.redisBackends after.redisBackends }
  let diff := newPVs.entries.foldl (moveChanged oldPVs) diff
  { diff with
    replaced := diff.replaced.insertionSort (· ≤ ·)
    rpcServicesChanged :=
      if rpcEqual before.rpcServices after.rpcServices then []
      else (nameSet ((before.rpcServices ++ after.rpcServices).map fun service =>
        service.service ++ service.suffix)).keys
    alarmStreamChanged := !sameAlarmStreamConfig before.alarms after.alarms
    catalogMetadataChanged :=
      (before.channelFinder.url, before.channelFinder.owner, before.channelFinder.tags,
        before.channelFinder.properties) !=
      (after.channelFinder.url, after.channelFinder.owner, after.channelFinder.tags,
        after.channelFinder.properties) }

/-! ## Comparisons are equality -/

theorem sameMetadata_iff (a b : MetadataConfig) : sameMetadata a b = true ↔ a = b := by
  obtain ⟨_, _, _, _, ⟨_, _⟩, ⟨_, _⟩, _⟩ := a
  obtain ⟨_, _, _, _, ⟨_, _⟩, ⟨_, _⟩, _⟩ := b
  simp [sameMetadata, and_assoc]

theorem sameAlarms_iff (a b : AlarmConfig) : sameAlarms a b = true ↔ a = b := by
  cases a
  cases b
  simp [sameAlarms]

theorem sameTransform_iff (a b : Option LinearTransformConfig) :
    sameTransform a b = true ↔ a = b := by
  rcases a with _ | ⟨_, _⟩ <;> rcases b with _ | ⟨_, _⟩ <;> simp [sameTransform]

theorem sameAssignment_iff (a b : Option AccessAssignment) :
    sameAssignment a b = true ↔ a = b := by
  cases a <;> cases b <;> simp [sameAssignment, sameAccessAssignment_iff]

theorem sameRpc_iff (a b : RpcServiceConfig) : sameRpc a b = true ↔ a = b := by
  cases a
  cases b
  simp only [sameRpc, Bool.and_eq_true, beq_iff_eq, Prod.mk.injEq, sameAssignment_iff,
    RpcServiceConfig.mk.injEq]
  tauto

theorem sameAccessConfig_iff (a b : AccessConfig) : sameAccessConfig a b = true ↔ a = b := by
  obtain ⟨_, _, _, ⟨_, _, _⟩, ⟨_, _, _, _⟩⟩ := a
  obtain ⟨_, _, _, ⟨_, _, _⟩, ⟨_, _, _, _⟩⟩ := b
  simp [sameAccessConfig, sameAccessAssignment_iff, and_assoc]

theorem rpcEqual_iff (a b : List RpcServiceConfig) : rpcEqual a b = true ↔ a = b := by
  induction a generalizing b with
  | nil => cases b <;> simp [rpcEqual]
  | cons x a ih =>
    cases b with
    | nil => simp [rpcEqual]
    | cons y b =>
      have hrest := ih b
      simp only [rpcEqual, Bool.and_eq_true, beq_iff_eq, List.length_cons, List.zip_cons_cons,
        List.all_cons, sameRpc_iff, List.cons.injEq, Nat.add_right_cancel_iff] at hrest ⊢
      rw [← hrest]
      tauto

/-- The fields of a PV that the metadata list stands for. -/
theorem metadataDiffers_iff (a b : PVConfig) : metadataDiffers a b = false ↔
    a.metadata = b.metadata ∧ a.alarms = b.alarms ∧ a.transform = b.transform ∧
      a.initialValue = b.initialValue ∧ a.maxFrameGap = b.maxFrameGap ∧
      a.sourceHealth = b.sourceHealth := by
  have hhealth : a.sourceHealth = b.sourceHealth ↔
      a.sourceHealth.required = b.sourceHealth.required ∧
      a.sourceHealth.staleAfterMs = b.sourceHealth.staleAfterMs := by
    cases a.sourceHealth
    cases b.sourceHealth
    simp
  simp [metadataDiffers, sameMetadata_iff, sameAlarms_iff, sameTransform_iff, hhealth, and_assoc]

variable {α : Type}

/-- A comparison that is equality does not depend on the order. -/
theorem comm_of_iff {same : α → α → Bool} (h : ∀ a b, same a b = true ↔ a = b) (a b : α) :
    same a b = same b a := by
  rw [Bool.eq_iff_iff, h, h]
  exact eq_comm

theorem sameReaderTopology_comm (a b : PVConfig) :
    sameReaderTopology a b = sameReaderTopology b a := by
  rw [Bool.eq_iff_iff, sameReaderTopology_iff, sameReaderTopology_iff]
  exact ⟨SameTopology.symm, SameTopology.symm⟩

theorem metadataDiffers_comm (a b : PVConfig) : metadataDiffers a b = metadataDiffers b a := by
  rw [← Bool.not_inj_iff, Bool.eq_iff_iff, Bool.not_eq_true', Bool.not_eq_true',
    metadataDiffers_iff, metadataDiffers_iff]
  simp only [eq_comm]

/-! ## The first loop -/

/-- The names of the PVs with a property, in order. -/
def picked (p : String × PVConfig → Bool) (m : FinMap String PVConfig) : List String :=
  (m.entries.filter p).map Prod.fst

/-- The PV is on both sides, and the two are related by `q`. -/
def onBoth (newPVs : FinMap String PVConfig) (q : PVConfig → PVConfig → Bool)
    (item : String × PVConfig) : Bool :=
  (newPVs.find? item.1).any (q item.2)

theorem sorted_picked (p : String × PVConfig → Bool) (m : FinMap String PVConfig) :
    (picked p m).Pairwise (· < ·) :=
  m.sorted.sublist (List.filter_sublist.map _)

variable {m : FinMap String PVConfig}

theorem mem_picked {p : String × PVConfig → Bool} {name : String} :
    name ∈ picked p m ↔ ∃ pv, m.find? name = some pv ∧ p (name, pv) = true := by
  simp [picked, FinMap.mem_entries]

theorem mem_picked_onBoth {m' : FinMap String PVConfig} {q : PVConfig → PVConfig → Bool}
    {name : String} : name ∈ picked (onBoth m' q) m ↔
      ∃ a b, m.find? name = some a ∧ m'.find? name = some b ∧ q a b = true := by
  rw [mem_picked]
  refine exists_congr fun a => ?_
  cases hb : m'.find? name <;> simp [onBoth, hb]

theorem picked_comm {m' : FinMap String PVConfig} {q q' : PVConfig → PVConfig → Bool}
    (h : ∀ a b, q a b = q' b a) : picked (onBoth m' q) m = picked (onBoth m q') m' := by
  refine (sorted_picked _ _).eq_of_mem_iff (sorted_picked _ _) fun name => ?_
  rw [mem_picked_onBoth, mem_picked_onBoth, exists_comm]
  simp only [h]
  tauto

/-- What the first loop adds to the diff. -/
theorem foldl_comparePV (newPVs : FinMap String PVConfig) (l : List (String × PVConfig))
    (diff : ConfigDiff) : l.foldl (comparePV newPVs) diff = { diff with
      removed := diff.removed ++ (l.filter fun item => !newPVs.contains item.1).map Prod.fst
      aliasesChanged := diff.aliasesChanged ++
        (l.filter (onBoth newPVs fun a b => aliasSet a != aliasSet b)).map Prod.fst
      replaced := diff.replaced ++
        (l.filter (onBoth newPVs fun a b => !sameReaderTopology a b)).map Prod.fst
      metadataChanged := diff.metadataChanged ++ (l.filter (onBoth newPVs fun a b =>
        sameReaderTopology a b && metadataDiffers a b)).map Prod.fst
      accessChanged := diff.accessChanged ++
        (l.filter (onBoth newPVs fun a b => !sameAssignment a.access b.access)).map Prod.fst } := by
  induction l generalizing diff with
  | nil => simp
  | cons item l ih =>
    rw [List.foldl_cons, ih]
    unfold comparePV
    cases hb : newPVs.find? item.1 with
    | none => simp [onBoth, FinMap.contains, hb]
    | some b =>
      simp only [List.filter_cons, onBoth, FinMap.contains, hb, Option.any_some,
        Option.isSome_some]
      split_ifs <;> simp_all

/-! ## The second loop -/

section Move

variable (oldPVs : FinMap String PVConfig) (changed : List String)

/-- The PV is on both sides and uses a changed backend. -/
def moved (item : String × PVConfig) : Bool :=
  oldPVs.contains item.1 && usesChanged changed item.2

variable {oldPVs changed}

/-- The loop touches only `replaced` and `metadataChanged`. -/
theorem moveLoop_frame (field : ConfigDiff → α)
    (hfield : ∀ diff replaced metadataChanged, field { diff with replaced, metadataChanged } =
      field diff) (l : List (String × PVConfig)) (diff : ConfigDiff) :
    field (l.foldl (moveChanged oldPVs) diff) = field diff := by
  induction l generalizing diff with
  | nil => rfl
  | cons item rest ih =>
    rw [List.foldl_cons, ih]
    unfold moveChanged
    split
    · exact hfield diff _ _
    · rfl

theorem moveChanged_backendsChanged (diff : ConfigDiff) (item : String × PVConfig) :
    (moveChanged oldPVs diff item).backendsChanged = diff.backendsChanged :=
  moveLoop_frame ConfigDiff.backendsChanged (fun _ _ _ => rfl) [item] diff

theorem mem_moveLoop_replaced (l : List (String × PVConfig)) (diff : ConfigDiff)
    (hchanged : diff.backendsChanged = changed) (name : String) :
    name ∈ (l.foldl (moveChanged oldPVs) diff).replaced ↔
      name ∈ diff.replaced ∨ ∃ pv, (name, pv) ∈ l ∧ moved oldPVs changed (name, pv) = true := by
  induction l generalizing diff with
  | nil => simp
  | cons item rest ih =>
    obtain ⟨first, pv⟩ := item
    have hnext : (moveChanged oldPVs diff (first, pv)).backendsChanged = changed := by
      rw [moveChanged_backendsChanged, hchanged]
    have hturn : name ∈ (moveChanged oldPVs diff (first, pv)).replaced ↔ name ∈ diff.replaced ∨
        (name = first ∧ moved oldPVs changed (first, pv) = true) := by
      unfold moveChanged moved
      rw [hchanged]
      split
      · rename_i hmoved
        by_cases hmem : first ∈ diff.replaced
        · simp only [List.contains_iff_mem, hmem, if_true]
          constructor
          · exact fun h => .inl h
          · rintro (h | ⟨rfl, -⟩)
            · exact h
            · exact hmem
        · simp only [List.contains_iff_mem, hmem, if_false, List.mem_append, List.mem_singleton]
          rw [and_iff_left hmoved]
      · rename_i hmoved
        simp [hmoved]
    rw [List.foldl_cons, ih _ hnext, hturn, or_assoc]
    simp only [List.mem_cons, Prod.mk.injEq]
    constructor
    · rintro (h | ⟨rfl, hm⟩ | ⟨pv', hmem, hm⟩)
      · exact .inl h
      · exact .inr ⟨pv, .inl ⟨rfl, rfl⟩, hm⟩
      · exact .inr ⟨pv', .inr hmem, hm⟩
    · rintro (h | ⟨pv', ⟨rfl, rfl⟩ | hmem, hm⟩)
      · exact .inl h
      · exact .inr (.inl ⟨rfl, hm⟩)
      · exact .inr (.inr ⟨pv', hmem, hm⟩)

theorem moveLoop_metadataChanged (l : List (String × PVConfig)) (diff : ConfigDiff)
    (hchanged : diff.backendsChanged = changed) :
    (l.foldl (moveChanged oldPVs) diff).metadataChanged = diff.metadataChanged.filter fun name =>
      l.all fun item => !(item.1 == name && moved oldPVs changed item) := by
  induction l generalizing diff with
  | nil => simp
  | cons item rest ih =>
    have hnext : (moveChanged oldPVs diff item).backendsChanged = changed := by
      rw [moveChanged_backendsChanged, hchanged]
    have hturn : (moveChanged oldPVs diff item).metadataChanged =
        diff.metadataChanged.filter fun name => !(item.1 == name && moved oldPVs changed item) := by
      unfold moveChanged moved
      rw [hchanged]
      split
      · rename_i hmoved
        simp only [hmoved, Bool.and_true]
        refine List.filter_congr fun name _ => ?_
        by_cases hname : item.1 = name
        · simp [hname]
        · simp [hname, Ne.symm hname]
      · rename_i hmoved
        simp [hmoved]
    rw [List.foldl_cons, ih _ hnext, hturn, List.filter_filter]
    refine List.filter_congr fun name _ => ?_
    rw [List.all_cons, Bool.and_comm]

theorem nodup_moveLoop_replaced (l : List (String × PVConfig)) (diff : ConfigDiff)
    (h : diff.replaced.Nodup) : (l.foldl (moveChanged oldPVs) diff).replaced.Nodup := by
  induction l generalizing diff with
  | nil => exact h
  | cons item rest ih =>
    rw [List.foldl_cons]
    apply ih
    unfold moveChanged
    split
    · dsimp only
      split
      · exact h
      · rename_i hnot
        have hnew : item.1 ∉ diff.replaced := by simpa using hnot
        exact List.nodup_append.mpr ⟨h, List.nodup_singleton _, fun a ha b hb heq =>
          hnew (List.mem_singleton.mp hb ▸ heq ▸ ha)⟩
    · exact h

end Move

/-! ## The lists of the diff -/

section Lists

variable {before after : AppConfig} {name : String}

/-- The diff before the second loop. -/
def firstPass (before after : AppConfig) : ConfigDiff :=
  { (pvsByName before).entries.foldl (comparePV (pvsByName after))
      { restartRequired := restartRequired before after
        accessChanged :=
          if sameAccessConfig before.access after.access then []
          else ["policy/defaults/watcher"] } with
    added := (pvsByName after).keys.filter fun name => !(pvsByName before).contains name
    backendsChanged := changedBackends before.redisBackends after.redisBackends }

theorem firstPass_eq : firstPass before after =
    { restartRequired := restartRequired before after
      removed := picked (fun item => !(pvsByName after).contains item.1) (pvsByName before)
      added := (pvsByName after).keys.filter fun name => !(pvsByName before).contains name
      aliasesChanged := picked (onBoth (pvsByName after) fun a b => aliasSet a != aliasSet b)
        (pvsByName before)
      replaced := picked (onBoth (pvsByName after) fun a b => !sameReaderTopology a b)
        (pvsByName before)
      metadataChanged := picked (onBoth (pvsByName after) fun a b =>
        sameReaderTopology a b && metadataDiffers a b) (pvsByName before)
      accessChanged :=
        (if sameAccessConfig before.access after.access then [] else ["policy/defaults/watcher"]) ++
        picked (onBoth (pvsByName after) fun a b => !sameAssignment a.access b.access)
          (pvsByName before)
      backendsChanged := changedBackends before.redisBackends after.redisBackends } := by
  rw [firstPass, foldl_comparePV]
  rfl

/-- The second loop and what follows leave most lists alone. -/
theorem diffConfigs_field (field : ConfigDiff → α)
    (hfield : ∀ diff replaced metadataChanged rpcServicesChanged alarmStreamChanged
      catalogMetadataChanged, field { diff with
        replaced, metadataChanged, rpcServicesChanged, alarmStreamChanged,
        catalogMetadataChanged } = field diff) :
    field (diffConfigs before after) = field (firstPass before after) := by
  have hmove : ∀ oldPVs (l : List (String × PVConfig)) diff,
      field (l.foldl (moveChanged oldPVs) diff) = field diff :=
    fun oldPVs l diff => moveLoop_frame field (fun diff replaced metadataChanged =>
      hfield diff replaced metadataChanged diff.rpcServicesChanged diff.alarmStreamChanged
        diff.catalogMetadataChanged) l diff
  exact (hfield _ _ _ _ _ _).trans (hmove (pvsByName before) _ (firstPass before after))

theorem diffConfigs_added : (diffConfigs before after).added =
    (pvsByName after).keys.filter fun name => !(pvsByName before).contains name :=
  diffConfigs_field ConfigDiff.added fun _ _ _ _ _ _ => rfl

theorem diffConfigs_removed : (diffConfigs before after).removed =
    picked (fun item => !(pvsByName after).contains item.1) (pvsByName before) :=
  (diffConfigs_field ConfigDiff.removed fun _ _ _ _ _ _ => rfl).trans (by rw [firstPass_eq])

theorem diffConfigs_aliasesChanged : (diffConfigs before after).aliasesChanged =
    picked (onBoth (pvsByName after) fun a b => aliasSet a != aliasSet b) (pvsByName before) :=
  (diffConfigs_field ConfigDiff.aliasesChanged fun _ _ _ _ _ _ => rfl).trans (by rw [firstPass_eq])

theorem diffConfigs_accessChanged : (diffConfigs before after).accessChanged =
    (if sameAccessConfig before.access after.access then [] else ["policy/defaults/watcher"]) ++
      picked (onBoth (pvsByName after) fun a b => !sameAssignment a.access b.access)
        (pvsByName before) :=
  (diffConfigs_field ConfigDiff.accessChanged fun _ _ _ _ _ _ => rfl).trans (by rw [firstPass_eq])

theorem diffConfigs_backendsChanged : (diffConfigs before after).backendsChanged =
    changedBackends before.redisBackends after.redisBackends :=
  diffConfigs_field ConfigDiff.backendsChanged fun _ _ _ _ _ _ => rfl

theorem diffConfigs_restartRequired : (diffConfigs before after).restartRequired =
    restartRequired before after :=
  (diffConfigs_field ConfigDiff.restartRequired fun _ _ _ _ _ _ => rfl).trans (by rw [firstPass_eq])

/-- New names. -/
theorem mem_added : name ∈ (diffConfigs before after).added ↔
    name ∈ (pvsByName after).keys ∧ name ∉ (pvsByName before).keys := by
  rw [diffConfigs_added, List.mem_filter, FinMap.mem_keys_iff_contains (pvsByName before)]
  simp

/-- Names that are gone. -/
theorem mem_removed : name ∈ (diffConfigs before after).removed ↔
    name ∈ (pvsByName before).keys ∧ name ∉ (pvsByName after).keys := by
  rw [diffConfigs_removed, mem_picked, FinMap.mem_keys (pvsByName before),
    FinMap.mem_keys_iff_contains (pvsByName after)]
  simp

/-- **Replaced**: on both sides, with another topology or on a changed backend. -/
theorem mem_replaced : name ∈ (diffConfigs before after).replaced ↔
    ∃ a b, (pvsByName before).find? name = some a ∧ (pvsByName after).find? name = some b ∧
      (sameReaderTopology a b = false ∨
        usesChanged (changedBackends before.redisBackends after.redisBackends) b = true) := by
  show name ∈ (List.foldl (moveChanged (pvsByName before)) (firstPass before after)
    (pvsByName after).entries).replaced.insertionSort (· ≤ ·) ↔ _
  rw [List.mem_insertionSort, mem_moveLoop_replaced _ (firstPass before after) rfl, firstPass_eq,
    mem_picked_onBoth]
  simp only [moved, FinMap.mem_entries, Bool.and_eq_true, FinMap.contains_iff, Bool.not_eq_true']
  constructor
  · rintro (⟨a, b, ha, hb, htopology⟩ | ⟨b, hb, ⟨a, ha⟩, hused⟩)
    · exact ⟨a, b, ha, hb, .inl htopology⟩
    · exact ⟨a, b, ha, hb, .inr hused⟩
  · rintro ⟨a, b, ha, hb, htopology | hused⟩
    · exact .inl ⟨a, b, ha, hb, htopology⟩
    · exact .inr ⟨b, hb, ⟨a, ha⟩, hused⟩

theorem diffConfigs_metadataChanged : (diffConfigs before after).metadataChanged =
    (picked (onBoth (pvsByName after) fun a b => sameReaderTopology a b && metadataDiffers a b)
      (pvsByName before)).filter fun name => (pvsByName after).entries.all fun item =>
        !(item.1 == name && moved (pvsByName before)
          (changedBackends before.redisBackends after.redisBackends) item) := by
  show (List.foldl (moveChanged (pvsByName before)) (firstPass before after)
    (pvsByName after).entries).metadataChanged = _
  rw [moveLoop_metadataChanged _ (firstPass before after) rfl, firstPass_eq]

/-- **Metadata changes** concern PVs whose runtime can stay. -/
theorem mem_metadataChanged : name ∈ (diffConfigs before after).metadataChanged ↔
    ∃ a b, (pvsByName before).find? name = some a ∧ (pvsByName after).find? name = some b ∧
      sameReaderTopology a b = true ∧ metadataDiffers a b = true ∧
      usesChanged (changedBackends before.redisBackends after.redisBackends) b = false := by
  rw [diffConfigs_metadataChanged, List.mem_filter, mem_picked_onBoth, List.all_eq_true]
  constructor
  · rintro ⟨⟨a, b, ha, hb, hboth⟩, hstay⟩
    have hunused := hstay (name, b) ((FinMap.mem_entries _).mpr hb)
    rw [Bool.and_eq_true] at hboth
    have hcontains : (pvsByName before).contains name = true :=
      (FinMap.contains_iff _ _).mpr ⟨a, ha⟩
    exact ⟨a, b, ha, hb, hboth.1, hboth.2, by simpa [moved, hcontains] using hunused⟩
  · rintro ⟨a, b, ha, hb, htopology, hdiffers, hunused⟩
    refine ⟨⟨a, b, ha, hb, by simp [htopology, hdiffers]⟩, ?_⟩
    rintro ⟨name', b'⟩ hmem
    by_cases hname : name' = name
    · subst hname
      cases hb.symm.trans ((FinMap.mem_entries _).mp hmem)
      simp [moved, hunused]
    · simp [hname]

theorem sorted_metadataChanged : (diffConfigs before after).metadataChanged.Pairwise (· < ·) := by
  rw [diffConfigs_metadataChanged]
  exact (sorted_picked _ _).sublist List.filter_sublist

theorem nodup_added : (diffConfigs before after).added.Nodup := by
  rw [diffConfigs_added]
  exact (pvsByName after).keys_nodup.filter _

theorem nodup_removed : (diffConfigs before after).removed.Nodup := by
  rw [diffConfigs_removed]
  exact (sorted_picked _ _).imp ne_of_lt

theorem nodup_replaced : (diffConfigs before after).replaced.Nodup := by
  show (List.insertionSort (· ≤ ·) (List.foldl (moveChanged (pvsByName before))
    (firstPass before after) (pvsByName after).entries).replaced).Nodup
  apply (List.perm_insertionSort _ _).nodup_iff.mpr
  apply nodup_moveLoop_replaced
  rw [firstPass_eq]
  exact (sorted_picked _ _).imp ne_of_lt

/-- A backend is reported exactly when it is missing on one side or has other settings. -/
theorem mem_changedBackends {before after : RedisBackendConfigs} :
    name ∈ changedBackends before after ↔
      (name ∈ before.keys ∨ name ∈ after.keys) ∧ before.find? name ≠ after.find? name := by
  rw [changedBackends, List.mem_filter, mem_nameSet, List.mem_append]
  apply and_congr_right
  intro hmem
  rw [FinMap.mem_keys, FinMap.mem_keys] at hmem
  unfold backendChanged
  cases hb : before.find? name with
  | none =>
    cases ha : after.find? name with
    | none => simp [ha, hb] at hmem
    | some b => simp
  | some a =>
    cases ha : after.find? name with
    | none => simp
    | some b =>
      rw [Bool.not_eq_true', ← Bool.not_eq_true, sameRedisConfig_iff]
      simp

/-- No restart is required exactly when the immutable sections are equal. -/
theorem restartRequired_eq_nil : restartRequired before after = [] ↔
    before.limits = after.limits ∧ before.server = after.server ∧
      before.access.enabled = after.access.enabled ∧ before.discovery = after.discovery := by
  have hlimits := sameOperationLimits_iff before.limits after.limits
  have hdiscovery := sameDiscoveryConfig_iff before.discovery after.discovery
  have hserver : before.server = after.server ↔
      before.server.instance = after.server.instance ∧
      before.server.nameSpace = after.server.nameSpace ∧
      before.server.interfaces = after.server.interfaces ∧
      before.server.tcpPort = after.server.tcpPort ∧
      before.server.udpPort = after.server.udpPort ∧
      before.server.autoBeacon = after.server.autoBeacon := by
    cases before.server
    cases after.server
    simp
  have hitem : ∀ (p : Prop) [Decidable p] (text : String),
      (if p then [] else [text]) = ([] : List String) ↔ p := by
    intro p _ text
    split <;> simp [*]
  simp only [restartRequired, List.append_eq_nil_iff, hitem, hlimits, hdiscovery, hserver]
  tauto

end Lists

/-! ## Symmetry -/

section Symmetry

variable (a b : AppConfig)

theorem restartRequired_comm : restartRequired a b = restartRequired b a := by
  simp only [restartRequired, comm_of_iff sameOperationLimits_iff a.limits,
    comm_of_iff sameDiscoveryConfig_iff a.discovery, @eq_comm _ a.server.instance,
    @eq_comm _ a.server.nameSpace, @eq_comm _ a.server.interfaces, @eq_comm _ a.server.tcpPort,
    @eq_comm _ a.server.udpPort, @eq_comm _ a.server.autoBeacon, @eq_comm _ a.access.enabled]

theorem changedBackends_comm (m m' : RedisBackendConfigs) :
    changedBackends m m' = changedBackends m' m := by
  have hsorted (m m' : RedisBackendConfigs) : (changedBackends m m').Pairwise (· < ·) :=
    (nameSet (m.keys ++ m'.keys)).sorted.sublist List.filter_sublist
  refine (hsorted m m').eq_of_mem_iff (hsorted m' m) fun name => ?_
  rw [mem_changedBackends, mem_changedBackends, or_comm, ne_comm]

theorem usesChanged_congr {changed : List String} {p q : PVConfig} (h : SameTopology p q) :
    usesChanged changed p = usesChanged changed q := by
  rw [usesChanged, usesChanged, h.read, h.write, h.confirm]

/-- A PV that keeps its topology uses the same backends on both sides. -/
theorem replaced_comm : (diffConfigs a b).replaced = (diffConfigs b a).replaced := by
  have hsorted (a b : AppConfig) : (diffConfigs a b).replaced.Pairwise (· ≤ ·) :=
    List.pairwise_insertionSort (· ≤ ·) _
  have hmem (a b : AppConfig) (name : String) (h : name ∈ (diffConfigs a b).replaced) :
      name ∈ (diffConfigs b a).replaced := by
    obtain ⟨p, q, hp, hq, hcase⟩ := mem_replaced.mp h
    refine mem_replaced.mpr ⟨q, p, hq, hp, ?_⟩
    rw [sameReaderTopology_comm, changedBackends_comm]
    cases htopology : sameReaderTopology p q with
    | false => exact .inl rfl
    | true =>
      rw [usesChanged_congr ((sameReaderTopology_iff p q).mp htopology)]
      exact .inr (hcase.resolve_left (by simp [htopology]))
  exact ((List.perm_ext_iff_of_nodup nodup_replaced nodup_replaced).mpr
    fun name => ⟨hmem a b name, hmem b a name⟩).eq_of_pairwise' (hsorted a b) (hsorted b a)

theorem metadataChanged_comm :
    (diffConfigs a b).metadataChanged = (diffConfigs b a).metadataChanged := by
  have hmem (a b : AppConfig) (name : String) (h : name ∈ (diffConfigs a b).metadataChanged) :
      name ∈ (diffConfigs b a).metadataChanged := by
    obtain ⟨p, q, hp, hq, htopology, hdiffers, hunused⟩ := mem_metadataChanged.mp h
    refine mem_metadataChanged.mpr ⟨q, p, hq, hp, ?_⟩
    rw [sameReaderTopology_comm, metadataDiffers_comm, changedBackends_comm,
      usesChanged_congr ((sameReaderTopology_iff p q).mp htopology)]
    exact ⟨htopology, hdiffers, hunused⟩
  exact sorted_metadataChanged.eq_of_mem_iff sorted_metadataChanged
    fun name => ⟨hmem a b name, hmem b a name⟩

theorem rpcServicesChanged_comm :
    (diffConfigs a b).rpcServicesChanged = (diffConfigs b a).rpcServicesChanged := by
  show (if rpcEqual _ _ then _ else _) = (if rpcEqual _ _ then _ else _)
  rw [comm_of_iff rpcEqual_iff]
  split
  · rfl
  · refine (nameSet _).sorted.eq_of_mem_iff (nameSet _).sorted fun name => ?_
    show name ∈ (nameSet _).keys ↔ name ∈ (nameSet _).keys
    simp only [mem_nameSet, List.map_append, List.mem_append]
    exact or_comm

/-- What the two directions of a diff have in common. -/
structure SymmetricDiff (d d' : ConfigDiff) : Prop where
  added : d.added = d'.removed
  removed : d.removed = d'.added
  replaced : d.replaced = d'.replaced
  metadataChanged : d.metadataChanged = d'.metadataChanged
  accessChanged : d.accessChanged = d'.accessChanged
  aliasesChanged : d.aliasesChanged = d'.aliasesChanged
  backendsChanged : d.backendsChanged = d'.backendsChanged
  rpcServicesChanged : d.rpcServicesChanged = d'.rpcServicesChanged
  restartRequired : d.restartRequired = d'.restartRequired

theorem symmetricDiff : SymmetricDiff (diffConfigs a b) (diffConfigs b a) where
  added := by
    rw [diffConfigs_added, diffConfigs_removed, picked, FinMap.keys, List.filter_map]
    rfl
  removed := by
    rw [diffConfigs_added, diffConfigs_removed, picked, FinMap.keys, List.filter_map]
    rfl
  replaced := replaced_comm a b
  metadataChanged := metadataChanged_comm a b
  accessChanged := by
    rw [diffConfigs_accessChanged, diffConfigs_accessChanged, comm_of_iff sameAccessConfig_iff,
      picked_comm fun p q => by rw [comm_of_iff sameAssignment_iff]]
  aliasesChanged := by
    rw [diffConfigs_aliasesChanged, diffConfigs_aliasesChanged,
      picked_comm fun p q => by rw [bne_comm]]
  backendsChanged := by
    rw [diffConfigs_backendsChanged, diffConfigs_backendsChanged, changedBackends_comm]
  rpcServicesChanged := rpcServicesChanged_comm a b
  restartRequired := by
    rw [diffConfigs_restartRequired, diffConfigs_restartRequired, restartRequired_comm]

end Symmetry

end RedisPvxsIoc.Config
