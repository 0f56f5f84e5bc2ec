import RedisPvxsIoc.Config.Types

/-!
# Names and Their Reservation

The names an application serves (`fullPVNames`, `adminPVNames` of `src/config.cpp`) and the
`EndpointRegistry` of `include/redis_pvxs_ioc/endpoints.h` that reserves them one by one.
A name is reserved for an owner, and a second reservation of it throws.

## Main results

- `reserveAll_ok_iff`: a list of reservations succeeds exactly when the names are legal,
  pairwise distinct and not taken
- `fullPVName_inj`: one server cannot give two canonical names to one PV name
-/

namespace RedisPvxsIoc.Config

open Foundations

/-! ## Sets of names -/

/-- A `std::set<std::string>`. -/
abbrev NameSet := FinMap String Unit

def nameSet (names : List String) : NameSet := FinMap.ofList (names.map fun name => (name, ()))

theorem mem_nameSet {names : List String} {name : String} :
    name ∈ (nameSet names).keys ↔ name ∈ names := by
  rw [nameSet, FinMap.mem_keys_ofList, List.map_map, List.mem_map]
  simp

/-! ## Names -/

def fullPVName (server : ServerConfig) (pv : PVConfig) : String :=
  if server.nameSpace = "" then pv.name else server.nameSpace ++ ":" ++ pv.name

def fullPVNames (server : ServerConfig) (pv : PVConfig) : List String :=
  fullPVName server pv :: pv.aliases

def adminPVName (server : ServerConfig) (suffix : String) : String :=
  "SYS:" ++ server.instance ++ ":" ++ suffix

def versionPVName (server : ServerConfig) : String := server.instance ++ ":version"

def revisionPVName (server : ServerConfig) : String := server.instance ++ ":revision"

/-- The suffixes below `SYS:<instance>:`. -/
def adminSuffixes : List String :=
  ["version", "revision", "config:reload", "config:generation", "config:lastStatus",
    "config:lastError", "config:lastDiff", "config:reloadStatus", "stats:pvCount",
    "stats:ndarrayInvalidFrames", "stats:ndarraySkippedFrames", "stats:ndarrayDiscontinuities",
    "stats:operations", "rpc:status", "alarms:status", "backend:health", "source:status",
    "ready", "access:reload", "access:enabled", "access:generation", "access:lastStatus",
    "access:lastError", "access:policyFingerprint", "access:watchStatus",
    "access:activeClients", "access:deniedReads", "access:deniedWrites",
    "access:rightsChanges", "access:operations", "discovery:status"]

def adminPVNames (server : ServerConfig) : List String :=
  versionPVName server :: revisionPVName server :: adminSuffixes.map (adminPVName server)

theorem fullPVName_inj {server : ServerConfig} {a b : PVConfig} :
    fullPVName server a = fullPVName server b ↔ a.name = b.name := by
  unfold fullPVName
  split
  · rfl
  · rw [String.append_right_inj]

theorem fullPVName_mem (server : ServerConfig) (pv : PVConfig) :
    fullPVName server pv ∈ fullPVNames server pv := List.mem_cons_self

/-- Where all names of the PVs are distinct, so are the first ones. -/
theorem nodup_fullPVName {server : ServerConfig} {pvs : List PVConfig}
    (h : (pvs.flatMap (fullPVNames server)).Nodup) : (pvs.map (fullPVName server)).Nodup := by
  obtain ⟨-, hdisjoint⟩ := List.nodup_flatMap.mp h
  refine List.pairwise_map.mpr (hdisjoint.imp fun {p q} hpq heq => ?_)
  exact hpq (fullPVName_mem server p) (heq ▸ fullPVName_mem server q)

/-! ## Reservations -/

inductive EndpointKind where
  | diagnostic | value | «alias» | rpc
  deriving DecidableEq, Repr

structure EndpointReservation where
  kind : EndpointKind
  owner : String
  deriving DecidableEq, Repr

/-- A legal PV name is not empty and contains no NUL. -/
def validName (name : String) : Bool :=
  name ≠ "" && !name.toList.contains '\x00'

structure EndpointRegistry where
  entries : FinMap String EndpointReservation := ∅

/-- The arguments of one call of `reserve`. -/
structure Reserve where
  name : String
  kind : EndpointKind
  owner : String
  path : String := "endpoints"

namespace EndpointRegistry

def reserve (r : EndpointRegistry) (request : Reserve) : Except String EndpointRegistry :=
  if validName request.name then
    match r.entries.find? request.name with
    | some found =>
      let detail :=
        if found.kind = .diagnostic then
          "PV name conflicts with reserved metadata PV '" ++ request.name ++ "'"
        else "duplicate served PV name '" ++ request.name ++ "'"
      .error (request.path ++ ": " ++ detail ++ " (owned by " ++ found.owner ++ ")")
    | none => .ok ⟨r.entries.insert request.name ⟨request.kind, request.owner⟩⟩
  else .error (request.path ++ ": PV names must be nonempty and must not contain NUL")

/-- The reservations of a loop, in order. -/
def reserveAll (r : EndpointRegistry) (requests : List Reserve) :
    Except String EndpointRegistry :=
  requests.foldlM reserve r

def addDiagnostics (r : EndpointRegistry) (server : ServerConfig) :
    Except String EndpointRegistry :=
  r.reserveAll ((adminPVNames server).map fun name =>
    { name := name, kind := .diagnostic, owner := "runtime" })

/-- What `addPV` asks for: the canonical name first, then the aliases. -/
def pvRequests (server : ServerConfig) (pv : PVConfig) (path : String) : List Reserve :=
  { name := fullPVName server pv
    kind := .value
    owner := fullPVName server pv
    path := path ++ ".name" } ::
  pv.aliases.zipIdx.map fun (name, index) =>
    { name := name
      kind := .«alias»
      owner := fullPVName server pv
      path := path ++ ".aliases[" ++ toString index ++ "]" }

def addPV (r : EndpointRegistry) (server : ServerConfig) (pv : PVConfig) (path : String) :
    Except String EndpointRegistry :=
  r.reserveAll (pvRequests server pv path)

/-! ## What a successful reservation says -/

variable {r : EndpointRegistry}

theorem reserve_ok_iff {r' : EndpointRegistry} {request : Reserve} :
    r.reserve request = .ok r' ↔ validName request.name = true ∧
      r.entries.find? request.name = none ∧
      r' = ⟨r.entries.insert request.name ⟨request.kind, request.owner⟩⟩ := by
  unfold reserve
  split
  · rename_i hvalid
    cases hfind : r.entries.find? request.name with
    | none => simp [hvalid, eq_comm]
    | some found => simp
  · rename_i hvalid
    simp [hvalid]

theorem reserveAll_cons {request : Reserve} {rest : List Reserve} :
    r.reserveAll (request :: rest) = (r.reserve request).bind fun r' => r'.reserveAll rest :=
  List.foldlM_cons

/-- **Reservation of a list.**  It succeeds exactly for legal, pairwise distinct names that
    nobody has reserved, and then precisely these names are added. -/
theorem reserveAll_ok_iff {requests : List Reserve} :
    (∃ r', r.reserveAll requests = .ok r') ↔
      (∀ request ∈ requests, validName request.name = true ∧
        r.entries.find? request.name = none) ∧ (requests.map Reserve.name).Nodup := by
  induction requests generalizing r with
  | nil => simp [reserveAll, pure, Except.pure]
  | cons request rest ih =>
    simp only [reserveAll_cons, List.map_cons, List.nodup_cons, List.forall_mem_cons]
    constructor
    · rintro ⟨r', h⟩
      cases hfirst : r.reserve request with
      | error e =>
        rw [hfirst] at h
        cases h
      | ok mid =>
        rw [hfirst] at h
        obtain ⟨hvalid, hfree, rfl⟩ := reserve_ok_iff.mp hfirst
        obtain ⟨hrest, hnodup⟩ := ih.mp ⟨r', h⟩
        -- a name equal to the first one would be taken by now
        have hne : ∀ other ∈ rest, other.name ≠ request.name := by
          intro other hmem heq
          have := (hrest other hmem).2
          rw [heq, FinMap.find?_insert_self] at this
          cases this
        refine ⟨⟨⟨hvalid, hfree⟩, ?_⟩, ?_, hnodup⟩
        · intro other hmem
          obtain ⟨hv, hf⟩ := hrest other hmem
          rw [FinMap.find?_insert_ne _ _ (hne other hmem)] at hf
          exact ⟨hv, hf⟩
        · intro hmem
          obtain ⟨other, hother, heq⟩ := List.mem_map.mp hmem
          exact hne other hother heq
    · rintro ⟨⟨⟨hvalid, hfree⟩, hrest⟩, hnot, hnodup⟩
      rw [reserve_ok_iff.mpr ⟨hvalid, hfree, rfl⟩]
      refine ih.mpr ⟨?_, hnodup⟩
      intro other hmem
      have hne : other.name ≠ request.name := fun heq => hnot (heq ▸ List.mem_map_of_mem hmem)
      rw [FinMap.find?_insert_ne _ _ hne]
      exact hrest other hmem

/-- The names that are reserved afterwards. -/
theorem mem_keys_reserveAll {r' : EndpointRegistry} {requests : List Reserve}
    (h : r.reserveAll requests = .ok r') (name : String) :
    name ∈ r'.entries.keys ↔ name ∈ r.entries.keys ∨ name ∈ requests.map Reserve.name := by
  induction requests generalizing r with
  | nil =>
    cases h
    simp
  | cons request rest ih =>
    rw [reserveAll_cons] at h
    cases hfirst : r.reserve request with
    | error e =>
      rw [hfirst] at h
      cases h
    | ok mid =>
      rw [hfirst] at h
      obtain ⟨-, -, rfl⟩ := reserve_ok_iff.mp hfirst
      rw [ih h, FinMap.mem_keys_insert, List.map_cons, List.mem_cons]
      tauto

theorem names_pvRequests (server : ServerConfig) (pv : PVConfig) (path : String) :
    (pvRequests server pv path).map Reserve.name = fullPVNames server pv := by
  simp only [pvRequests, List.map_cons, List.map_map, fullPVNames, List.cons.injEq, true_and]
  exact List.zipIdx_map_fst 0 pv.aliases

end EndpointRegistry

/-! ## The endpoints of a configuration -/

def pvPath (index : Nat) : String := "root.pvs[" ++ toString index ++ "]"

def configuredEndpoints (config : AppConfig) : Except String EndpointRegistry := do
  let result ← EndpointRegistry.addDiagnostics {} config.server
  config.pvs.zipIdx.foldlM (fun r (pv, index) => r.addPV config.server pv (pvPath index)) result

end RedisPvxsIoc.Config
