import RedisPvxsIoc.Config.Parse

/-!
# Which PV Lists Are Accepted

The loop over `pvs` keeps three accumulators at once: the reserved names, the subscribed
`(backend, key)` pairs and the PVs with their routes resolved.  Seen from outside it accepts a
list exactly when three independent conditions hold, and the order of the PVs does not matter
for any of them.

## Main definitions

- `Resolves`: what an alias of a route stands for
- `ResolvedPV`: a PV and what the loop stores for it
- `CollisionFree`: the conditions

## Main results

- `nodup_adminPVNames`: the diagnostics of a server never collide among themselves
- `pvLoop_accepts_iff`: the loop accepts exactly the collision-free, fully resolved lists
-/

namespace RedisPvxsIoc.Config

open Foundations

/-! ## The diagnostics of a server -/

theorem adminSuffixes_facts : adminSuffixes.Nodup ∧ ∀ suffix ∈ adminSuffixes,
    suffix.length ≠ 3 ∧ suffix.length ≠ 4 ∧ suffix.toList.contains '\x00' = false := by
  decide +kernel

/-- **Diagnostics are distinct**, whatever the instance is called.  The two names outside
    `SYS:` have other lengths than those inside. -/
theorem nodup_adminPVNames (server : ServerConfig) : (adminPVNames server).Nodup := by
  obtain ⟨hnodup, hlength⟩ := adminSuffixes_facts
  have hsys : (adminSuffixes.map (adminPVName server)).Nodup := by
    refine hnodup.map ?_
    intro a b hab
    exact (String.append_right_inj _).mp hab
  have hshort : ∀ tail : String, (tail.length = 8 ∨ tail.length = 9) →
      server.instance ++ tail ∉ adminSuffixes.map (adminPVName server) := by
    intro tail htail hmem
    obtain ⟨suffix, hsuffix, heq⟩ := List.mem_map.mp hmem
    have hsize := congrArg String.length heq
    simp only [adminPVName, String.length_append] at hsize
    have hSYS : "SYS:".length = 4 := by decide
    have hcolon : ":".length = 1 := by decide
    have := hlength suffix hsuffix
    omega
  have hrevision : revisionPVName server ∉ adminSuffixes.map (adminPVName server) :=
    hshort ":revision" (.inr (by decide))
  have hversion : versionPVName server ∉ adminSuffixes.map (adminPVName server) :=
    hshort ":version" (.inl (by decide))
  have hne : versionPVName server ≠ revisionPVName server := by
    intro h
    have := (String.append_right_inj _).mp h
    revert this
    decide
  refine List.nodup_cons.mpr ⟨?_, List.nodup_cons.mpr ⟨hrevision, hsys⟩⟩
  intro hmem
  rcases List.mem_cons.mp hmem with h | h
  · exact hne h
  · exact hversion h

theorem validName_append {a b : String} (hne : b ≠ "")
    (ha : a.toList.contains '\x00' = false) (hb : b.toList.contains '\x00' = false) :
    validName (a ++ b) = true := by
  have hnonempty : a ++ b ≠ "" := by
    intro h
    have hlist := congrArg String.toList h
    simp only [String.toList_append] at hlist
    have hnil : b.toList = [] := (List.append_eq_nil_iff.mp hlist).2
    exact hne (String.toList_eq_nil_iff.mp hnil)
  rw [validName, String.toList_append, List.contains_append, ha, hb]
  simp [hnonempty]

/-- With a NUL-free instance all of them are legal. -/
theorem validName_adminPVNames (server : ServerConfig)
    (hnul : server.instance.toList.contains '\x00' = false) :
    ∀ name ∈ adminPVNames server, validName name = true := by
  intro name hname
  have hplain : ∀ tail : String, tail ≠ "" → tail.toList.contains '\x00' = false →
      validName (server.instance ++ tail) = true := fun tail => fun h => validName_append h hnul
  rcases List.mem_cons.mp hname with rfl | hname
  · exact hplain ":version" (by decide) (by decide)
  rcases List.mem_cons.mp hname with rfl | hname
  · exact hplain ":revision" (by decide) (by decide)
  obtain ⟨suffix, hsuffix, rfl⟩ := List.mem_map.mp hname
  have hfree := (adminSuffixes_facts.2 suffix hsuffix).2.2
  unfold adminPVName
  rw [String.append_assoc]
  refine validName_append ?_ ?_ ?_
  · intro h
    have hlist := congrArg String.length h
    simp [String.length_append] at hlist
  · rw [String.toList_append, List.contains_append, hnul]
    decide
  · rw [String.toList_append, List.contains_append, hfree]
    decide

/-! ## The conditions -/

/-- What an alias of a route stands for: the only backend when it is empty, `default` for the
    legacy spelling, and otherwise itself. -/
inductive Resolves (scope : PVScope) : String → String → Prop where
  | only {name backend : String} (hname : name = "")
      (h : scope.redisBackends.keys = [backend]) : Resolves scope name backend
  | legacy {name : String} (hlegacy : scope.hasLegacyRedis = true) (hname : name = "redis")
      (h : kDefaultRedisBackendAlias ∈ scope.redisBackends.keys) :
      Resolves scope name kDefaultRedisBackendAlias
  | named {name : String} (hne : name ≠ "") (h : name ∈ scope.redisBackends.keys)
      (hother : ¬ (scope.hasLegacyRedis = true ∧ name = "redis" ∧
        kDefaultRedisBackendAlias ∈ scope.redisBackends.keys)) : Resolves scope name name

/-- The access assignment of a stored PV: a missing one is filled in. -/
def filledAccess (scope : PVScope) (pv : PVConfig) : Option AccessAssignment :=
  if scope.access.enabled then some (pv.access.getD scope.access.defaults.pv) else none

/-- A PV of the document and the one that is stored for it: the aliases of the routes are
    resolved and a missing access assignment is filled in. -/
structure ResolvedPV (scope : PVScope) (pv out : PVConfig) : Prop where
  read : Resolves scope pv.read.backend out.read.backend
  write : ∀ route, pv.write = some route →
    ∃ backend, Resolves scope route.backend backend ∧ out.write = some { route with backend }
  confirm : ∀ route, pv.confirm = some route →
    ∃ backend, Resolves scope route.backend backend ∧ out.confirm = some { route with backend }
  rest : out = { pv with
    read := { pv.read with backend := out.read.backend }
    write := if pv.write.isSome then out.write else none
    confirm := if pv.confirm.isSome then out.confirm else none
    access := filledAccess scope pv }

/-- The pairs that a PV subscribes to. -/
def subscriptions (pv : PVConfig) : List (String × String) :=
  (pv.read.backend, pv.read.key) ::
    match pv.confirm with
    | none => []
    | some confirm =>
      if (confirm.backend, confirm.key) = (pv.read.backend, pv.read.key) then []
      else [(confirm.backend, confirm.key)]

/-- All names that a list of PVs serves. -/
def servedNames (server : ServerConfig) (pvs : List PVConfig) : List String :=
  pvs.flatMap (fullPVNames server)

/-- **Collision-free and fully resolved**, with the resulting PVs in input order. -/
structure CollisionFree (scope : PVScope) (pvs out : List PVConfig) : Prop where
  resolved : List.Forall₂ (ResolvedPV scope) pvs out
  legal : ∀ name ∈ servedNames scope.server pvs, name ≠ "" ∧ '\x00' ∉ name.toList
  distinct : (servedNames scope.server pvs).Nodup
  reserved : ∀ name ∈ servedNames scope.server pvs, name ∉ adminPVNames scope.server
  subscribed : (out.flatMap subscriptions).Nodup

/-! ## Resolution -/

variable {pv out : PVConfig}

section Resolution

variable {scope : PVScope} {path : String}

theorem keys_contains {name : String} :
    scope.redisBackends.contains name = true ↔ name ∈ scope.redisBackends.keys :=
  scope.redisBackends.mem_keys_iff_contains.symm

theorem resolve_ok_iff {name target : String} :
    scope.resolve path name = .ok target ↔ Resolves scope name target := by
  unfold PVScope.resolve resolveBackendAlias
  split
  · rename_i hempty
    constructor
    · intro h
      split at h
      · rename_i only config hentries
        cases h
        exact .only hempty (by rw [FinMap.keys, hentries]; rfl)
      · cases h
    · intro h
      cases h with
      | only _ hkeys =>
        obtain ⟨entry, hentries, rfl⟩ := List.map_eq_singleton_iff.mp hkeys
        rw [hentries]
      | legacy _ hname => exact absurd (hempty.symm.trans hname) (by decide)
      | named hne => exact absurd hempty hne
  · rename_i hne
    by_cases hlegacy : scope.hasLegacyRedis = true ∧ name = "redis" ∧
        kDefaultRedisBackendAlias ∈ scope.redisBackends.keys
    · obtain ⟨hflag, hname, hdefault⟩ := hlegacy
      simp only [hflag, hname, keys_contains.mpr hdefault, and_self, if_true]
      constructor
      · intro h
        cases h
        exact .legacy hflag rfl hdefault
      · intro h
        cases h with
        | only hempty => exact absurd (hname.trans hempty) hne
        | legacy => rfl
        | named _ _ hother => exact absurd ⟨hflag, rfl, hdefault⟩ hother
    · have hplain : ¬ (scope.hasLegacyRedis = true ∧ name = "redis" ∧
          scope.redisBackends.contains kDefaultRedisBackendAlias = true) := by
        rw [keys_contains]
        exact hlegacy
      simp only [hplain, if_false]
      constructor
      · intro h
        split at h
        · rename_i hcontains
          cases h
          exact .named hne (keys_contains.mp hcontains) hlegacy
        · cases h
      · intro h
        cases h with
        | only hempty => exact absurd hempty hne
        | legacy hflag hname hdefault => exact absurd ⟨hflag, hname, hdefault⟩ hlegacy
        | named _ hmem => simp [keys_contains.mpr hmem]

theorem resolveWrite_iff {given out : Option RouteConfig} :
    resolveWrite scope path given = .ok out ↔
      (given = none ∧ out = none) ∨ ∃ route backend, given = some route ∧
        Resolves scope route.backend backend ∧ out = some { route with backend } := by
  cases given with
  | none => simp [resolveWrite, eq_comm]
  | some route =>
    simp only [resolveWrite, bind_eq_ok, resolve_ok_iff]
    constructor
    · rintro ⟨backend, hbackend, h⟩
      cases h
      exact .inr ⟨route, backend, rfl, hbackend, rfl⟩
    · rintro (⟨h, -⟩ | ⟨route', backend, heq, hbackend, rfl⟩)
      · cases h
      · cases heq
        exact ⟨backend, hbackend, rfl⟩

theorem resolveConfirm_iff {given out : Option ConfirmConfig} :
    resolveConfirm scope path given = .ok out ↔
      (given = none ∧ out = none) ∨ ∃ route backend, given = some route ∧
        Resolves scope route.backend backend ∧ out = some { route with backend } := by
  cases given with
  | none => simp [resolveConfirm, eq_comm]
  | some route =>
    simp only [resolveConfirm, bind_eq_ok, resolve_ok_iff]
    constructor
    · rintro ⟨backend, hbackend, h⟩
      cases h
      exact .inr ⟨route, backend, rfl, hbackend, rfl⟩
    · rintro (⟨h, -⟩ | ⟨route', backend, heq, hbackend, rfl⟩)
      · cases h
      · cases heq
        exact ⟨backend, hbackend, rfl⟩

/-- The access assignment that the loop gives a PV. -/
def withAccess (scope : PVScope) (pv : PVConfig) : PVConfig :=
  if pv.access.isNone ∧ scope.access.enabled then
    { pv with access := some scope.access.defaults.pv }
  else pv

theorem resolveRoutes_iff (haccess : pv.access.isSome = true → scope.access.enabled = true) :
    resolveRoutes scope path (withAccess scope pv) = .ok out ↔ ResolvedPV scope pv out := by
  have hfields : withAccess scope pv = { pv with access := filledAccess scope pv } := by
    unfold withAccess filledAccess
    cases hpv : pv.access with
    | none =>
      cases henabled : scope.access.enabled
      · simp [← hpv]
      · simp
    | some assignment =>
      have henabled := haccess (by rw [hpv]; rfl)
      have hself : { pv with access := some assignment } = pv := by rw [← hpv]
      simp [henabled, hself]
  rw [hfields]
  simp only [resolveRoutes, bind_eq_ok, resolve_ok_iff, resolveWrite_iff, resolveConfirm_iff]
  constructor
  · rintro ⟨backend, hread, write, hwrite, confirm, hconfirm, h⟩
    cases h
    refine ⟨hread, ?_, ?_, ?_⟩
    · rintro route hroute
      rcases hwrite with ⟨hnone, -⟩ | ⟨route', target, hsome, htarget, rfl⟩
      · rw [hnone] at hroute
        cases hroute
      · rw [hsome] at hroute
        cases hroute
        exact ⟨target, htarget, rfl⟩
    · rintro route hroute
      rcases hconfirm with ⟨hnone, -⟩ | ⟨route', target, hsome, htarget, rfl⟩
      · rw [hnone] at hroute
        cases hroute
      · rw [hsome] at hroute
        cases hroute
        exact ⟨target, htarget, rfl⟩
    · rcases hwrite with ⟨hw, rfl⟩ | ⟨_, _, hw, -, rfl⟩ <;>
        rcases hconfirm with ⟨hc, rfl⟩ | ⟨_, _, hc, -, rfl⟩ <;> simp [hw, hc]
  · intro h
    refine ⟨out.read.backend, h.read, out.write, ?_, out.confirm, ?_, ?_⟩
    · cases hw : pv.write with
      | none =>
        refine .inl ⟨rfl, ?_⟩
        rw [h.rest, hw]
        rfl
      | some route =>
        obtain ⟨backend, hbackend, hout⟩ := h.write route hw
        exact .inr ⟨route, backend, rfl, hbackend, hout⟩
    · cases hc : pv.confirm with
      | none =>
        refine .inl ⟨rfl, ?_⟩
        rw [h.rest, hc]
        rfl
      | some route =>
        obtain ⟨backend, hbackend, hout⟩ := h.confirm route hc
        exact .inr ⟨route, backend, rfl, hbackend, hout⟩
    · have hrest := h.rest
      refine congrArg Except.ok ?_
      conv_rhs => rw [hrest]
      have hwrite : (if pv.write.isSome then out.write else none) = out.write := by
        conv_rhs => rw [hrest]
      have hconfirm : (if pv.confirm.isSome then out.confirm else none) = out.confirm := by
        conv_rhs => rw [hrest]
      rw [hwrite, hconfirm]

theorem ResolvedPV.names {server : ServerConfig} (h : ResolvedPV scope pv out) :
    fullPVNames server out = fullPVNames server pv := by
  rw [h.rest]
  rfl

end Resolution

/-! ## One turn of the loop -/

variable {acc : PVLoop}

section Turn

variable {scope : PVScope}

theorem subscribe_ok_iff {path backend key : String} {keys keys' : List (String × String)} :
    subscribe path keys backend key = .ok keys' ↔
      (backend, key) ∉ keys ∧ keys' = keys ++ [(backend, key)] := by
  unfold subscribe
  split
  · rename_i hmem
    simp [fail, hmem]
  · rename_i hmem
    simp [hmem, eq_comm]

theorem nodup_append_singleton {α : Type} {keys : List α} {key : α} (hkeys : keys.Nodup) :
    (keys ++ [key]).Nodup ↔ key ∉ keys := by
  rw [List.nodup_append]
  constructor
  · rintro ⟨-, -, hdisjoint⟩ hmem
    exact hdisjoint key hmem key (List.mem_singleton_self _) rfl
  · intro hnot
    refine ⟨hkeys, List.nodup_singleton _, ?_⟩
    intro a ha b hb hab
    rw [List.mem_singleton.mp hb] at hab
    exact hnot (hab ▸ ha)

/-- Both insertions of a turn succeed exactly when the PV's subscriptions are new. -/
theorem subscribePV_ok_iff (readPath confirmPath : String) {keys keys' : List (String × String)}
    (hkeys : keys.Nodup) :
    (∃ mid, subscribe readPath keys pv.read.backend pv.read.key = .ok mid ∧
      subscribeConfirm confirmPath mid pv = .ok keys') ↔
      (keys ++ subscriptions pv).Nodup ∧ keys' = keys ++ subscriptions pv := by
  simp only [subscribe_ok_iff]
  unfold subscribeConfirm subscriptions
  cases hconfirm : pv.confirm with
  | none =>
    rw [nodup_append_singleton hkeys]
    constructor
    · rintro ⟨mid, ⟨hnot, rfl⟩, h⟩
      cases h
      exact ⟨hnot, rfl⟩
    · rintro ⟨hnot, rfl⟩
      exact ⟨_, ⟨hnot, rfl⟩, rfl⟩
  | some confirm =>
    dsimp only
    by_cases hsame : (confirm.backend, confirm.key) = (pv.read.backend, pv.read.key)
    · -- the confirmation reads the stream that is subscribed already
      have hkeep : ¬ (confirm.backend ≠ pv.read.backend ∨ confirm.key ≠ pv.read.key) := by
        rw [Prod.mk.injEq] at hsame
        simp [hsame]
      simp only [hkeep, hsame, if_false, if_true]
      rw [nodup_append_singleton hkeys]
      constructor
      · rintro ⟨mid, ⟨hnot, rfl⟩, h⟩
        cases h
        exact ⟨hnot, rfl⟩
      · rintro ⟨hnot, rfl⟩
        exact ⟨_, ⟨hnot, rfl⟩, rfl⟩
    · have hadd : confirm.backend ≠ pv.read.backend ∨ confirm.key ≠ pv.read.key := by
        rw [Prod.mk.injEq] at hsame
        tauto
      simp only [hadd, hsame, if_false, if_true, subscribe_ok_iff]
      have hsplit : keys ++ [(pv.read.backend, pv.read.key), (confirm.backend, confirm.key)] =
          (keys ++ [(pv.read.backend, pv.read.key)]) ++ [(confirm.backend, confirm.key)] := by
        simp
      rw [hsplit]
      constructor
      · rintro ⟨mid, ⟨hread, rfl⟩, hconf, rfl⟩
        have hmid := (nodup_append_singleton hkeys).mpr hread
        exact ⟨(nodup_append_singleton hmid).mpr hconf, rfl⟩
      · rintro ⟨hnodup, rfl⟩
        have hmid := (List.nodup_append.mp hnodup).1
        exact ⟨_, ⟨(nodup_append_singleton hkeys).mp hmid, rfl⟩,
          (nodup_append_singleton hmid).mp hnodup, rfl⟩

/-- The state of the loop in the terms of the conditions: what is reserved and subscribed. -/
structure Holding (acc : PVLoop) (names : List String) : Prop where
  reserved : ∀ name, name ∈ acc.endpoints.entries.keys ↔ name ∈ names
  distinct : names.Nodup
  subscribed : acc.subscribedKeys.Nodup

/-- The names of a PV can be reserved exactly when they are legal and new. -/
theorem addPV_ok_iff {names : List String} (hacc : Holding acc names) (path : String) :
    (∃ endpoints, acc.endpoints.addPV scope.server pv path = .ok endpoints) ↔
      (∀ name ∈ fullPVNames scope.server pv, validName name = true) ∧
        (names ++ fullPVNames scope.server pv).Nodup := by
  unfold EndpointRegistry.addPV
  rw [EndpointRegistry.reserveAll_ok_iff, EndpointRegistry.names_pvRequests]
  have hnames := EndpointRegistry.names_pvRequests scope.server pv path
  have hall : (∀ request ∈ EndpointRegistry.pvRequests scope.server pv path,
      validName request.name = true ∧ acc.endpoints.entries.find? request.name = none) ↔
      ∀ name ∈ fullPVNames scope.server pv, validName name = true ∧ name ∉ names := by
    rw [← hnames]
    simp only [List.forall_mem_map, ← hacc.reserved, FinMap.mem_keys]
    simp [Option.eq_none_iff_forall_not_mem]
  rw [hall, List.nodup_append]
  constructor
  · rintro ⟨hlegal, hnodup⟩
    refine ⟨fun name hname => (hlegal name hname).1, hacc.distinct, hnodup, ?_⟩
    intro a ha b hb hab
    exact (hlegal b hb).2 (hab ▸ ha)
  · rintro ⟨hvalid, -, hnodup, hdisjoint⟩
    exact ⟨fun name hname => ⟨hvalid name hname, fun hmem =>
      hdisjoint name hmem name hname rfl⟩, hnodup⟩

/-- **One turn**, from outside. -/
theorem acceptPV_ok_iff {acc' : PVLoop} {names : List String} (hacc : Holding acc names)
    {index : Nat} (haccess : pv.access.isSome = true → scope.access.enabled = true) :
    acceptPV scope acc (pv, index) = .ok acc' ↔ ∃ out endpoints, ResolvedPV scope pv out ∧
      acc.endpoints.addPV scope.server out (pvPath index) = .ok endpoints ∧
      (acc.subscribedKeys ++ subscriptions out).Nodup ∧
      acc' = { endpoints := endpoints
               subscribedKeys := acc.subscribedKeys ++ subscriptions out
               pvs := acc.pvs ++ [out] } := by
  have hcheck : check (pv.access.isNone || scope.access.enabled) (pvPath index ++ ".access")
      "requires root.access.enabled: true" = .ok () := by
    unfold check
    cases hpv : pv.access with
    | none => simp
    | some assignment =>
      rw [hpv] at haccess
      simp [haccess rfl]
  simp only [acceptPV, bind_eq_ok, hcheck]
  constructor
  · rintro ⟨-, -, out, hout, endpoints, hendpoints, mid, hmid, keys, hkeys, h⟩
    cases h
    obtain ⟨hnodup, rfl⟩ := (subscribePV_ok_iff _ _ hacc.subscribed).mp ⟨mid, hmid, hkeys⟩
    exact ⟨out, endpoints, (resolveRoutes_iff haccess).mp hout, hendpoints, hnodup, rfl⟩
  · rintro ⟨out, endpoints, hout, hendpoints, hnodup, rfl⟩
    obtain ⟨mid, hmid, hkeys⟩ := (subscribePV_ok_iff (pvPath index ++ ".read.key")
      (pvPath index ++ ".confirm.key") hacc.subscribed).mpr ⟨hnodup, rfl⟩
    exact ⟨(), trivial, out, (resolveRoutes_iff haccess).mpr hout, endpoints, hendpoints, mid,
      hmid, _, hkeys, rfl⟩

/-- What is reserved and subscribed after a turn. -/
theorem Holding.turn {names : List String} (hacc : Holding acc names) {path : String}
    {endpoints : EndpointRegistry}
    (hendpoints : acc.endpoints.addPV scope.server out path = .ok endpoints)
    (hnodup : (acc.subscribedKeys ++ subscriptions out).Nodup) :
    Holding { endpoints := endpoints
              subscribedKeys := acc.subscribedKeys ++ subscriptions out
              pvs := acc.pvs ++ [out] } (names ++ fullPVNames scope.server out) := by
  refine ⟨?_, ((addPV_ok_iff hacc _).mp ⟨endpoints, hendpoints⟩).2, hnodup⟩
  intro name
  rw [EndpointRegistry.mem_keys_reserveAll hendpoints, EndpointRegistry.names_pvRequests,
    hacc.reserved, List.mem_append]

end Turn

/-! ## The loop -/

section Loop

variable {scope : PVScope}

/-- Every turn appends one PV. -/
theorem acceptPVs_grows {entries : List (PVConfig × Nat)} {loop : PVLoop}
    (hloop : entries.foldlM (acceptPV scope) acc = .ok loop) :
    ∃ tail, loop.pvs = acc.pvs ++ tail := by
  refine foldlM_ok (P := fun _ a => ∃ tail, a.pvs = acc.pvs ++ tail) ?_ ⟨[], by simp⟩ hloop
  rintro done ⟨pv, index⟩ todo a a' - ⟨tail, htail⟩ hstep
  simp only [acceptPV, bind_eq_ok] at hstep
  obtain ⟨_, _, last, _, _, _, _, _, _, _, h⟩ := hstep
  cases h
  exact ⟨tail ++ [last], by simp [htail]⟩

/-- The conditions relative to what is held already, by induction on the PVs still to come. -/
theorem acceptPVs_iff {pvs : List PVConfig}
    (haccess : ∀ pv ∈ pvs, pv.access.isSome = true → scope.access.enabled = true)
    {names : List String} (hacc : Holding acc names) (index : Nat) (out : List PVConfig) :
    (∃ loop, (pvs.zipIdx index).foldlM (acceptPV scope) acc = .ok loop ∧
      loop.pvs = acc.pvs ++ out) ↔
      List.Forall₂ (ResolvedPV scope) pvs out ∧
      (∀ name ∈ servedNames scope.server pvs, validName name = true) ∧
      (names ++ servedNames scope.server pvs).Nodup ∧
      (acc.subscribedKeys ++ out.flatMap subscriptions).Nodup := by
  induction pvs generalizing acc names index out with
  | nil =>
    simp only [List.zipIdx_nil, List.foldlM_nil, servedNames, List.flatMap_nil, List.append_nil,
      List.forall₂_nil_left_iff]
    constructor
    · rintro ⟨loop, h, hpvs⟩
      cases h
      obtain rfl : out = [] := by simpa using hpvs
      exact ⟨rfl, by simp, hacc.distinct, by simpa using hacc.subscribed⟩
    · rintro ⟨rfl, -, -, -⟩
      exact ⟨acc, rfl, by simp⟩
  | cons pv rest ih =>
    have hpv := haccess pv List.mem_cons_self
    have hrest : ∀ pv ∈ rest, pv.access.isSome = true → scope.access.enabled = true :=
      fun pv' hmem => haccess pv' (List.mem_cons_of_mem _ hmem)
    have hserved : servedNames scope.server (pv :: rest) =
        fullPVNames scope.server pv ++ servedNames scope.server rest := List.flatMap_cons
    rw [List.zipIdx_cons, List.foldlM_cons, hserved]
    simp only [bind_eq_ok, acceptPV_ok_iff hacc hpv]
    constructor
    · rintro ⟨loop, ⟨acc', ⟨first, endpoints, hfirst, hendpoints, hnodup, rfl⟩, hloop⟩, hpvs⟩
      have hnext := hacc.turn hendpoints hnodup
      have hnew := (addPV_ok_iff hacc _).mp ⟨endpoints, hendpoints⟩
      -- the PVs that follow are appended to the ones before
      obtain ⟨tail, htail⟩ := acceptPVs_grows hloop
      obtain rfl : out = first :: tail := by
        rw [htail, List.append_assoc] at hpvs
        simpa using (List.append_cancel_left hpvs).symm
      obtain ⟨hresolved, hlegal, hdistinct, hsubscribed⟩ :=
        (ih hrest hnext (index + 1) tail).mp ⟨loop, hloop, htail⟩
      rw [hfirst.names] at hnew hdistinct
      refine ⟨.cons hfirst hresolved, ?_, ?_, ?_⟩
      · intro name hname
        rcases List.mem_append.mp hname with h | h
        · exact hnew.1 name h
        · exact hlegal name h
      · rw [← List.append_assoc]
        exact hdistinct
      · rw [List.flatMap_cons, ← List.append_assoc]
        exact hsubscribed
    · rintro ⟨hresolved, hlegal, hdistinct, hsubscribed⟩
      cases hresolved with
      | cons hfirst htail =>
        rename_i first tail
        rw [← List.append_assoc] at hdistinct
        rw [List.flatMap_cons, ← List.append_assoc] at hsubscribed
        have hnodup := (List.nodup_append.mp hsubscribed).1
        obtain ⟨endpoints, hendpoints⟩ := (addPV_ok_iff hacc (pvPath index)).mpr
          ⟨fun name hname => hlegal name (List.mem_append_left _ (hfirst.names ▸ hname)),
            hfirst.names ▸ (List.nodup_append.mp hdistinct).1⟩
        have hnext := hacc.turn hendpoints hnodup
        obtain ⟨loop, hloop, hpvs⟩ := (ih hrest hnext (index + 1) tail).mpr
          ⟨htail, fun name hname => hlegal name (List.mem_append_right _ hname),
            hfirst.names ▸ hdistinct, hsubscribed⟩
        refine ⟨loop, ⟨_, ⟨first, endpoints, hfirst, hendpoints, hnodup, rfl⟩, hloop⟩, ?_⟩
        rw [hpvs]
        simp

/-- **Configuration loading accepts exactly the collision-free, fully resolved PV lists**, and
    what it stores are the resolved PVs in input order. -/
theorem pvLoop_accepts_iff (scope : PVScope) (pvs out : List PVConfig)
    (hinstance : scope.server.instance ≠ "" ∧ '\x00' ∉ scope.server.instance.toList)
    (haccess : ∀ pv ∈ pvs, pv.access.isSome = true → scope.access.enabled = true) :
    (∃ loop, pvLoop scope pvs = .ok loop ∧ loop.pvs = out) ↔ CollisionFree scope pvs out := by
  have hvalid := validName_adminPVNames scope.server (by simpa using hinstance.2)
  -- the diagnostics can always be reserved, and hold exactly their names
  obtain ⟨endpoints, hendpoints⟩ : ∃ endpoints,
      EndpointRegistry.addDiagnostics {} scope.server = .ok endpoints := by
    refine EndpointRegistry.reserveAll_ok_iff.mpr ⟨?_, ?_⟩
    · intro request hrequest
      obtain ⟨name, hname, rfl⟩ := List.mem_map.mp hrequest
      exact ⟨hvalid name hname, rfl⟩
    · simpa [Function.comp_def] using nodup_adminPVNames scope.server
  have hstart : Holding { endpoints := endpoints } (adminPVNames scope.server) := by
    have hloop := loopOk_start hendpoints
    refine ⟨?_, nodup_adminPVNames scope.server, List.nodup_nil⟩
    intro name
    simpa using hloop.reserved name
  have hlegal : ∀ name, validName name = true ↔ name ≠ "" ∧ '\x00' ∉ name.toList := by
    intro name
    simp [validName]
  have hiff := acceptPVs_iff haccess hstart 0 out
  simp only [List.nil_append] at hiff
  have hrun : (∃ loop, pvLoop scope pvs = .ok loop ∧ loop.pvs = out) ↔
      ∃ loop, (pvs.zipIdx 0).foldlM (acceptPV scope) { endpoints := endpoints } = .ok loop ∧
        loop.pvs = out := by
    simp only [pvLoop, bind_eq_ok, hendpoints, Except.ok.injEq, exists_eq_left']
  rw [hrun, hiff, List.nodup_append]
  constructor
  · rintro ⟨hresolved, hnames, ⟨-, hdistinct, hdisjoint⟩, hsubscribed⟩
    refine ⟨hresolved, fun name h => (hlegal name).mp (hnames name h), hdistinct, ?_, hsubscribed⟩
    intro name hname hadmin
    exact hdisjoint name hadmin name hname rfl
  · intro h
    refine ⟨h.resolved, fun name hname => (hlegal name).mpr (h.legal name hname),
      ⟨nodup_adminPVNames scope.server, h.distinct, ?_⟩, h.subscribed⟩
    intro a ha b hb hab
    exact h.reserved b hb (hab ▸ ha)

/-- Two backends, a legacy-free document and a PV whose confirmation reads its own stream. -/
def exampleScope : PVScope where
  server := { «instance» := "ioc1", nameSpace := "ACC" }
  access := { enabled := true }
  redisBackends := (FinMap.empty.insert "fast" {}).insert "slow" { port := 6380 }
  hasLegacyRedis := false

def examplePVs : List PVConfig :=
  [{ name := "temp", aliases := ["T1"], read := { backend := "fast", key := "temp" } },
    { name := "set", read := { backend := "slow", key := "set" }
      write := some { backend := "fast", key := "set" }
      confirm := some { backend := "slow", key := "set" } }]

theorem pvLoop_accepts_example :
    (exampleScope.server.instance ≠ "" ∧ '\x00' ∉ exampleScope.server.instance.toList) ∧
      (∀ pv ∈ examplePVs, pv.access.isSome = true → exampleScope.access.enabled = true) ∧
      CollisionFree exampleScope examplePVs
        (examplePVs.map fun pv => { pv with access := some {} }) := by
  have hinstance : exampleScope.server.instance ≠ "" ∧
      '\x00' ∉ exampleScope.server.instance.toList := by decide
  have haccess : ∀ pv ∈ examplePVs, pv.access.isSome = true →
      exampleScope.access.enabled = true := fun _ _ _ => rfl
  refine ⟨hinstance, haccess, (pvLoop_accepts_iff _ _ _ hinstance haccess).mp ?_⟩
  have hrun : (pvLoop exampleScope examplePVs).toOption.map PVLoop.pvs =
      some (examplePVs.map fun pv => { pv with access := some {} }) := by decide +kernel
  obtain ⟨loop, hloop, hpvs⟩ := Option.map_eq_some_iff.mp hrun
  refine ⟨loop, ?_, hpvs⟩
  cases hresult : pvLoop exampleScope examplePVs with
  | ok result =>
    rw [hresult] at hloop
    cases hloop
    rfl
  | error e =>
    rw [hresult] at hloop
    cases hloop

end Loop

end RedisPvxsIoc.Config
