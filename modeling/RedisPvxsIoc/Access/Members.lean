import RedisPvxsIoc.Access.Controller

/-!
# Access Members and Published Endpoints

`prepareBindings` decides from the published bindings and from its own map of members which
members it takes over; `PVRegistry::prepare` decides from the snapshot which registrations it
takes over, with the wrapper they were made with.  The controller recomputes the rights of the
clients of the members in its map, and the clients of an endpoint are those of the member that
its wrapper captured.

The machine below performs whole calls one after the other, with any number of prepared sets
outstanding, and lets channels be created at any time: `find` is the look-up in `onCreate`,
`wrap` the end of the wrapper, and a publication may fall between the two.

## Main results

- `keptMember_eq`: the two decisions are the same
- `Agrees`: the map of members and the registrations agree; kept by every call
- `stages_prepareBindings`, `stages_prepareConfiguration`: the frame of a preparation
- `members_agree`: in every reachable state, and `recomputeAllClients` misses no client
-/

namespace RedisPvxsIoc.Access

open Foundations Config PVRegistry

/-! ## Agreement -/

/-- The names of a map of members are those of a snapshot, and the member of a name is the one
    that the wrapper of its registration captured. -/
structure Captured (c : Controller) (members : FinMap String MemberId) (k : SnapId) : Prop where
  keys : ∀ name, name ∈ members.keys ↔ name ∈ (c.registry.snapshots k).entries.keys
  member : ∀ name r, (c.registry.snapshots k).entries.find? name = some r →
    ∃ m, members.find? name = some m ∧ (c.registry.registrations r).wrapper = some m ∧
      (c.accessMembers m).assignment = (c.registry.registrations r).binding.access

/-- The registry invariant, with agreement for what is published and for every prepared set
    that can still be published. -/
structure Agrees (c : Controller) : Prop where
  consistent : Consistent c.registry
  idle : c.registry.publisher = .idle
  wrappers : ∀ k r, c.registry.entryOf k r → ∀ m,
    (c.registry.registrations r).wrapper = some m → m < c.nextMember
  current : Captured c c.members c.registry.current
  prepared : ∀ p ∈ c.prepared, ∃ pr, c.registry.prepared[p.publication]? = some pr ∧
    (pr.previous = c.registry.current → Captured c p.members pr.next)

/-- A new controller has no endpoints. -/
theorem agrees_new (config : AccessConfig) (asgs : NameSet) :
    Agrees { config := config, configuredAsgs := asgs } := by
  refine ⟨consistent_start rfl, rfl, ?_, ⟨?_, ?_⟩, ?_⟩ <;> simp [Impl.entryOf, FinMap.keys]

/-- What a change may do to objects that exist: a registration may be marked inactive and a
    member may get clients. -/
structure Grows (c c' : Controller) : Prop where
  nextReg : c.registry.nextReg ≤ c'.registry.nextReg
  nextMember : c.nextMember ≤ c'.nextMember
  snapshots : ∀ k, k < c.registry.nextSnap → c'.registry.snapshots k = c.registry.snapshots k
  binding : ∀ r, r < c.registry.nextReg →
    (c'.registry.registrations r).binding = (c.registry.registrations r).binding
  wrapper : ∀ r, r < c.registry.nextReg →
    (c'.registry.registrations r).wrapper = (c.registry.registrations r).wrapper
  assignment : ∀ m, m < c.nextMember →
    (c'.accessMembers m).assignment = (c.accessMembers m).assignment

theorem grows_refl (c : Controller) : Grows c c :=
  ⟨le_refl _, le_refl _, fun _ _ => rfl, fun _ _ => rfl, fun _ _ => rfl, fun _ _ => rfl⟩

variable {c c' : Controller}

theorem Controller.Extends.grows (h : c.Extends c') : Grows c c' where
  nextReg := h.registry.nextReg
  nextMember := h.nextMember
  snapshots := h.registry.snapshots
  binding r hr := by rw [h.registry.registrations r hr]
  wrapper r hr := by rw [h.registry.registrations r hr]
  assignment m hm := by rw [h.accessMembers m hm]

section Keep

variable {c c' : Controller} {members : FinMap String MemberId} {k : SnapId}

theorem Captured.grow (h : Captured c members k) (hc : Agrees c) (hk : k < c.registry.nextSnap)
    (hgrows : Grows c c') : Captured c' members k := by
  refine ⟨?_, ?_⟩
  · rw [hgrows.snapshots k hk]
    exact h.keys
  · rw [hgrows.snapshots k hk]
    intro name r hr
    obtain ⟨m, hm, hwrapper, hassignment⟩ := h.member name r hr
    have hlt := (hc.consistent.range k name r hr).2
    refine ⟨m, hm, ?_, ?_⟩
    · rw [hgrows.wrapper r hlt]
      exact hwrapper
    · rw [hgrows.assignment m (hc.wrappers k r ⟨name, hr⟩ m hwrapper), hgrows.binding r hlt]
      exact hassignment

/-- Members are allocated and nothing else. -/
structure Allocates (c c' : Controller) : Prop extends c.Extends c' where
  sameRegistry : c'.registry = c.registry
  samePrepared : c'.prepared = c.prepared

instance : IsPreorder Controller Allocates where
  refl c := ⟨refl c, rfl, rfl⟩
  trans _ _ _ h h' := ⟨IsTrans.trans _ _ _ h.toExtends h'.toExtends,
    h'.sameRegistry.trans h.sameRegistry, h'.samePrepared.trans h.samePrepared⟩

theorem Controller.Extends.members_eq (h : c.Extends c') : c'.members = c.members :=
  (congrArg Controller.members h.rest :)

theorem Agrees.allocate (hc : Agrees c) (h : Allocates c c') : Agrees c' := by
  have hgrows := h.toExtends.grows
  have hwrappers : ∀ k r, c'.registry.entryOf k r → ∀ m,
      (c'.registry.registrations r).wrapper = some m → m < c'.nextMember := by
    rw [h.sameRegistry]
    intro k r hr m hm
    exact lt_of_lt_of_le (hc.wrappers k r hr m hm) h.nextMember
  refine ⟨?_, ?_, hwrappers, ?_, ?_⟩
  · rw [h.sameRegistry]
    exact hc.consistent
  · rw [h.sameRegistry]
    exact hc.idle
  · rw [h.toExtends.members_eq, h.sameRegistry]
    exact hc.current.grow hc hc.consistent.stored hgrows
  · rw [h.samePrepared, h.sameRegistry]
    intro p hp
    obtain ⟨pr, hpr, hcaptured⟩ := hc.prepared p hp
    have hrange := (hc.consistent.prepared pr (List.mem_of_getElem? hpr)).range
    exact ⟨pr, hpr, fun hfresh => (hcaptured hfresh).grow hc hrange hgrows⟩

end Keep

/-- The endpoints and their members are the same. -/
structure SameEndpoints (c c' : Controller) : Prop where
  registry : c'.registry = c.registry
  members : c'.members = c.members
  accessMembers : c'.accessMembers = c.accessMembers
  nextMember : c'.nextMember = c.nextMember
  prepared : c'.prepared = c.prepared

instance : IsPreorder Controller SameEndpoints where
  refl _ := ⟨rfl, rfl, rfl, rfl, rfl⟩
  trans _ _ _ h h' := ⟨h'.registry.trans h.registry, h'.members.trans h.members,
    h'.accessMembers.trans h.accessMembers, h'.nextMember.trans h.nextMember,
    h'.prepared.trans h.prepared⟩

/-- The agreement looks at nothing else. -/
theorem SameEndpoints.agrees (h : SameEndpoints c c') (hc : Agrees c) :
    Agrees c' := by
  have hgrows : Grows c c' := by
    refine ⟨?_, ?_, ?_, ?_, ?_, ?_⟩
    · rw [h.registry]
    · rw [h.nextMember]
    · rw [h.registry]
      exact fun _ _ => rfl
    · rw [h.registry]
      exact fun _ _ => rfl
    · rw [h.registry]
      exact fun _ _ => rfl
    · rw [h.accessMembers]
      exact fun _ _ => rfl
  refine ⟨?_, ?_, ?_, ?_, ?_⟩
  · rw [h.registry]
    exact hc.consistent
  · rw [h.registry]
    exact hc.idle
  · rw [h.registry, h.nextMember]
    exact hc.wrappers
  · rw [h.members, h.registry]
    exact hc.current.grow hc hc.consistent.stored hgrows
  · rw [h.prepared, h.registry]
    intro p hp
    obtain ⟨pr, hpr, hcaptured⟩ := hc.prepared p hp
    have hrange := (hc.consistent.prepared pr (List.mem_of_getElem? hpr)).range
    exact ⟨pr, hpr, fun hfresh => (hcaptured hfresh).grow hc hrange hgrows⟩

/-! ## Preparation -/

/-- The loop of `prepareBindings`, started in `c`, after the bindings in `done`. -/
structure MembersFor (c : Controller) (done : List (String × PVBinding))
    (members : FinMap String MemberId) (c' : Controller) : Prop where
  grows : Allocates c c'
  keys : ∀ name, name ∈ members.keys ↔ name ∈ done.map Prod.fst
  member : ∀ name binding, (name, binding) ∈ done → ∃ m, members.find? name = some m ∧
    m < c'.nextMember ∧ (keptMember c.registry.bindings c.members name binding = some m ∨
      (keptMember c.registry.bindings c.members name binding = none ∧ c.nextMember ≤ m ∧
        (c'.accessMembers m).assignment = binding.access))

variable {m : MemberId}

section Prepare

variable {c c' d : Controller} {w : AccessWorld} {bindings : PVBindings}
  {members : FinMap String MemberId} {name : String} {binding : PVBinding}

/-- A member that is taken over is one of the published ones. -/
theorem keptMember_current {existing : PVBindings} {previous : FinMap String MemberId}
    (h : keptMember existing previous name binding = some m) :
    previous.find? name = some m := by
  unfold keptMember at h
  split at h
  · rename_i before member _ hmember
    split at h
    · cases h
      exact hmember
    · cases h
  · cases h

/-- **The two decisions agree**: a registration is taken over together with its member, or
    neither is. -/
theorem keptMember_eq (h : Captured c c.members c.registry.current) :
    (∀ r, c.registry.kept name binding = some r → ∃ m,
      keptMember c.registry.bindings c.members name binding = some m ∧
        (c.registry.registrations r).wrapper = some m ∧
        (c.accessMembers m).assignment = (c.registry.registrations r).binding.access) ∧
    (c.registry.kept name binding = none →
      keptMember c.registry.bindings c.members name binding = none) := by
  unfold Impl.kept keptMember Impl.bindings
  rw [FinMap.find?_mapValues]
  cases hfind : (c.registry.snapshots c.registry.current).entries.find? name with
  | none => simp
  | some old =>
    obtain ⟨m, hm, hwrapper, hassignment⟩ := h.member name old hfind
    simp only [Option.map_some, hm]
    refine ⟨?_, ?_⟩
    · intro r hr
      split at hr
      · rename_i hsame
        cases hr
        exact ⟨m, if_pos hsame, hwrapper, hassignment⟩
      · cases hr
    · intro hnone
      split at hnone
      · cases hnone
      · rename_i hdiffer
        exact if_neg hdiffer

/-- One more name in the map, with its member. -/
theorem MembersFor.emplace {done : List (String × PVBinding)} (h : MembersFor c done members c')
    (hnew : name ∉ done.map Prod.fst) (hgrows : Allocates c' d)
    (hm : m < d.nextMember ∧ (keptMember c.registry.bindings c.members name binding = some m ∨
      (keptMember c.registry.bindings c.members name binding = none ∧ c.nextMember ≤ m ∧
        (d.accessMembers m).assignment = binding.access))) :
    MembersFor c (done ++ [(name, binding)]) (members.emplace name m) d := by
  have habsent : members.find? name = none := by
    cases hfind : members.find? name with
    | none => rfl
    | some m' => exact absurd ((h.keys name).mp (members.mem_keys.mpr ⟨m', hfind⟩)) hnew
  refine ⟨IsTrans.trans _ _ _ h.grows hgrows, ?_, ?_⟩
  · intro x
    rw [FinMap.mem_keys, List.map_append, List.mem_append, ← h.keys x, FinMap.mem_keys]
    by_cases hx : x = name
    · subst hx
      simp [FinMap.find?_emplace]
    · simp [FinMap.find?_emplace, hx]
  · intro x b hmem
    rw [FinMap.find?_emplace]
    rcases List.mem_append.mp hmem with hold | hlast
    · have hx : x ≠ name := by
        rintro rfl
        exact hnew (List.mem_map_of_mem (f := Prod.fst) hold)
      obtain ⟨m', hfind, hlt, hcase⟩ := h.member x b hold
      rw [if_neg hx]
      refine ⟨m', hfind, lt_of_lt_of_le hlt hgrows.nextMember, ?_⟩
      rwa [hgrows.accessMembers m' hlt]
    · obtain ⟨rfl, rfl⟩ := Prod.mk.inj (List.mem_singleton.mp hlast)
      rw [if_pos rfl, habsent]
      exact ⟨m, rfl, hm⟩

/-- A turn of the loop. -/
theorem MembersFor.turn {done : List (String × PVBinding)} {members' : FinMap String MemberId}
    (h : MembersFor c done members c') (hnew : name ∉ done.map Prod.fst)
    (hold : ∀ m, c.members.find? name = some m → m < c.nextMember)
    (hturn : Returns (prepareMember w c.registry.bindings c.members members (name, binding))
      c' members' d) : MembersFor c (done ++ [(name, binding)]) members' d := by
  unfold prepareMember at hturn
  split at hturn
  · rename_i m hkept
    obtain ⟨rfl, rfl⟩ := returns_pure.mp hturn
    have hlt := hold m (keptMember_current hkept)
    exact h.emplace hnew (refl _) ⟨lt_of_lt_of_le hlt h.grows.nextMember, .inl hkept⟩
  · rename_i hkept
    obtain ⟨m, t, hnewMember, hpure⟩ := returns_bind.mp hturn
    obtain ⟨rfl, rfl⟩ := returns_pure.mp hpure
    obtain ⟨rfl, rfl⟩ := returns_newMember hnewMember
    refine h.emplace hnew ⟨⟨refl c'.registry, Nat.le_succ _, ?_, rfl⟩, rfl, rfl⟩
      ⟨Nat.lt_succ_self _, .inr ⟨hkept, h.grows.nextMember, ?_⟩⟩
    · intro m hm
      exact Function.update_of_ne (Nat.ne_of_lt hm) _ _
    · simp

/-- What a successful `prepareBindings` has done. -/
theorem returns_prepareBindings (hc : Agrees c) {i : Nat}
    (h : Returns (prepareBindings w bindings) c i d) :
    ∃ members c', MembersFor c bindings.entries members c' ∧ ∃ registry p,
      c.registry.prepare bindings members = .ok (registry, p) ∧ i = c.prepared.length ∧
        d = { c' with
          registry := registry
          prepared := c.prepared ++ [PreparedBindings.mk p members] } := by
  unfold prepareBindings at h
  rw [returns_get_bind] at h
  obtain ⟨members, c', hloop, h⟩ := returns_bind.mp h
  have hstart : MembersFor c [] FinMap.empty c :=
    ⟨refl c, by simp [FinMap.keys, FinMap.empty], by simp⟩
  have hmembers : MembersFor c bindings.entries members c' := by
    refine foldlM_returns (P := MembersFor c) ?_ hstart hloop
    rintro done ⟨name, binding⟩ rest acc s acc' s' hentries hacc hturn
    have hnodup := bindings.keys_nodup
    rw [FinMap.keys, hentries, List.map_append] at hnodup
    have hnew : name ∉ done.map Prod.fst := fun hmem =>
      (List.disjoint_of_nodup_append hnodup) hmem (by simp)
    refine hacc.turn hnew ?_ hturn
    intro m hm
    obtain ⟨r, hr⟩ := FinMap.mem_keys _ |>.mp ((hc.current.keys name).mp (FinMap.mem_keys _ |>.mpr ⟨m, hm⟩))
    obtain ⟨m', hm', hwrapper, -⟩ := hc.current.member name r hr
    obtain rfl := Option.some.inj (hm.symm.trans hm')
    exact hc.wrappers _ r ⟨name, hr⟩ m hwrapper
  obtain ⟨p, t, hprepare, h⟩ := returns_bind.mp h
  obtain ⟨registry, hregistry, rfl⟩ := returns_zoom.mp hprepare
  rw [returns_get_bind] at h
  obtain ⟨⟨⟩, u, hset, h⟩ := returns_bind.mp h
  obtain rfl := returns_set.mp hset
  obtain ⟨rfl, rfl⟩ := returns_pure.mp h
  have hcall := returns_prepareCall.mp hregistry
  have hsame : Controller.registryPart.get c' = c.registry := hmembers.grows.sameRegistry
  rw [hsame] at hcall
  refine ⟨members, c', hmembers, registry, p, hcall, ?_, ?_⟩
  · exact congrArg List.length hmembers.grows.samePrepared
  · show _ = _
    simp only [Controller.registryPart, hmembers.grows.samePrepared]

/-- A `prepareBindings` that throws has at most allocated members. -/
theorem throws_prepareBindings {e : String} (h : Throws (prepareBindings w bindings) c e d) :
    Allocates c d := by
  have hnewMember : ∀ assignment, Within Allocates (newMember w assignment) := by
    intro assignment
    unfold newMember
    split
    · intro c
      exact ⟨⟨refl c.registry, Nat.le_succ _,
        fun m hm => Function.update_of_ne (Nat.ne_of_lt hm) _ _, rfl⟩, rfl, rfl⟩
    · exact within_throw _
  have hturn : ∀ existing previous acc x,
      Within Allocates (prepareMember w existing previous acc x) := by
    intro existing previous acc x
    unfold prepareMember
    split
    · exact within_pure _
    · exact (hnewMember _).bind fun _ => within_pure _
  unfold prepareBindings at h
  rw [throws_get_bind] at h
  have hloop := Within.foldlM (hturn c.registry.bindings c.members) bindings.entries FinMap.empty
  rcases throws_bind.mp h with hthrows | ⟨members, c', hreturns, hrest⟩
  · exact hloop.throws hthrows
  · have hc' := hloop.returns hreturns
    rcases throws_bind.mp hrest with hprepare | ⟨p, t, -, hlast⟩
    · -- the registry refuses without storing anything
      obtain ⟨registry, hcall, rfl⟩ := throws_zoom.mp hprepare
      obtain rfl := throws_prepareCall hcall
      exact hc'
    · cases hlast

/-- The new snapshot and the members that were prepared for it. -/
theorem captured_built (hc : Agrees c) (hmembers : MembersFor c bindings.entries members c')
    {built : Building} (hbuilt : Built c.registry members bindings.entries built)
    (hd : d.registry = afterPrepare c.registry built) (haccess : d.accessMembers = c'.accessMembers) :
    Captured d members c.registry.nextSnap := by
  have hsnapshot : d.registry.snapshots c.registry.nextSnap = built.next := by
    rw [hd]
    exact afterPrepare_snapshot_new
  have hregistrations : d.registry.registrations = built.registrations := by
    rw [hd]
    rfl
  refine ⟨?_, ?_⟩
  · intro name
    rw [hsnapshot, hmembers.keys name, hbuilt.keys name, FinMap.mem_keys]
  · intro name r hr
    rw [hsnapshot] at hr
    rw [hregistrations, haccess]
    obtain ⟨binding, hmem, hcase⟩ := hbuilt.entry name r hr
    obtain ⟨m, hfind, -, hm⟩ := hmembers.member name binding hmem
    refine ⟨m, hfind, ?_⟩
    rcases hcase with hkept | ⟨hnone, -, -, hnew⟩
    · -- the registration is taken over, hence so is the member
      obtain ⟨m', hm', hwrapper, hassignment⟩ := (keptMember_eq hc.current).1 r hkept
      have hcurrent := Impl.kept_current hkept
      have hsame : m = m' := by
        rcases hm with h | ⟨h, -⟩
        · exact Option.some.inj (h.symm.trans hm')
        · rw [h] at hm'
          cases hm'
      subst hsame
      rw [hbuilt.old r (hc.consistent.range _ name r hcurrent).2]
      refine ⟨hwrapper, ?_⟩
      rw [hmembers.grows.accessMembers m (hc.wrappers _ r ⟨name, hcurrent⟩ m hwrapper)]
      exact hassignment
    · rw [hnew]
      refine ⟨hfind, ?_⟩
      rcases hm with h | ⟨-, -, hassignment⟩
      · rw [(keptMember_eq hc.current).2 hnone] at h
        cases h
      · exact hassignment

/-- **`prepareBindings` keeps the agreement**, and what it returns agrees too. -/
theorem agrees_prepareBindings (hc : Agrees c) {i : Nat}
    (h : Returns (prepareBindings w bindings) c i d) : Agrees d := by
  obtain ⟨members, c', hmembers, registry, p, hprepare, -, hd⟩ := returns_prepareBindings hc h
  have hgrows := ((within_prepareBindings w bindings).returns h).grows
  have hmem : d.members = c.members := ((within_prepareBindings w bindings).returns h).members_eq
  obtain ⟨built, hbuilt, rfl, hregistry⟩ :=
    prepare_built (fun n r hr => (hc.consistent.range _ n r hr).2) hprepare
  have hdr : d.registry = afterPrepare c.registry built := by
    rw [hd]
    exact hregistry
  have hcaptured := captured_built hc hmembers hbuilt hdr (by rw [hd])
  have hconsistent : Consistent d.registry := hdr ▸ consistent_afterPrepare hc.consistent hbuilt
  refine ⟨hconsistent, ?_, ?_, ?_, ?_⟩
  · rw [hdr]
    exact hc.idle
  · rintro k r ⟨name, hr⟩ m hm
    by_cases hk : k = c.registry.nextSnap
    · subst hk
      obtain ⟨m', hfind, hwrapper, -⟩ := hcaptured.member name r hr
      obtain rfl := Option.some.inj (hm.symm.trans hwrapper)
      obtain ⟨binding, hbinding⟩ : ∃ binding, (name, binding) ∈ bindings.entries := by
        have hkey := (hmembers.keys name).mp (FinMap.mem_keys _ |>.mpr ⟨m, hfind⟩)
        obtain ⟨⟨n, binding⟩, hmem, rfl⟩ := List.mem_map.mp hkey
        exact ⟨binding, hmem⟩
      obtain ⟨m'', hfind', hlt, -⟩ := hmembers.member name binding hbinding
      obtain rfl := Option.some.inj (hfind.symm.trans hfind')
      rw [hd]
      exact hlt
    · rw [hdr, afterPrepare_snapshot_old hk] at hr
      have hlt := (hc.consistent.range k name r hr).2
      rw [hgrows.wrapper r hlt] at hm
      exact lt_of_lt_of_le (hc.wrappers k r ⟨name, hr⟩ m hm) hgrows.nextMember
  · have hcurrent : d.registry.current = c.registry.current := by rw [hdr]; rfl
    rw [hmem, hcurrent]
    exact hc.current.grow hc hc.consistent.stored hgrows
  · have hprepared : d.prepared = c.prepared ++ [⟨c.registry.prepared.length, members⟩] := by rw [hd]
    rw [hprepared]
    intro q hq
    rcases List.mem_append.mp hq with hold | hlast
    · obtain ⟨pr, hpr, hfresh⟩ := hc.prepared q hold
      have hrange := (hc.consistent.prepared pr (List.mem_of_getElem? hpr)).range
      refine ⟨pr, ?_, ?_⟩
      · rw [hdr]
        exact afterPrepare_prepared_old hpr
      · rw [hdr]
        intro hprevious
        exact (hfresh hprevious).grow hc hrange hgrows
    · obtain rfl := List.mem_singleton.mp hlast
      have hlookup : d.registry.prepared[c.registry.prepared.length]? = some {
          previous := c.registry.current
          next := c.registry.nextSnap
          retiring := retiringOf (c.registry.snapshots c.registry.current) built.next } := by
        rw [hdr]
        exact List.getElem?_concat_length
      exact ⟨_, hlookup, fun _ => hcaptured⟩

end Prepare

/-! ## Publication -/

section Publish

variable {c : Controller} {i : Nat} {p : PreparedBindings}

theorem grows_afterPublish (hp : c.prepared[i]? = some p)
    (hfresh : c.registry.fresh p.publication = true) :
    Grows c (c.afterPublish i p.publication) := by
  obtain ⟨pr, -, -, hpublished⟩ := publish_true hfresh
  rw [afterPublish_eq hp]
  have hregistration : ∀ r,
      ((c.registry.publish p.publication true).1.registrations r).binding =
        (c.registry.registrations r).binding ∧
      ((c.registry.publish p.publication true).1.registrations r).wrapper =
        (c.registry.registrations r).wrapper := by
    intro r
    by_cases hr : r ∈ pr.retiring
    · rw [hpublished.retired r hr]
      exact ⟨rfl, rfl⟩
    · rw [hpublished.others r hr]
      exact ⟨rfl, rfl⟩
  exact ⟨le_of_eq hpublished.nextReg.symm, le_refl _, fun k _ => congrFun hpublished.snapshots k,
    fun r _ => (hregistration r).1, fun r _ => (hregistration r).2, fun _ _ => rfl⟩

/-- **An accepted publication keeps the agreement.** -/
theorem agrees_afterPublish (hc : Agrees c) (hp : c.prepared[i]? = some p)
    (hfresh : c.registry.fresh p.publication = true) :
    Agrees (c.afterPublish i p.publication) := by
  have hgrows := grows_afterPublish hp hfresh
  obtain ⟨pr, hpr, hprevious, hpublished⟩ := publish_true hfresh
  have hok := hc.consistent.prepared pr (List.mem_of_getElem? hpr)
  have hregistry : (c.afterPublish i p.publication).registry =
      (c.registry.publish p.publication true).1 := by
    rw [afterPublish_eq hp]
  have hprepared := publish_prepared c.registry p.publication true
  refine ⟨?_, ?_, ?_, ?_, ?_⟩
  · rw [hregistry]
    exact consistent_publish hc.consistent hc.idle _ _
  · rw [hregistry]
    exact hpublished.idle
  · rintro k r ⟨name, hr⟩ m hm
    rw [hregistry, hpublished.snapshots] at hr
    rw [hgrows.wrapper r (hc.consistent.range k name r hr).2] at hm
    exact lt_of_lt_of_le (hc.wrappers k r ⟨name, hr⟩ m hm) hgrows.nextMember
  · obtain ⟨pr', hpr', hcaptured⟩ := hc.prepared p (List.mem_of_getElem? hp)
    obtain rfl := Option.some.inj (hpr.symm.trans hpr')
    have hmembers : (c.afterPublish i p.publication).members = p.members := by
      rw [afterPublish_eq hp]
    rw [hmembers, hregistry, hpublished.current]
    exact (hcaptured hprevious).grow hc hok.range hgrows
  · intro q hq
    -- every other preparation is stale from now on
    have hstale : ∀ pr' ∈ c.registry.prepared,
        pr'.previous ≠ (c.afterPublish i p.publication).registry.current := by
      intro pr' hmem heq
      rw [hregistry, hpublished.current] at heq
      have hle := hc.consistent.last _ (hc.consistent.prepared pr' hmem).base
      have hlt := hok.order
      rw [hprevious] at hlt
      rw [heq] at hle
      exact absurd hlt (Nat.not_lt.mpr hle)
    have hpublication : ∃ q' ∈ c.prepared, q'.publication = q.publication := by
      rw [afterPublish_eq hp] at hq
      rcases List.mem_or_eq_of_mem_set hq with hmem | rfl
      · exact ⟨q, hmem, rfl⟩
      · exact ⟨p, List.mem_of_getElem? hp, rfl⟩
    obtain ⟨q', hq', hsame⟩ := hpublication
    obtain ⟨pr', hpr', -⟩ := hc.prepared q' hq'
    rw [hsame] at hpr'
    refine ⟨pr', ?_, fun heq => absurd heq (hstale pr' (List.mem_of_getElem? hpr'))⟩
    rw [hregistry, hprepared]
    exact hpr'

end Publish

/-! ## Calls -/

/-- A call keeps the agreement, and the clients of existing members. -/
def CallKeeps (c c' : Controller) : Prop :=
  Agrees c → Agrees c' ∧ Grows c c' ∧ c.registry.nextSnap ≤ c'.registry.nextSnap ∧
    ∀ m, m < c.nextMember → c'.accessMembers m = c.accessMembers m

instance : IsPreorder Controller CallKeeps where
  refl c hc := ⟨hc, grows_refl c, le_refl _, fun _ _ => rfl⟩
  trans c d e h h' hc := by
    obtain ⟨hd, hgrows, hsnap, hclients⟩ := h hc
    obtain ⟨he, hgrows', hsnap', hclients'⟩ := h' hd
    refine ⟨he, ⟨hgrows.nextReg.trans hgrows'.nextReg, hgrows.nextMember.trans hgrows'.nextMember,
      ?_, ?_, ?_, ?_⟩, hsnap.trans hsnap', ?_⟩
    · intro k hk
      rw [hgrows'.snapshots k (lt_of_lt_of_le hk hsnap), hgrows.snapshots k hk]
    · intro r hr
      rw [hgrows'.binding r (lt_of_lt_of_le hr hgrows.nextReg), hgrows.binding r hr]
    · intro r hr
      rw [hgrows'.wrapper r (lt_of_lt_of_le hr hgrows.nextReg), hgrows.wrapper r hr]
    · intro m hm
      rw [hgrows'.assignment m (lt_of_lt_of_le hm hgrows.nextMember), hgrows.assignment m hm]
    · intro m hm
      rw [hclients' m (lt_of_lt_of_le hm hgrows.nextMember), hclients m hm]

theorem callKeeps_prepareBindings (w : AccessWorld) (bindings : PVBindings) :
    Within CallKeeps (prepareBindings w bindings) := by
  intro c hc
  have hextends := within_prepareBindings w bindings c
  refine ⟨?_, hextends.grows, hextends.registry.nextSnap, hextends.accessMembers⟩
  rcases final_cases (prepareBindings w bindings) c with ⟨i, h⟩ | ⟨e, h⟩
  · exact agrees_prepareBindings hc h
  · exact hc.allocate (throws_prepareBindings h)

/-- A callback that does not touch the controller. -/
theorem callKeeps_publishBindings (i : Nat) {beforeCommit : Effect Controller Outcome}
    (h : Within Eq beforeCommit) :
    Within CallKeeps (publishBindings Component.self i beforeCommit) := by
  intro c hc
  by_cases hok : ∃ d, Returns (publishBindings Component.self i beforeCommit) c (.ok ()) d
  · obtain ⟨d, hd⟩ := hok
    rw [show (publishBindings Component.self i beforeCommit).run c = .ok (.ok ()) d from hd]
    obtain ⟨p, hp, hfresh, t, ht, rfl⟩ := returns_publishBindings.mp hd
    obtain rfl := h.returns ht
    replace hp : c.prepared[i]? = some p := hp
    replace hfresh : c.registry.fresh p.publication = true := hfresh
    obtain ⟨pr, -, -, hpublished⟩ := publish_true hfresh
    refine ⟨agrees_afterPublish hc hp hfresh, grows_afterPublish hp hfresh, ?_, ?_⟩
    · show c.registry.nextSnap ≤ (c.afterPublish i p.publication).registry.nextSnap
      rw [afterPublish_eq hp]
      exact le_of_eq hpublished.nextSnap.symm
    · intro m _
      show (c.afterPublish i p.publication).accessMembers m = c.accessMembers m
      rw [afterPublish_eq hp]
  · have hall : AllOrNothing Eq (publishBindings Component.self i beforeCommit) :=
      allOrNothing_publishBindings h.allOrNothing
    have heq := hall c fun d hd => hok ⟨d, hd⟩
    rw [← heq]
    exact refl (r := CallKeeps) c hc

theorem callKeeps_clearBindings (w : AccessWorld) : Within CallKeeps (clearBindings w) := by
  unfold clearBindings
  refine (callKeeps_prepareBindings w ∅).bind fun i => ?_
  refine (callKeeps_publishBindings i (within_pure _)).bind fun out => ?_
  split
  · exact within_pure _
  · exact within_throw _

/-! ## Preparations -/

/-- What a preparation may do: extend the controller, keep the agreement, and remember what it
    has read. -/
structure Controller.Stages (c c' : Controller) : Prop extends c.Extends c' where
  agrees : Agrees c → Agrees c'
  reads : ∀ read ∈ c.reads, read ∈ c'.reads

instance : IsPreorder Controller Controller.Stages where
  refl c := ⟨refl c, id, fun _ h => h⟩
  trans _ _ _ h h' := ⟨IsTrans.trans _ _ _ h.toExtends h'.toExtends, h'.agrees ∘ h.agrees,
    fun read hread => h'.reads read (h.reads read hread)⟩

/-- Preparing endpoints reads no file. -/
theorem reads_prepareBindings (w : AccessWorld) (bindings : PVBindings)
    (reads : List (String × FileRead)) :
    Within (Keeps fun c : Controller => c.reads = reads) (prepareBindings w bindings) := by
  have hmember : ∀ existing previous members entry,
      Within (Keeps fun c : Controller => c.reads = reads)
        (prepareMember w existing previous members entry) := by
    intro existing previous members entry
    unfold prepareMember
    split
    · exact within_pure _
    · refine Within.bind ?_ fun _ => within_pure _
      unfold newMember
      split
      · exact fun c hc => hc
      · exact within_throw _
  unfold prepareBindings
  refine within_get.bind fun c => ?_
  refine (Within.foldlM (hmember _ _) _ _).bind fun members => ?_
  refine Within.bind ?_ fun publication c hc => hc
  exact Within.zoom (within_prepareCall bindings members) fun c r _ hc => hc

theorem stages_prepareBindings (w : AccessWorld) (bindings : PVBindings) :
    Within Controller.Stages (prepareBindings w bindings) := by
  intro c
  refine ⟨within_prepareBindings w bindings c,
    fun hc => (callKeeps_prepareBindings w bindings c hc).1, ?_⟩
  rw [reads_prepareBindings w bindings c.reads c rfl]
  exact fun _ h => h

theorem stages_prepareConfiguration (lib : MacroLibrary) (w : AccessWorld) (config : AccessConfig)
    (requiredAsgs : NameSet) :
    Within Controller.Stages (prepareConfiguration lib w config requiredAsgs) := by
  have hpolicy : Within Controller.Stages (preparePolicyCall lib w config requiredAsgs) := by
    refine Within.bind (within_modify ?_) fun _ => within_ofExcept _
    intro c
    have hextends : c.Extends { c with reads := (config.file, w.file config.file) :: c.reads } :=
      ⟨refl c.registry, le_refl _, fun _ _ => rfl, rfl⟩
    exact ⟨hextends, fun hc => hc.allocate ⟨hextends, rfl, rfl⟩,
      fun _ h => List.mem_cons_of_mem _ h⟩
  refine hpolicy.bind fun policy => within_get.bind fun c => ?_
  split
  · exact within_pure _
  · exact within_throw _

/-! ## Calls and channels -/

def Controller.setClients (c : Controller) (m : MemberId) (clients : List ChannelId) : Controller :=
  { c with
    accessMembers := Function.update c.accessMembers m
      { c.accessMembers m with clients := clients } }

/-- Agreement only looks at the assignments of the members. -/
theorem Agrees.setClients (hc : Agrees c) (m : MemberId) (clients : List ChannelId) :
    Agrees (c.setClients m clients) := by
  have hassignment : ∀ m', ((c.setClients m clients).accessMembers m').assignment =
      (c.accessMembers m').assignment := by
    intro m'
    by_cases hm : m' = m
    · subst hm
      simp [Controller.setClients]
    · exact congrArg AccessMember.assignment (Function.update_of_ne hm _ _)
  have hgrows : Grows c (c.setClients m clients) :=
    ⟨le_refl _, le_refl _, fun _ _ => rfl, fun _ _ => rfl, fun _ _ => rfl, fun m' _ => hassignment m'⟩
  refine ⟨hc.consistent, hc.idle, hc.wrappers, hc.current.grow hc hc.consistent.stored hgrows, ?_⟩
  intro p hp
  obtain ⟨pr, hpr, hcaptured⟩ := hc.prepared p hp
  have hrange := (hc.consistent.prepared pr (List.mem_of_getElem? hpr)).range
  exact ⟨pr, hpr, fun hfresh => (hcaptured hfresh).grow hc hrange hgrows⟩

/-- A channel whose wrapper has run, with the registration it was created through. -/
structure ChannelEntry where
  registration : RegId
  member : MemberId
  live : Bool := true
  deriving DecidableEq, Repr

namespace Members

/-- How `beforeCommit` ends. -/
inductive Answer where
  | accept
  | reject (message : String)
  | raise (message : String)
  deriving DecidableEq, Repr

def Answer.callback : Answer → Effect Controller Outcome
  | .accept => pure (.ok ())
  | .reject message => pure (.error message)
  | .raise message => throw message

structure State where
  controller : Controller := {}
  /-- Calls of `onCreate` that have found their registration and are in its wrapper. -/
  creating : List RegId := []
  channels : List ChannelEntry := []

/-- `liveClients` of a member. -/
def State.liveClients (s : State) (m : MemberId) : List ChannelId :=
  (s.controller.accessMembers m).clients.filter fun c => (s.channels[c]?).any ChannelEntry.live

/-- The channels that `recomputeAllClients` visits. -/
def State.recomputeAllClients (s : State) : List ChannelId :=
  s.controller.members.entries.flatMap fun entry => s.liveClients entry.2

/-- `member->addClient` at the end of `initialize` -/
def State.addClient (s : State) (r : RegId) (m : MemberId) : State :=
  let client := s.channels.length
  { s with
    controller := s.controller.setClients m (s.liveClients m ++ [client])
    channels := s.channels ++ [{ registration := r, member := m }] }

inductive Label where
  | prepareBindings (w : AccessWorld) (bindings : PVBindings)
  | publishBindings (i : Nat) (answer : Answer)
  | clearBindings (w : AccessWorld)
  | find (name : String)
  | wrap (i : Nat)
  | drop (c : ChannelId)

/-- Run a call to its end, whether it returns or throws. -/
def State.call {α : Type} (s : State) (x : Effect Controller α) : State :=
  { s with controller := final (x.run s.controller) }

def step (s : State) : Label → Option State
  | .prepareBindings w bindings => some (s.call (Access.prepareBindings w bindings))
  | .publishBindings i answer =>
    some (s.call (Access.publishBindings Component.self i answer.callback))
  | .clearBindings w => some (s.call (Access.clearBindings w))
  | .find name =>
    let registry := s.controller.registry
    ((registry.snapshots registry.current).entries.find? name).map fun r =>
      { s with creating := s.creating ++ [r] }
  | .wrap i => do
    let r ← s.creating[i]?
    let m ← (s.controller.registry.registrations r).wrapper
    return { s.addClient r m with creating := s.creating.eraseIdx i }
  | .drop c => do
    let channel ← s.channels[c]?
    return { s with channels := s.channels.set c { channel with live := false } }

def machine : Machine State Label where
  start s := ∃ config, s = { controller := { config := config } }
  step := step

/-! ## Every reachable state -/

theorem within_callback (answer : Answer) : Within Eq answer.callback := by
  cases answer with
  | accept => exact within_pure _
  | reject message => exact within_pure _
  | raise message => exact within_throw _

/-- The agreement, and the clients of every channel. -/
structure Sound (s : State) : Prop where
  agrees : Agrees s.controller
  creating : ∀ r ∈ s.creating, ∃ k, s.controller.registry.entryOf k r
  channels : ∀ (c : ChannelId) channel, s.channels[c]? = some channel →
    (∃ k, s.controller.registry.entryOf k channel.registration) ∧
      (s.controller.registry.registrations channel.registration).wrapper = some channel.member ∧
      (channel.live = true → c ∈ (s.controller.accessMembers channel.member).clients)

/-- Entries of snapshots stay what they are. -/
theorem entryOf_grows (hc : Agrees c) (hgrows : Grows c c') {k : SnapId} {r : RegId}
    (h : c.registry.entryOf k r) : c'.registry.entryOf k r := by
  obtain ⟨name, hname⟩ := h
  refine ⟨name, ?_⟩
  rw [hgrows.snapshots k (hc.consistent.range k name r hname).1]
  exact hname

variable {s : State}

theorem sound_call {α : Type} (hs : Sound s) {x : Effect Controller α} (hx : Within CallKeeps x) :
    Sound (s.call x) := by
  obtain ⟨hagrees, hgrows, -, hclients⟩ := hx s.controller hs.agrees
  refine ⟨hagrees, ?_, ?_⟩
  · intro r hr
    obtain ⟨k, hk⟩ := hs.creating r hr
    exact ⟨k, entryOf_grows hs.agrees hgrows hk⟩
  · intro c channel hchannel
    obtain ⟨⟨k, hk⟩, hwrapper, hlive⟩ := hs.channels c channel hchannel
    refine ⟨⟨k, entryOf_grows hs.agrees hgrows hk⟩, ?_, ?_⟩
    · obtain ⟨name, hname⟩ := hk
      have hlt := (hs.agrees.consistent.range k name _ hname).2
      exact (hgrows.wrapper _ hlt).trans hwrapper
    · intro h
      have hm := hs.agrees.wrappers k _ hk _ hwrapper
      show c ∈ ((final (x.run s.controller)).accessMembers channel.member).clients
      rw [hclients _ hm]
      exact hlive h

theorem mem_liveClients {c : ChannelId} :
    c ∈ s.liveClients m ↔ c ∈ (s.controller.accessMembers m).clients ∧
      ∃ channel, s.channels[c]? = some channel ∧ channel.live = true := by
  unfold State.liveClients
  rw [List.mem_filter]
  cases s.channels[c]? <;> simp

theorem sound_addClient (hs : Sound s) {r : RegId} (hr : ∃ k, s.controller.registry.entryOf k r)
    (hm : (s.controller.registry.registrations r).wrapper = some m) : Sound (s.addClient r m) := by
  refine ⟨hs.agrees.setClients m _, hs.creating, ?_⟩
  intro c channel hchannel
  -- an old channel that is still there is not dropped from the list of its member
  have hkeep : ∀ m', (∃ channel, s.channels[c]? = some channel ∧ channel.live = true) →
      c ∈ (s.controller.accessMembers m').clients →
      c ∈ ((s.addClient r m).controller.accessMembers m').clients := by
    intro m' hlive hc
    show c ∈ (Function.update s.controller.accessMembers m _ m').clients
    by_cases heq : m' = m
    · subst heq
      rw [Function.update_self]
      exact List.mem_append_left _ (mem_liveClients.mpr ⟨hc, hlive⟩)
    · rw [Function.update_of_ne heq]
      exact hc
  rcases lt_trichotomy c s.channels.length with hlt | rfl | hgt
  · have hold : s.channels[c]? = some channel := by
      rw [← hchannel]
      exact (List.getElem?_append_left hlt).symm
    obtain ⟨hk, hwrapper, hclients⟩ := hs.channels c channel hold
    exact ⟨hk, hwrapper, fun h => hkeep _ ⟨channel, hold, h⟩ (hclients h)⟩
  · have hnew : channel = { registration := r, member := m } := by
      have hlast : (s.addClient r m).channels[s.channels.length]? =
          some { registration := r, member := m } := List.getElem?_concat_length
      exact Option.some.inj (hchannel.symm.trans hlast)
    subst hnew
    refine ⟨hr, hm, fun _ => ?_⟩
    show _ ∈ (Function.update s.controller.accessMembers m _ m).clients
    rw [Function.update_self]
    exact List.mem_append_right _ (List.mem_singleton_self _)
  · have hnone : (s.addClient r m).channels[c]? = none := by
      refine List.getElem?_eq_none ?_
      simp only [State.addClient, List.length_append, List.length_singleton]
      exact hgt
    rw [hnone] at hchannel
    cases hchannel

theorem sound_step {s' : State} {a : Label} (hs : Sound s) (h : step s a = some s') :
    Sound s' := by
  cases a with
  | prepareBindings w bindings =>
    cases h
    exact sound_call hs (callKeeps_prepareBindings w bindings)
  | publishBindings i answer =>
    cases h
    exact sound_call hs (callKeeps_publishBindings i (within_callback answer))
  | clearBindings w =>
    cases h
    exact sound_call hs (callKeeps_clearBindings w)
  | find name =>
    obtain ⟨r, hr, rfl⟩ := Option.map_eq_some_iff.mp h
    refine ⟨hs.agrees, ?_, hs.channels⟩
    intro r' hr'
    rcases List.mem_append.mp hr' with hold | hlast
    · exact hs.creating r' hold
    · obtain rfl := List.mem_singleton.mp hlast
      exact ⟨_, name, hr⟩
  | wrap i =>
    obtain ⟨r, hr, h⟩ := Option.bind_eq_some_iff.mp h
    obtain ⟨m, hm, h⟩ := Option.bind_eq_some_iff.mp h
    cases h
    have hadd := sound_addClient hs (hs.creating r (List.mem_of_getElem? hr)) hm
    exact ⟨hadd.agrees, fun r' hr' => hs.creating r' (List.mem_of_mem_eraseIdx hr'), hadd.channels⟩
  | drop c =>
    obtain ⟨channel, hchannel, h⟩ := Option.bind_eq_some_iff.mp h
    cases h
    refine ⟨hs.agrees, hs.creating, ?_⟩
    intro c' channel' hchannel'
    rw [List.getElem?_set] at hchannel'
    split at hchannel'
    · rename_i heq
      subst heq
      split at hchannel'
      · cases hchannel'
        obtain ⟨hk, hwrapper, -⟩ := hs.channels c channel hchannel
        exact ⟨hk, hwrapper, fun hlive => nomatch hlive⟩
      · cases hchannel'
    · exact hs.channels c' channel' hchannel'

theorem sound_start (h : machine.start s) : Sound s := by
  obtain ⟨config, rfl⟩ := h
  refine ⟨agrees_new config ∅, ?_, ?_⟩ <;> simp

/-- The map of members and the published registrations are the same: they have the same names,
    and the member of a name is the one that the wrapper of its active registration captured,
    with the access assignment of the binding.  So every channel that was created through a
    published registration and still exists is recomputed. -/
structure MembersAgree (s : State) : Prop where
  names : ∀ name, name ∈ s.controller.members.keys ↔
    name ∈ (s.controller.registry.snapshots s.controller.registry.current).entries.keys
  active : ∀ name r,
    (s.controller.registry.snapshots s.controller.registry.current).entries.find? name = some r →
    (s.controller.registry.registrations r).active = true
  member : ∀ name r,
    (s.controller.registry.snapshots s.controller.registry.current).entries.find? name = some r →
    ∃ m, s.controller.members.find? name = some m ∧
      (s.controller.registry.registrations r).wrapper = some m ∧
      (s.controller.accessMembers m).assignment =
        (s.controller.registry.registrations r).binding.access
  recomputed : ∀ name r,
    (s.controller.registry.snapshots s.controller.registry.current).entries.find? name = some r →
    ∀ (c : ChannelId) channel, s.channels[c]? = some channel → channel.live = true →
      channel.registration = r → c ∈ s.recomputeAllClients

/-- **The map of members and the published registrations agree** in every state that calls and
    channel creations lead to. -/
theorem members_agree {s : State} (hs : machine.Reachable s) : MembersAgree s := by
  have hsound : Sound s := hs.invariant (fun _ => sound_start) (fun _ _ _ => sound_step)
  have hconsistent := hsound.agrees.consistent
  refine ⟨hsound.agrees.current.keys, ?_, hsound.agrees.current.member, ?_⟩
  · intro name r hr
    have hcurrent : s.controller.registry.isCurrent r := ⟨name, hr⟩
    refine (hconsistent.flags r ⟨_, hconsistent.here, hcurrent⟩).mpr ⟨hcurrent, ?_⟩
    simp [Impl.cleared, hsound.agrees.idle]
  · rintro name r hr c channel hchannel hlive rfl
    obtain ⟨m, hm, hwrapper, -⟩ := hsound.agrees.current.member name _ hr
    obtain ⟨-, hcaptured, hclients⟩ := hsound.channels c channel hchannel
    rw [Option.some.inj (hwrapper.symm.trans hcaptured)] at hm
    refine List.mem_flatMap.mpr ⟨(name, channel.member), (FinMap.mem_entries _).mpr hm, ?_⟩
    exact mem_liveClients.mpr ⟨hclients hlive, channel, hchannel, hlive⟩

/-- A set that was rejected, one that is published, one that is stale, and a channel that was
    created before its name got another member. -/
theorem members_agree_stale : ∃ s, machine.Reachable s ∧ MembersAgree s ∧
    s.controller.members.entries = [("a", 0), ("b", 2)] ∧ s.recomputeAllClients = [0] ∧
    s.channels.map ChannelEntry.member = [0, 1] := by
  let w : AccessWorld := ⟨fun _ => .cannotOpen, true, fun _ => none, fun _ => true⟩
  let bound (access : AccessAssignment) : PVBindings := FinMap.ofList
    [("a", { pv := some 7, owner := some 1 }), ("b", { pv := some 8, owner := some 2, access })]
  let run : List Label := [.prepareBindings w (bound {}), .publishBindings 0 (.reject "no"),
    .prepareBindings w ∅, .publishBindings 0 .accept, .find "a", .find "b", .wrap 0,
    .prepareBindings w (bound { asg := "WRITE" }), .publishBindings 1 .accept,
    .publishBindings 2 .accept, .wrap 0]
  have hrun : (machine.exec {} run).map (fun s => (s.controller.members.entries,
      s.recomputeAllClients, s.channels.map ChannelEntry.member)) =
      some ([("a", 0), ("b", 2)], [0], [0, 1]) := by decide +kernel
  obtain ⟨s, hs, hview⟩ := Option.map_eq_some_iff.mp hrun
  obtain ⟨hmembers, hrest⟩ := Prod.mk.inj hview
  obtain ⟨hvisited, hchannels⟩ := Prod.mk.inj hrest
  have hreach : machine.Reachable s := ⟨{}, run, ⟨{}, rfl⟩, hs⟩
  exact ⟨s, hreach, members_agree hreach, hmembers, hvisited, hchannels⟩

end Members

end RedisPvxsIoc.Access
