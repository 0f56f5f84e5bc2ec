import RedisPvxsIoc.PVRegistry.Publication

/-!
# Calls of the Registry

The registry as its callers use it: `prepare` may throw, and `publish` runs the caller's
`beforeCommit` while it holds `publishMutex`.  The callback works on a state of which the
registry is only a component, so `publish` is stated for any such state.

## Main results

- `Extends`: everything that was there is still the same; a preorder
- `within_prepareCall`, `allOrNothing_publishCall`: what a call may change unless it publishes
- `returns_prepareCall`, `returns_publishCall`: what a successful call has done
- `publish_true`: the registry after a publication
- `bindings_publish`: what is prepared and then published is what is served
-/

namespace RedisPvxsIoc.PVRegistry

open Foundations Config

/-! ## Extension -/

/-- The registry has the same current snapshot, and no registration or snapshot that existed
    has changed. -/
structure Extends (s s' : Impl) : Prop where
  current : s'.current = s.current
  nextReg : s.nextReg ≤ s'.nextReg
  nextSnap : s.nextSnap ≤ s'.nextSnap
  registrations : ∀ r, r < s.nextReg → s'.registrations r = s.registrations r
  snapshots : ∀ k, k < s.nextSnap → s'.snapshots k = s.snapshots k

instance : IsPreorder Impl Extends where
  refl _ := ⟨rfl, le_refl _, le_refl _, fun _ _ => rfl, fun _ _ => rfl⟩
  trans _ _ _ h h' :=
    { current := h'.current.trans h.current
      nextReg := h.nextReg.trans h'.nextReg
      nextSnap := h.nextSnap.trans h'.nextSnap
      registrations := fun r hr =>
        (h'.registrations r (lt_of_lt_of_le hr h.nextReg)).trans (h.registrations r hr)
      snapshots := fun k hk =>
        (h'.snapshots k (lt_of_lt_of_le hk h.nextSnap)).trans (h.snapshots k hk) }

/-- `PVRegistry::bindings` -/
def Impl.bindings (s : Impl) : PVBindings :=
  (s.snapshots s.current).entries.mapValues fun r => (s.registrations r).binding

variable {s s' : Impl}

/-- What is served does not change while something is prepared. -/
theorem Extends.bindings (h : Extends s s') (hs : Consistent s) :
    s'.bindings = s.bindings := by
  refine FinMap.ext_find? fun name => ?_
  rw [Impl.bindings, Impl.bindings, FinMap.find?_mapValues, FinMap.find?_mapValues, h.current,
    h.snapshots _ hs.stored]
  cases hfind : (s.snapshots s.current).entries.find? name with
  | none => rfl
  | some r => simp only [Option.map_some, h.registrations r (hs.range _ name r hfind).2]

/-! ## `prepare` -/

/-- A call of `prepare`; when it throws nothing has been stored. -/
def prepareCall (desired : PVBindings) (wrappers : Wrappers) : Effect Impl PrepId := fun s =>
  match s.prepare desired wrappers with
  | .ok (s', p) => .ok p s'
  | .error message => .error message s

variable {p : PrepId} {wrappers : Wrappers} {desired : PVBindings}

theorem returns_prepareCall : Returns (prepareCall desired wrappers) s p s' ↔
      s.prepare desired wrappers = .ok (s', p) := by
  show prepareCall desired wrappers s = _ ↔ _
  unfold prepareCall
  cases s.prepare desired wrappers with
  | ok out =>
    obtain ⟨t, q⟩ := out
    simp [and_comm]
  | error message => simp

theorem throws_prepareCall {e : String} (h : Throws (prepareCall desired wrappers) s e s') :
    s' = s := by
  unfold Throws at h
  simp only [EStateM.run, prepareCall] at h
  cases hprepare : s.prepare desired wrappers with
  | ok out =>
    rw [hprepare] at h
    cases h
  | error message =>
    rw [hprepare] at h
    cases h
    rfl

/-- A turn of the loop stores a new registration above all existing ones or none. -/
theorem prepareEntry_keeps {previous : Snapshot} {born : SnapId} {acc acc' : Building}
    {entry : String × PVBinding} (h : prepareEntry previous born wrappers acc entry = .ok acc') :
    acc.nextReg ≤ acc'.nextReg ∧
      ∀ r, r < acc.nextReg → acc'.registrations r = acc.registrations r := by
  have hcreate : ∀ name binding, acc.nextReg ≤ (acc.create born wrappers name binding).nextReg ∧
      ∀ r, r < acc.nextReg →
        (acc.create born wrappers name binding).registrations r = acc.registrations r :=
    fun name binding => ⟨Nat.le_succ _, fun r hr => Function.update_of_ne (Nat.ne_of_lt hr) _ _⟩
  simp only [prepareEntry] at h
  split at h
  · split at h
    · split at h
      · cases h
        exact ⟨le_refl _, fun _ _ => rfl⟩
      · cases h
        exact hcreate _ _
    · cases h
      exact hcreate _ _
  · cases h

theorem extends_prepare (h : s.prepare desired wrappers = .ok (s', p)) : Extends s s' := by
  obtain ⟨built, hloop, hdone⟩ := bind_eq_ok.mp h
  cases hdone
  have hbuilt : s.nextReg ≤ built.nextReg ∧
      ∀ r, r < s.nextReg → built.registrations r = s.registrations r := by
    refine foldlM_ok (P := fun _ acc => s.nextReg ≤ acc.nextReg ∧
      ∀ r, r < s.nextReg → acc.registrations r = s.registrations r) ?_
      ⟨le_refl _, fun _ _ => rfl⟩ hloop
    intro done entry rest acc acc' _ hacc hstep
    obtain ⟨hgrows, hkeeps⟩ := prepareEntry_keeps hstep
    refine ⟨hacc.1.trans hgrows, ?_⟩
    intro r hr
    rw [hkeeps r (lt_of_lt_of_le hr hacc.1)]
    exact hacc.2 r hr
  exact ⟨rfl, hbuilt.1, Nat.le_succ _, hbuilt.2,
    fun k hk => Function.update_of_ne (Nat.ne_of_lt hk) _ _⟩

theorem within_prepareCall (desired : PVBindings) (wrappers : Wrappers) :
    Within Extends (prepareCall desired wrappers) := by
  intro s
  show Extends s (final (prepareCall desired wrappers s))
  unfold prepareCall
  cases hprepare : s.prepare desired wrappers with
  | ok out => exact extends_prepare hprepare
  | error message => exact refl s

/-! ## `publish` -/

section Publish

variable {σ : Type} (c : Component σ Impl)

/-- `error` of a publication that comes too late. -/
def staleError : String := "endpoint publication changed during preparation"

/-- A call of `publish` with a callback. -/
def publishCall (p : PrepId) (beforeCommit : Effect σ Outcome) : Effect σ Outcome := do
  if (c.get (← get)).fresh p then
    andThen beforeCommit (modify fun s => c.set ((c.get s).publish p true).1 s)
  else return .error staleError

variable {c}

theorem returns_publishCall {beforeCommit : Effect σ Outcome} {s s' : σ} :
    Returns (publishCall c p beforeCommit) s (.ok ()) s' ↔ (c.get s).fresh p = true ∧
      ∃ t, Returns beforeCommit s (.ok ()) t ∧ s' = c.set ((c.get t).publish p true).1 t := by
  unfold publishCall
  rw [returns_bind]
  constructor
  · rintro ⟨a, t, hget, hrest⟩
    obtain ⟨rfl, rfl⟩ := returns_get.mp hget
    split at hrest
    · rename_i hfresh
      obtain ⟨t, ht, hmodify⟩ := returns_andThen.mp hrest
      exact ⟨hfresh, t, ht, returns_modify.mp hmodify⟩
    · cases (returns_pure.mp hrest).1
  · rintro ⟨hfresh, t, ht, rfl⟩
    refine ⟨s, s, returns_get.mpr ⟨rfl, rfl⟩, ?_⟩
    rw [if_pos hfresh]
    exact returns_andThen.mpr ⟨t, ht, returns_modify.mpr rfl⟩

/-- **A publication that does not report success** has changed only what its callback changed
    while refusing. -/
theorem allOrNothing_publishCall {R : σ → σ → Prop} [IsPreorder σ R]
    {beforeCommit : Effect σ Outcome} (h : AllOrNothing R beforeCommit) :
    AllOrNothing R (publishCall c p beforeCommit) := by
  unfold publishCall
  refine AllOrNothing.bind within_get ?_
  intro s
  split
  · exact h.andThen fun t => ⟨_, returns_modify.mpr rfl⟩
  · exact (within_pure _).allOrNothing

end Publish

/-! ## The registry after a publication -/

/-- What a publication of a fresh preparation does. -/
structure Published (s s' : Impl) (pr : Prepared) : Prop where
  current : s'.current = pr.next
  snapshots : s'.snapshots = s.snapshots
  nextReg : s'.nextReg = s.nextReg
  nextSnap : s'.nextSnap = s.nextSnap
  retired : ∀ r ∈ pr.retiring, s'.registrations r = { s.registrations r with active := false }
  others : ∀ r, r ∉ pr.retiring → s'.registrations r = s.registrations r
  idle : s'.publisher = .idle

theorem publish_true (hfresh : s.fresh p = true) :
    ∃ pr, s.prepared[p]? = some pr ∧ pr.previous = s.current ∧
      Published s (s.publish p true).1 pr := by
  obtain ⟨pr, hpr, hprevious⟩ := fresh_cases hfresh
  refine ⟨pr, hpr, hprevious, ?_⟩
  have hrun : (s.publish p true).1 = { (pr.retiring.foldl Impl.deactivate s).reply p true with
      current := pr.next
      history := pr.next :: s.history
      published := s.published ++ [p] } := by
    simp [Impl.publish, hpr, hprevious]
  rw [hrun, foldl_deactivate]
  exact ⟨rfl, rfl, rfl, rfl, fun r hr => if_pos hr, fun r hr => if_neg hr, rfl⟩

theorem publish_prepared (s : Impl) (p : PrepId) (ok : Bool) :
    (s.publish p ok).1.prepared = s.prepared := by
  unfold Impl.publish
  split
  · split
    · rw [foldl_deactivate]
      rfl
    · rfl
  · rfl

/-- The registry invariant is kept by a whole call. -/
theorem consistent_publish (hs : Consistent s) (hidle : s.publisher = .idle) (p : PrepId)
    (ok : Bool) : Consistent (s.publish p ok).1 := by
  obtain ⟨as, hrun⟩ := exec_publish hidle p ok
  exact machine.exec_invariant (fun _ _ _ => consistent_step) hs hrun

/-! ## Between calls -/

/-- The registry invariant holds and nobody holds `publishMutex`. -/
structure Orderly (s : Impl) : Prop where
  consistent : Consistent s
  idle : s.publisher = .idle

theorem orderly_empty : Orderly {} := ⟨consistent_start rfl, rfl⟩

theorem orderly_prepareCall (desired : PVBindings) (wrappers : Wrappers) :
    Within (Keeps Orderly) (prepareCall desired wrappers) := by
  intro s hs
  have hcases := final_cases (prepareCall desired wrappers) s
  generalize final ((prepareCall desired wrappers).run s) = t at hcases ⊢
  rcases hcases with ⟨p, h⟩ | ⟨e, h⟩
  · have hprepare := returns_prepareCall.mp h
    have hconsistent := consistent_step hs.consistent (a := .prepare desired wrappers) rfl
    simp only [Impl.prepareStep, hprepare] at hconsistent
    obtain ⟨built, -, hdone⟩ := bind_eq_ok.mp hprepare
    cases hdone
    exact ⟨hconsistent, hs.idle⟩
  · rw [throws_prepareCall h]
    exact hs

theorem Orderly.publish (hs : Orderly s) (hfresh : s.fresh p = true) :
    Orderly (s.publish p true).1 := by
  obtain ⟨pr, -, -, hpublished⟩ := publish_true hfresh
  exact ⟨consistent_publish hs.consistent hs.idle p true, hpublished.idle⟩

/-- Every entry of the current snapshot is active, and nothing else that was ever published. -/
theorem Orderly.active (hs : Orderly s) {r : RegId} (hr : s.everPublished r) :
    (s.registrations r).active = true ↔ s.isCurrent r := by
  rw [hs.consistent.flags r hr]
  simp [Impl.cleared, hs.idle]

/-- A registration that is taken over has the binding that is desired, provided that its owner
    serves the same `SharedPV` as before. -/
theorem kept_binding {name : String} {binding : PVBinding} {r : RegId}
    (hpv : ∀ old, s.bindings.find? name = some old → old.owner = binding.owner →
      old.pv = binding.pv) (h : s.kept name binding = some r) :
    (s.registrations r).binding = binding := by
  have hcurrent := Impl.kept_current h
  have hfind : s.bindings.find? name = some (s.registrations r).binding := by
    rw [Impl.bindings, FinMap.find?_mapValues, hcurrent]
    rfl
  have hsame : (s.registrations r).binding.owner = binding.owner ∧
      sameAccessAssignment (s.registrations r).binding.access binding.access = true := by
    unfold Impl.kept at h
    rw [hcurrent] at h
    dsimp only at h
    split at h
    · rename_i hsame
      exact hsame
    · cases h
  have hpv' := hpv _ hfind hsame.1
  have haccess := (sameAccessAssignment_iff _ _).mp hsame.2
  obtain ⟨pv, owner, access⟩ := binding
  generalize (s.registrations r).binding = old at *
  obtain ⟨pv', owner', access'⟩ := old
  simp only at hpv' haccess hsame
  rw [hpv', hsame.1, haccess]

/-- **What was prepared is served** once it is published, by active registrations. -/
theorem bindings_publish (hs : Consistent s)
    (hpv : ∀ name old new, s.bindings.find? name = some old → desired.find? name = some new →
      old.owner = new.owner → old.pv = new.pv) (h : s.prepare desired wrappers = .ok (s', p)) :
    s'.fresh p = true ∧ (s'.publish p true).1.bindings = desired := by
  have hcurrent := fun n r hr => (hs.range s.current n r hr).2
  obtain ⟨built, hbuilt, rfl, hs'⟩ := prepare_built hcurrent h
  replace hs' : s' = afterPrepare s built := hs'
  subst hs'
  have hlookup : (afterPrepare s built).prepared[s.prepared.length]? = some {
      previous := s.current
      next := s.nextSnap
      retiring := retiringOf (s.snapshots s.current) built.next } := List.getElem?_concat_length
  have hfresh : (afterPrepare s built).fresh s.prepared.length = true := by
    unfold Impl.fresh
    rw [hlookup]
    exact beq_self_eq_true _
  refine ⟨hfresh, ?_⟩
  obtain ⟨pr, hpr, -, hpublished⟩ := publish_true hfresh
  obtain rfl := Option.some.inj (hpr.symm.trans hlookup)
  -- a publication changes no binding
  have hbinding : ∀ r, (((afterPrepare s built).publish s.prepared.length true).1.registrations
      r).binding = (built.registrations r).binding := by
    intro r
    by_cases hr : r ∈ retiringOf (s.snapshots s.current) built.next
    · rw [hpublished.retired r hr]
      rfl
    · rw [hpublished.others r hr]
      rfl
  refine FinMap.ext_find? fun name => ?_
  rw [Impl.bindings, FinMap.find?_mapValues, hpublished.current, hpublished.snapshots,
    afterPrepare_snapshot_new]
  cases hfind : built.next.entries.find? name with
  | none =>
    have habsent : name ∉ desired.keys := by
      intro hmem
      obtain ⟨r, hr⟩ := (hbuilt.keys name).mp hmem
      rw [hfind] at hr
      cases hr
    cases hdesired : desired.find? name with
    | none => rfl
    | some binding => exact absurd (desired.mem_keys.mpr ⟨binding, hdesired⟩) habsent
  | some r =>
    obtain ⟨binding, hmem, hcase⟩ := hbuilt.entry name r hfind
    have hdesired := (desired.mem_entries).mp hmem
    rw [hdesired, Option.map_some, hbinding]
    rcases hcase with hkept | ⟨-, -, -, hnew⟩
    · have hlt := hcurrent name r (Impl.kept_current hkept)
      rw [hbuilt.old r hlt, kept_binding (fun old hold => hpv name old binding hold hdesired) hkept]
    · rw [hnew]

end RedisPvxsIoc.PVRegistry
