import RedisPvxsIoc.PVRegistry.Model

/-!
# Publication: One Current Snapshot, Exactly Its Registrations Active

Registrations are shared between snapshots, and an outstanding preparation may still hold
one that somebody else has retired.  Two facts keep this safe: a preparation is published
only onto the snapshot it was made from, and a registration that is not taken over from
that snapshot was built for the new one alone (`Registration.born`).

## Main results

- `prepare_built`: what one call of `prepare` builds
- `consistent_reachable`: the registry invariant in every reachable state
- `publication_safe`: active means current, failures change nothing, and retirement is final
-/

namespace RedisPvxsIoc.PVRegistry

open Foundations Config

/-! ## What `prepare` builds -/

variable {s : Impl} {r : RegId}

namespace Impl

/-- The registration that `prepare` takes over for a desired binding. -/
def kept (s : Impl) (name : String) (binding : PVBinding) : Option RegId :=
  match (s.snapshots s.current).entries.find? name with
  | some old =>
    if (s.registrations old).binding.owner = binding.owner ∧
        sameAccessAssignment (s.registrations old).binding.access binding.access then some old
    else none
  | none => none

theorem kept_current {name : String} {binding : PVBinding} (h : s.kept name binding = some r) :
    (s.snapshots s.current).entries.find? name = some r := by
  unfold kept at h
  split at h
  · rename_i old hold
    split at h
    · cases h
      exact hold
    · cases h
  · cases h

end Impl

/-- The state of the loop of `prepare` after the bindings in `done`. -/
structure Built (s : Impl) (wrappers : Wrappers) (done : List (String × PVBinding))
    (acc : Building) : Prop where
  old : ∀ r, r < s.nextReg → acc.registrations r = s.registrations r
  grows : s.nextReg ≤ acc.nextReg
  made : ∀ r, s.nextReg ≤ r → r < acc.nextReg → (acc.registrations r).active = true
  names : acc.next.names = done.map Prod.fst
  keys : ∀ name, name ∈ done.map Prod.fst ↔ ∃ r, acc.next.entries.find? name = some r
  entry : ∀ name r, acc.next.entries.find? name = some r → ∃ binding, (name, binding) ∈ done ∧
    (s.kept name binding = some r ∨ (s.kept name binding = none ∧ s.nextReg ≤ r ∧
      r < acc.nextReg ∧ acc.registrations r =
        { binding := binding, wrapper := wrappers.find? name, born := s.nextSnap }))
  own : ∀ name name' r, acc.next.entries.find? name = some r →
    acc.next.entries.find? name' = some r → s.nextReg ≤ r → name = name'

section Loop

variable {s : Impl} {wrappers : Wrappers} {done : List (String × PVBinding)} {acc : Building}
  {name : String} {binding : PVBinding}

theorem Built.find?_absent (h : Built s wrappers done acc) (hnew : name ∉ done.map Prod.fst) :
    acc.next.entries.find? name = none := by
  cases hfind : acc.next.entries.find? name with
  | none => rfl
  | some r => exact absurd ((h.keys name).mpr ⟨r, hfind⟩) hnew

/-- Look-ups after a new name has been emplaced. -/
theorem Built.find?_emplace (h : Built s wrappers done acc) (hnew : name ∉ done.map Prod.fst)
    (r : RegId) (name' : String) : (acc.next.entries.emplace name r).find? name' =
      if name' = name then some r else acc.next.entries.find? name' := by
  rw [FinMap.find?_emplace, h.find?_absent hnew, Option.getD_none]

/-- A new name is emplaced, for a registration that is taken over or made for it. -/
theorem Built.emplace (h : Built s wrappers done acc) (hnew : name ∉ done.map Prod.fst)
    {acc' : Building} (hnext : acc'.next = {
      entries := acc.next.entries.emplace name r, names := acc.next.names ++ [name] })
    (hold : ∀ r, r < acc.nextReg → acc'.registrations r = acc.registrations r)
    (hle : acc.nextReg ≤ acc'.nextReg)
    (hmade : ∀ r, acc.nextReg ≤ r → r < acc'.nextReg → (acc'.registrations r).active = true)
    (hentry : s.kept name binding = some r ∨ (s.kept name binding = none ∧ s.nextReg ≤ r ∧
      r < acc'.nextReg ∧ acc'.registrations r =
        { binding := binding, wrapper := wrappers.find? name, born := s.nextSnap }))
    (hown : ∀ name', acc.next.entries.find? name' = some r → r < s.nextReg) :
    Built s wrappers (done ++ [(name, binding)]) acc' := by
  have hfind : ∀ name', acc'.next.entries.find? name' =
      if name' = name then some r else acc.next.entries.find? name' := by
    rw [hnext]
    exact h.find?_emplace hnew r
  refine ⟨fun r hr => (hold r (hr.trans_le h.grows)).trans (h.old r hr), h.grows.trans hle,
    ?_, by simp [hnext, h.names], ?_, ?_, ?_⟩
  · intro r hge hlt
    rcases Nat.lt_or_ge r acc.nextReg with hr | hr
    · rw [hold r hr]
      exact h.made r hge hr
    · exact hmade r hr hlt
  · intro name'
    rw [hfind, List.map_append, List.mem_append, h.keys]
    by_cases hname : name' = name <;> simp [hname]
  · intro name' r' hr'
    rw [hfind] at hr'
    split at hr'
    · rename_i hname
      subst hname
      cases hr'
      exact ⟨binding, by simp, hentry⟩
    · obtain ⟨binding', hmem, hcase⟩ := h.entry name' r' hr'
      refine ⟨binding', List.mem_append_left _ hmem, hcase.imp id ?_⟩
      rintro ⟨hk, hge, hlt, heq⟩
      exact ⟨hk, hge, hlt.trans_le hle, (hold r' hlt).trans heq⟩
  · intro n n' r' hn hn' hge
    rw [hfind] at hn hn'
    split at hn <;> split at hn'
    · rename_i h1 h2
      exact h1.trans h2.symm
    · cases hn
      exact absurd (hown n' hn') (Nat.not_lt.mpr hge)
    · cases hn'
      exact absurd (hown n hn) (Nat.not_lt.mpr hge)
    · exact h.own n n' r' hn hn' hge

theorem Built.keep (h : Built s wrappers done acc) (hnew : name ∉ done.map Prod.fst)
    (hkept : s.kept name binding = some r) (hr : r < s.nextReg) :
    Built s wrappers (done ++ [(name, binding)]) (acc.keep name r) :=
  h.emplace hnew rfl (fun _ _ => rfl) (le_refl _)
    (fun _ hge hlt => absurd hlt (Nat.not_lt.mpr hge)) (.inl hkept) fun _ _ => hr

theorem Built.create (h : Built s wrappers done acc) (hnew : name ∉ done.map Prod.fst)
    (hcurrent : ∀ n r, (s.snapshots s.current).entries.find? n = some r → r < s.nextReg)
    (hkept : s.kept name binding = none) :
    Built s wrappers (done ++ [(name, binding)]) (acc.create s.nextSnap wrappers name binding) := by
  have hself : (acc.create s.nextSnap wrappers name binding).registrations acc.nextReg =
      { binding := binding, wrapper := wrappers.find? name, born := s.nextSnap } :=
    Function.update_self _ _ _
  refine h.emplace hnew rfl (fun r hr => Function.update_of_ne (Nat.ne_of_lt hr) _ _)
    (Nat.le_succ _) ?_ (.inr ⟨hkept, h.grows, Nat.lt_succ_self _, hself⟩) ?_
  · intro r hge hlt
    rw [Nat.le_antisymm (Nat.le_of_lt_succ hlt) hge, hself]
  · intro name' hr
    -- what the loop has entered so far is older than the next registration
    obtain ⟨binding', -, hk | ⟨-, -, hlt, -⟩⟩ := h.entry name' _ hr
    · exact hcurrent name' _ (Impl.kept_current hk)
    · exact absurd hlt (lt_irrefl _)

theorem Built.entryStep (h : Built s wrappers done acc) (hnew : name ∉ done.map Prod.fst)
    (hcurrent : ∀ n r, (s.snapshots s.current).entries.find? n = some r → r < s.nextReg)
    {acc' : Building} (hstep : prepareEntry (s.snapshots s.current) s.nextSnap wrappers acc
      (name, binding) = .ok acc') : Built s wrappers (done ++ [(name, binding)]) acc' := by
  simp only [prepareEntry] at hstep
  split at hstep
  · cases hfind : (s.snapshots s.current).entries.find? name with
    | none =>
      rw [hfind] at hstep
      cases hstep
      exact h.create hnew hcurrent (by simp [Impl.kept, hfind])
    | some old =>
      have hold := hcurrent name old hfind
      simp only [hfind, h.old old hold] at hstep
      split at hstep
      · rename_i hsame
        cases hstep
        exact h.keep hnew (by simp [Impl.kept, hfind, hsame]) hold
      · rename_i hsame
        cases hstep
        exact h.create hnew hcurrent (by simp [Impl.kept, hfind, hsame])
  · cases hstep

/-- The loop, by induction on the bindings that are still to come. -/
theorem Built.loop
    (hcurrent : ∀ n r, (s.snapshots s.current).entries.find? n = some r → r < s.nextReg)
    {todo : List (String × PVBinding)} {out : Building} (h : Built s wrappers done acc)
    (hnodup : ((done ++ todo).map Prod.fst).Nodup)
    (hloop : todo.foldlM (prepareEntry (s.snapshots s.current) s.nextSnap wrappers) acc = .ok out) :
    Built s wrappers (done ++ todo) out := by
  induction todo generalizing done acc with
  | nil =>
    cases hloop
    simpa using h
  | cons entry todo ih =>
    obtain ⟨name, binding⟩ := entry
    rw [List.foldlM_cons] at hloop
    cases hstep : prepareEntry (s.snapshots s.current) s.nextSnap wrappers acc (name, binding) with
    | error message =>
      rw [hstep] at hloop
      cases hloop
    | ok acc' =>
      rw [hstep] at hloop
      have hnew : name ∉ done.map Prod.fst := by
        intro hmem
        rw [List.map_append] at hnodup
        exact (List.disjoint_of_nodup_append hnodup) hmem (by simp)
      have hnext := h.entryStep hnew hcurrent hstep
      have hassoc : done ++ (name, binding) :: todo = (done ++ [(name, binding)]) ++ todo := by simp
      rw [hassoc] at hnodup ⊢
      exact ih hnext hnodup hloop

end Loop

variable {desired : PVBindings} {wrappers : Wrappers}

/-- **What a successful `prepare` returns.** -/
theorem prepare_built {s' : Impl} {p : PrepId}
    (hcurrent : ∀ n r, (s.snapshots s.current).entries.find? n = some r → r < s.nextReg)
    (h : s.prepare desired wrappers = .ok (s', p)) :
    ∃ built, Built s wrappers desired.entries built ∧ p = s.prepared.length ∧ s' = { s with
      registrations := built.registrations
      nextReg := built.nextReg
      snapshots := Function.update s.snapshots s.nextSnap built.next
      nextSnap := s.nextSnap + 1
      prepared := s.prepared ++ [{
        previous := s.current
        next := s.nextSnap
        retiring := retiringOf (s.snapshots s.current) built.next }] } := by
  simp only [Impl.prepare] at h
  cases hloop : desired.entries.foldlM (prepareEntry (s.snapshots s.current) s.nextSnap wrappers)
      { registrations := s.registrations, nextReg := s.nextReg } with rw [hloop] at h
  | error message => cases h
  | ok built =>
    cases h
    have hstart : Built s wrappers [] { registrations := s.registrations, nextReg := s.nextReg } := by
      refine ⟨fun _ _ => rfl, le_refl _, ?_, rfl, by simp, by simp, by simp⟩
      intro r hle hlt
      exact absurd hlt (Nat.not_lt.mpr hle)
    have hbuilt := Built.loop hcurrent hstart (by simpa [FinMap.keys] using desired.keys_nodup) hloop
    exact ⟨built, by simpa using hbuilt, rfl, rfl⟩

theorem mem_retiringOf {previous next : Snapshot} : r ∈ retiringOf previous next ↔
    ∃ name, previous.entries.find? name = some r ∧ next.entries.find? name ≠ some r := by
  simp only [retiringOf, List.mem_filterMap, Prod.exists, FinMap.mem_entries]
  constructor
  · rintro ⟨name, r', hprevious, hcase⟩
    split at hcase
    · cases hcase
    · rename_i hnext
      cases hcase
      exact ⟨name, hprevious, hnext⟩
  · rintro ⟨name, hprevious, hnext⟩
    exact ⟨name, r, hprevious, by simp [hnext]⟩

/-! ## The registry invariant -/

namespace Impl

/-- `r` is an entry of snapshot `k`. -/
def entryOf (s : Impl) (k : SnapId) (r : RegId) : Prop :=
  ∃ name, (s.snapshots k).entries.find? name = some r

/-- `r` is an entry of the current snapshot. -/
def isCurrent (s : Impl) (r : RegId) : Prop := s.entryOf s.current r

/-- `r` was an entry of a snapshot that has been current. -/
def everPublished (s : Impl) (r : RegId) : Prop := ∃ k ∈ s.history, s.entryOf k r

/-- The flags that the publisher inside `publishMutex` has cleared already. -/
def cleared (s : Impl) : List RegId :=
  match s.publisher with
  | .retiring _ done _ => done
  | _ => []

end Impl

/-- What holds of every outstanding preparation. -/
structure PreparedOk (s : Impl) (pr : Prepared) : Prop where
  base : pr.previous ∈ s.history
  order : pr.previous < pr.next
  range : pr.next < s.nextSnap
  retiring : pr.retiring = retiringOf (s.snapshots pr.previous) (s.snapshots pr.next)
  source : ∀ name r, (s.snapshots pr.next).entries.find? name = some r →
    (s.snapshots pr.previous).entries.find? name = some r ∨ (s.registrations r).born = pr.next

/-- **The registry invariant.** -/
structure Consistent (s : Impl) : Prop where
  range : ∀ k name r, (s.snapshots k).entries.find? name = some r → k < s.nextSnap ∧ r < s.nextReg
  oneName : ∀ k k' name name' r, (s.snapshots k).entries.find? name = some r →
    (s.snapshots k').entries.find? name' = some r → name = name'
  here : s.current ∈ s.history
  last : ∀ k ∈ s.history, k ≤ s.current
  stored : s.current < s.nextSnap
  prepared : ∀ pr ∈ s.prepared, PreparedOk s pr
  born : ∀ k r, s.entryOf k r → (s.registrations r).born = k ∨ (s.registrations r).born ∈ s.history
  newborn : ∀ r, r < s.nextReg → ¬ s.everPublished r → (s.registrations r).active = true
  flags : ∀ r, s.everPublished r →
    ((s.registrations r).active = true ↔ s.isCurrent r ∧ r ∉ s.cleared)
  asking : ∀ (p : PrepId), s.publisher = .asking p → s.fresh p = true
  committing : ∀ (p : PrepId) done rest, s.publisher = .retiring p done rest →
    ∃ pr, s.prepared[p]? = some pr ∧ pr.previous = s.current ∧ pr.retiring = done ++ rest
  once : (s.published.map fun p : PrepId => (s.prepared[p]?.map Prepared.previous).getD 0).Pairwise (· < ·)
  known : ∀ p : PrepId, p ∈ s.published → ∃ pr, s.prepared[p]? = some pr ∧ pr.previous < s.current

theorem consistent_start (h : machine.start s) : Consistent s := by
  obtain rfl := h
  constructor <;> simp [Impl.entryOf, Impl.everPublished]

/-! ## Preservation by `prepare` -/

section Prepare

variable {s : Impl} {wrappers : Wrappers} {desired : PVBindings} {built : Building}

/-- The state after `prepare` has built `built`. -/
def afterPrepare (s : Impl) (built : Building) : Impl :=
  { s with
    registrations := built.registrations
    nextReg := built.nextReg
    snapshots := Function.update s.snapshots s.nextSnap built.next
    nextSnap := s.nextSnap + 1
    prepared := s.prepared ++ [{
      previous := s.current
      next := s.nextSnap
      retiring := retiringOf (s.snapshots s.current) built.next }] }

theorem afterPrepare_snapshot_new : (afterPrepare s built).snapshots s.nextSnap = built.next :=
  Function.update_self _ _ _

theorem afterPrepare_snapshot_old {k : SnapId} (h : k ≠ s.nextSnap) :
    (afterPrepare s built).snapshots k = s.snapshots k :=
  Function.update_of_ne h _ _

theorem afterPrepare_prepared_old {p : PrepId} {pr : Prepared} (h : s.prepared[p]? = some pr) :
    (afterPrepare s built).prepared[p]? = some pr := by
  obtain ⟨hlt, -⟩ := List.getElem?_eq_some_iff.mp h
  show (s.prepared ++ [_])[p]? = some pr
  rw [List.getElem?_append_left hlt]
  exact h

/-- A registration in the new snapshot is taken over from the current one or made for it. -/
theorem Built.source (h : Built s wrappers desired.entries built) {name : String}
    (hr : built.next.entries.find? name = some r) :
    (s.snapshots s.current).entries.find? name = some r ∨
      (s.nextReg ≤ r ∧ r < built.nextReg ∧ (built.registrations r).born = s.nextSnap) := by
  obtain ⟨binding, -, hkept | ⟨-, hle, hlt, heq⟩⟩ := h.entry name r hr
  · exact .inl (Impl.kept_current hkept)
  · exact .inr ⟨hle, hlt, by rw [heq]⟩

/-- Published registrations, and which of them are current, are the same as before. -/
theorem afterPrepare_entryOf (hs : Consistent s) {k : SnapId} (hk : k ∈ s.history) (r : RegId) :
    (afterPrepare s built).entryOf k r ↔ s.entryOf k r := by
  have hne : k ≠ s.nextSnap := Nat.ne_of_lt ((hs.last k hk).trans_lt hs.stored)
  unfold Impl.entryOf
  rw [afterPrepare_snapshot_old hne]

theorem afterPrepare_everPublished (hs : Consistent s) (r : RegId) :
    (afterPrepare s built).everPublished r ↔ s.everPublished r :=
  exists_congr fun _ => and_congr_right fun hk => afterPrepare_entryOf hs hk r

theorem PreparedOk.afterPrepare (hs : Consistent s) (h : Built s wrappers desired.entries built)
    {pr : Prepared} (hpr : PreparedOk s pr) : PreparedOk (afterPrepare s built) pr := by
  have hnext : pr.next ≠ s.nextSnap := Nat.ne_of_lt hpr.range
  have hprevious : pr.previous ≠ s.nextSnap := Nat.ne_of_lt (hpr.order.trans hpr.range)
  refine ⟨hpr.base, hpr.order, hpr.range.trans (Nat.lt_succ_self _), ?_, ?_⟩
  · rw [afterPrepare_snapshot_old hnext, afterPrepare_snapshot_old hprevious]
    exact hpr.retiring
  · intro name r hr
    rw [afterPrepare_snapshot_old hnext] at hr
    rw [afterPrepare_snapshot_old hprevious]
    have hold : (PVRegistry.afterPrepare s built).registrations r = s.registrations r :=
      h.old r (hs.range _ _ _ hr).2
    rw [hold]
    exact hpr.source name r hr

theorem preparedOk_new (hs : Consistent s) (h : Built s wrappers desired.entries built) :
    PreparedOk (afterPrepare s built) {
      previous := s.current
      next := s.nextSnap
      retiring := retiringOf (s.snapshots s.current) built.next } := by
  have hcurrent : s.current ≠ s.nextSnap := Nat.ne_of_lt hs.stored
  refine ⟨hs.here, hs.stored, Nat.lt_succ_self _, ?_, ?_⟩
  · dsimp only
    rw [afterPrepare_snapshot_old hcurrent, afterPrepare_snapshot_new]
  · intro name r hr
    dsimp only at hr ⊢
    rw [afterPrepare_snapshot_new] at hr
    rw [afterPrepare_snapshot_old hcurrent]
    rcases h.source hr with hold | ⟨-, -, hborn⟩
    · exact .inl hold
    · exact .inr hborn

theorem consistent_afterPrepare (hs : Consistent s) (h : Built s wrappers desired.entries built) :
    Consistent (afterPrepare s built) := by
  set s' := afterPrepare s built with hs'
  have hnew : s'.snapshots s.nextSnap = built.next := afterPrepare_snapshot_new
  have hold : ∀ k, k ≠ s.nextSnap → s'.snapshots k = s.snapshots k :=
    fun k hk => afterPrepare_snapshot_old hk
  have hreg : ∀ r, r < s.nextReg → s'.registrations r = s.registrations r := h.old
  have hever : ∀ r, s'.everPublished r ↔ s.everPublished r := afterPrepare_everPublished hs
  have hpublished : ∀ r, s.everPublished r → r < s.nextReg := by
    rintro r ⟨k, -, name, hr⟩
    exact (hs.range k name r hr).2
  -- an entry of the new snapshot is an entry of the current one or newly made
  have hentry : ∀ k name r, (s'.snapshots k).entries.find? name = some r →
      (k < s.nextSnap ∧ (s.snapshots k).entries.find? name = some r) ∨
      (k = s.nextSnap ∧ (s.snapshots s.current).entries.find? name = some r) ∨
      (k = s.nextSnap ∧ built.next.entries.find? name = some r ∧ s.nextReg ≤ r ∧
        r < built.nextReg ∧ (built.registrations r).born = s.nextSnap) := by
    intro k name r hr
    by_cases hk : k = s.nextSnap
    · subst hk
      rw [hnew] at hr
      rcases h.source hr with hcur | ⟨hle, hlt, hborn⟩
      · exact .inr (.inl ⟨rfl, hcur⟩)
      · exact .inr (.inr ⟨rfl, hr, hle, hlt, hborn⟩)
    · rw [hold k hk] at hr
      exact .inl ⟨(hs.range k name r hr).1, hr⟩
  -- seen from outside, an entry belongs to an older snapshot or is newly made
  have hsplit : ∀ k name r, (s'.snapshots k).entries.find? name = some r →
      (∃ k₀, (s.snapshots k₀).entries.find? name = some r) ∨
      (built.next.entries.find? name = some r ∧ s.nextReg ≤ r) := by
    intro k name r hr
    rcases hentry k name r hr with ⟨-, hr⟩ | ⟨-, hr⟩ | ⟨-, hr, hle, -⟩
    · exact .inl ⟨k, hr⟩
    · exact .inl ⟨s.current, hr⟩
    · exact .inr ⟨hr, hle⟩
  refine ⟨?_, ?_, hs.here, hs.last, hs.stored.trans (Nat.lt_succ_self _), ?_, ?_, ?_, ?_, ?_, ?_, ?_, ?_⟩
  · intro k name r hr
    rcases hentry k name r hr with ⟨hk, hr⟩ | ⟨rfl, hcur⟩ | ⟨rfl, -, -, hlt, -⟩
    · exact ⟨hk.trans (Nat.lt_succ_self _), lt_of_lt_of_le (hs.range k name r hr).2 h.grows⟩
    · exact ⟨Nat.lt_succ_self _, lt_of_lt_of_le (hs.range _ name r hcur).2 h.grows⟩
    · exact ⟨Nat.lt_succ_self _, hlt⟩
  · intro k k' name name' r hr hr'
    rcases hsplit k name r hr with ⟨k₀, h₀⟩ | ⟨h₀, hle⟩
    · rcases hsplit k' name' r hr' with ⟨k₁, h₁⟩ | ⟨h₁, hle'⟩
      · exact hs.oneName k₀ k₁ name name' r h₀ h₁
      · exact absurd (hs.range k₀ name r h₀).2 (Nat.not_lt.mpr hle')
    · rcases hsplit k' name' r hr' with ⟨k₁, h₁⟩ | ⟨h₁, -⟩
      · exact absurd (hs.range k₁ name' r h₁).2 (Nat.not_lt.mpr hle)
      · exact h.own name name' r h₀ h₁ hle
  · exact List.forall_mem_append.mpr ⟨fun pr hpr => (hs.prepared pr hpr).afterPrepare hs h,
      List.forall_mem_singleton.mpr (preparedOk_new hs h)⟩
  · rintro k r ⟨name, hr⟩
    rcases hentry k name r hr with ⟨hk, hr⟩ | ⟨rfl, hcur⟩ | ⟨rfl, -, -, -, hborn⟩
    · rw [hreg r (hs.range k name r hr).2]
      exact hs.born k r ⟨name, hr⟩
    · rw [hreg r (hs.range _ name r hcur).2]
      rcases hs.born s.current r ⟨name, hcur⟩ with hborn | hborn
      · exact .inr (hborn ▸ hs.here)
      · exact .inr hborn
    · exact .inl hborn
  · intro r hr hnot
    by_cases hlt : r < s.nextReg
    · rw [hreg r hlt]
      exact hs.newborn r hlt (fun hever' => hnot ((hever r).mpr hever'))
    · exact h.made r (Nat.not_lt.mp hlt) hr
  · intro r hr
    have hr' := (hever r).mp hr
    rw [hreg r (hpublished r hr')]
    have hcurrent : s'.isCurrent r ↔ s.isCurrent r := afterPrepare_entryOf hs hs.here r
    rw [hcurrent]
    exact hs.flags r hr'
  · intro p hp
    have hfresh := hs.asking p hp
    unfold Impl.fresh at hfresh ⊢
    cases hpr : s.prepared[p]? with
    | none => simp [hpr] at hfresh
    | some pr =>
      rw [hpr] at hfresh
      rw [afterPrepare_prepared_old hpr]
      exact hfresh
  · intro p done rest hp
    obtain ⟨pr, hpr, hprevious, hretiring⟩ := hs.committing p done rest hp
    exact ⟨pr, afterPrepare_prepared_old hpr, hprevious, hretiring⟩
  · have hsame : (s'.published.map fun p : PrepId => (s'.prepared[p]?.map Prepared.previous).getD 0) =
        s.published.map fun p : PrepId => (s.prepared[p]?.map Prepared.previous).getD 0 := by
      apply List.map_congr_left
      intro p hp
      obtain ⟨pr, hpr, -⟩ := hs.known p hp
      rw [hpr, afterPrepare_prepared_old hpr]
    rw [hsame]
    exact hs.once
  · intro p hp
    obtain ⟨pr, hpr, hlt⟩ := hs.known p hp
    exact ⟨pr, afterPrepare_prepared_old hpr, hlt⟩

end Prepare

variable {s s' : Impl} {a : Label} {p : PrepId} {pr : Prepared} {r : RegId} {done rest : List RegId}

/-! ## What a step does -/

/-- A preparation that throws or has built a snapshot, and the six ways on through `publish`. -/
inductive Stepped (s : Impl) : Label → Impl → Prop where
  | unprepared (a : Label) (other : ∀ p, a ≠ .enter p) : Stepped s a s
  | prepared (a : Label) (other : ∀ p, a ≠ .enter p) (wrappers : Wrappers) (desired : PVBindings)
      (built : Building) (h : Built s wrappers desired.entries built) :
      Stepped s a (afterPrepare s built)
  | entered (p : PrepId) (idle : s.publisher = .idle) (fresh : s.fresh p = true) :
      Stepped s (.enter p) { s with publisher := .asking p }
  | stale (p : PrepId) (idle : s.publisher = .idle) : Stepped s (.enter p) (s.reply p false)
  | accepted (p : PrepId) (asking : s.publisher = .asking p) : Stepped s (.answer true)
      { s with publisher := .retiring p [] ((s.prepared[p]?.map Prepared.retiring).getD []) }
  | rejected (p : PrepId) (asking : s.publisher = .asking p) :
      Stepped s (.answer false) (s.reply p false)
  | cleared (p : PrepId) (done : List RegId) (r : RegId) (rest : List RegId)
      (retiring : s.publisher = .retiring p done (r :: rest)) : Stepped s .retire
      { s.deactivate r with publisher := .retiring p (done ++ [r]) rest }
  | stored (p : PrepId) (done : List RegId) (pr : Prepared)
      (retiring : s.publisher = .retiring p done []) (hpr : s.prepared[p]? = some pr) :
      Stepped s .store
        { s.reply p true with
          current := pr.next
          history := pr.next :: s.history
          published := s.published ++ [p] }

theorem prepareStep_cases (hs : Consistent s) (other : ∀ p, a ≠ .enter p) (desired : PVBindings)
    (wrappers : Wrappers) : Stepped s a (s.prepareStep desired wrappers) := by
  unfold Impl.prepareStep
  cases hprepare : s.prepare desired wrappers with
  | error message => exact .unprepared a other
  | ok out =>
    obtain ⟨s', p⟩ := out
    obtain ⟨built, hbuilt, -, rfl⟩ :=
      prepare_built (fun name r hr => (hs.range _ name r hr).2) hprepare
    exact .prepared a other wrappers desired built hbuilt

/-- What every step comes down to. -/
theorem step_cases (hs : Consistent s) (h : step s a = some s') : Stepped s a s' := by
  cases a with
  | prepare desired wrappers =>
    cases h
    exact prepareStep_cases hs (fun p => by simp) desired wrappers
  | clearPrepare =>
    cases h
    exact prepareStep_cases hs (fun p => by simp) ∅ ∅
  | enter p =>
    simp only [step, Impl.enter] at h
    split at h
    · rename_i hidle
      split at h <;> cases h
      · exact .entered p hidle ‹_›
      · exact .stale p hidle
    · cases h
  | answer ok =>
    simp only [step, Impl.answer] at h
    split at h
    · rename_i p hasking
      cases ok <;> cases h
      · exact .rejected p hasking
      · exact .accepted p hasking
    · cases h
  | retire =>
    simp only [step, Impl.retire] at h
    split at h
    · rename_i p done r rest hp
      cases h
      exact .cleared p done r rest hp
    · cases h
  | store =>
    simp only [step, Impl.store] at h
    split at h
    · rename_i p done hp
      obtain ⟨pr, hpr, hdone⟩ := Option.bind_eq_some_iff.mp h
      cases hdone
      exact .stored p done pr hp hpr
    · cases h

/-! ## Preservation by the sections of `publish` -/

/-- A section that only moves the publisher on, with no flag counted as cleared. -/
theorem Consistent.move (hs : Consistent s) {publisher : Publisher}
    {returned : List (PrepId × Bool)} (hquiet : s.cleared = [])
    (hasking : ∀ p : PrepId, publisher = .asking p → s.fresh p = true)
    (hcommit : ∀ (p : PrepId) done rest, publisher = .retiring p done rest → done = [] ∧
      ∃ pr, s.prepared[p]? = some pr ∧ pr.previous = s.current ∧ pr.retiring = rest) :
    Consistent { s with publisher := publisher, returned := returned } := by
  refine { hs with
    prepared := fun pr hpr => { hs.prepared pr hpr with }
    flags := fun r hr => ?_
    asking := hasking
    committing := fun p done rest hp => ?_ }
  · have hnone : { s with publisher := publisher, returned := returned }.cleared = [] := by
      unfold Impl.cleared
      cases publisher with
      | idle => rfl
      | asking p => rfl
      | retiring p done rest => exact (hcommit p done rest rfl).1
    have hflags := hs.flags r hr
    rw [hquiet] at hflags
    rw [hnone]
    exact hflags
  · obtain ⟨rfl, pr, hpr, hprevious, hretiring⟩ := hcommit p done rest hp
    exact ⟨pr, hpr, hprevious, hretiring⟩

/-- A call returns without having cleared a flag. -/
theorem Consistent.reply (hs : Consistent s) (hquiet : s.cleared = []) (p : PrepId)
    (result : Bool) : Consistent (s.reply p result) :=
  hs.move hquiet (fun _ h => Publisher.noConfusion h) fun _ _ _ h => Publisher.noConfusion h

theorem fresh_cases (h : s.fresh p = true) :
    ∃ pr, s.prepared[p]? = some pr ∧ pr.previous = s.current := by
  unfold Impl.fresh at h
  split at h
  · rename_i pr hpr
    exact ⟨pr, hpr, by simpa using h⟩
  · cases h

theorem deactivate_born (s : Impl) (r r' : RegId) :
    ((s.deactivate r).registrations r').born = (s.registrations r').born := by
  by_cases h : r' = r <;> simp [Impl.deactivate, h]

theorem deactivate_active (s : Impl) (r r' : RegId) :
    ((s.deactivate r).registrations r').active =
      if r' = r then false else (s.registrations r').active := by
  by_cases h : r' = r <;> simp [Impl.deactivate, h]

/-- Everything the publisher retires is an entry of the current snapshot. -/
theorem Consistent.retiring_current (hs : Consistent s) (hp : s.publisher = .retiring p done rest)
    (hr : r ∈ done ++ rest) : s.isCurrent r := by
  obtain ⟨pr, hpr, hprevious, hretiring⟩ := hs.committing p done rest hp
  rw [← hretiring, (hs.prepared pr (List.mem_of_getElem? hpr)).retiring, hprevious] at hr
  obtain ⟨name, hname, -⟩ := mem_retiringOf.mp hr
  exact ⟨name, hname⟩

theorem consistent_clear (hs : Consistent s) (hp : s.publisher = .retiring p done (r :: rest)) :
    Consistent { s.deactivate r with publisher := .retiring p (done ++ [r]) rest } := by
  have hcurrent : s.isCurrent r := hs.retiring_current hp (by simp)
  refine { hs with
    prepared := fun pr hpr => { hs.prepared pr hpr with source := fun name r' hr' => ?_ }
    born := fun k r' hr' => ?_
    newborn := fun r' hlt hnot => ?_
    flags := fun r' hr' => ?_
    asking := fun p' hp' => Publisher.noConfusion hp'
    committing := fun p' done' rest' hp' => ?_ }
  · have := (hs.prepared pr hpr).source name r' hr'
    rwa [← deactivate_born s r r'] at this
  · have := hs.born k r' hr'
    rwa [← deactivate_born s r r'] at this
  · have hne : r' ≠ r := by
      rintro rfl
      exact hnot ⟨s.current, hs.here, hcurrent⟩
    refine (deactivate_active s r r').trans ?_
    rw [if_neg hne]
    exact hs.newborn r' hlt hnot
  · have hflags := hs.flags r' hr'
    have hcleared : s.cleared = done := by simp [Impl.cleared, hp]
    rw [hcleared] at hflags
    show ((s.deactivate r).registrations r').active = true ↔ s.isCurrent r' ∧ r' ∉ done ++ [r]
    rw [deactivate_active]
    by_cases hne : r' = r
    · simp [hne]
    · simpa [hne] using hflags
  · cases hp'
    obtain ⟨pr, hpr, hprevious, hretiring⟩ := hs.committing p done (r :: rest) hp
    exact ⟨pr, hpr, hprevious, by simp [hretiring]⟩

/-- What the snapshot about to be stored keeps: an old registration is in it exactly if it
    is current and not retired by this publication. -/
theorem Consistent.stays (hs : Consistent s) (hp : s.publisher = .retiring p done [])
    (hpr : s.prepared[p]? = some pr) (hever : s.everPublished r) :
    s.entryOf pr.next r ↔ s.isCurrent r ∧ r ∉ done := by
  obtain ⟨pr', hpr', hprevious, hretiring⟩ := hs.committing p done [] hp
  cases hpr.symm.trans hpr'
  have hok := hs.prepared pr (List.mem_of_getElem? hpr)
  have hdone : done = retiringOf (s.snapshots s.current) (s.snapshots pr.next) := by
    rw [← hprevious, ← hok.retiring, hretiring, List.append_nil]
  constructor
  · rintro ⟨name, hr⟩
    have hcur : (s.snapshots s.current).entries.find? name = some r := by
      rcases hok.source name r hr with hsame | hborn
      · exact hprevious ▸ hsame
      · -- a registration built for the new snapshot was in no snapshot of the past
        obtain ⟨k, hk, hkr⟩ := hever
        have hpast : (s.registrations r).born ∈ s.history := by
          rcases hs.born k r hkr with hbk | hbk
          · exact hbk ▸ hk
          · exact hbk
        rw [hborn] at hpast
        have hlater : s.current < pr.next := hprevious ▸ hok.order
        exact absurd (hs.last _ hpast) (Nat.not_le.mpr hlater)
    refine ⟨⟨name, hcur⟩, ?_⟩
    intro hmem
    rw [hdone] at hmem
    obtain ⟨name', hname', hnot⟩ := mem_retiringOf.mp hmem
    rw [hs.oneName _ _ _ _ r hname' hcur] at hnot
    exact hnot hr
  · rintro ⟨⟨name, hcur⟩, hnot⟩
    refine ⟨name, ?_⟩
    by_contra hgone
    apply hnot
    rw [hdone]
    exact mem_retiringOf.mpr ⟨name, hcur, hgone⟩

theorem consistent_store (hs : Consistent s) (hp : s.publisher = .retiring p done [])
    (hpr : s.prepared[p]? = some pr) :
    Consistent { s.reply p true with
      current := pr.next
      history := pr.next :: s.history
      published := s.published ++ [p] } := by
  obtain ⟨pr', hpr', hprevious, hretiring⟩ := hs.committing p done [] hp
  cases hpr.symm.trans hpr'
  have hok := hs.prepared pr (List.mem_of_getElem? hpr)
  have hlater : s.current < pr.next := hprevious ▸ hok.order
  have hcleared : s.cleared = done := by simp [Impl.cleared, hp]
  have hborn : ∀ r, s.entryOf pr.next r → ¬ s.everPublished r → (s.registrations r).active = true := by
    rintro r ⟨name, hr⟩ hnot
    exact hs.newborn r (hs.range _ name r hr).2 hnot
  refine ⟨hs.range, hs.oneName, List.mem_cons_self, ?_, hok.range, ?_, ?_, ?_, ?_, ?_, ?_, ?_, ?_⟩
  · exact List.forall_mem_cons.mpr ⟨le_refl _, fun k hk => (hs.last k hk).trans hlater.le⟩
  · intro pr' hpr'
    have hok' := hs.prepared pr' hpr'
    exact { hok' with base := List.mem_cons_of_mem _ hok'.base }
  · intro k r hr
    exact (hs.born k r hr).imp id (List.mem_cons_of_mem _)
  · intro r hlt hnot
    apply hs.newborn r hlt
    rintro ⟨k, hk, hr⟩
    exact hnot ⟨k, List.mem_cons_of_mem _ hk, hr⟩
  · intro r hr
    show (s.registrations r).active = true ↔ s.entryOf pr.next r ∧ r ∉ []
    by_cases hever : s.everPublished r
    · rw [hs.stays hp hpr hever, hs.flags r hever, hcleared]
      simp
    · -- never published before, so it entered with this snapshot
      obtain ⟨k, hk, hkr⟩ := hr
      rcases List.mem_cons.mp hk with rfl | hk
      · exact ⟨fun _ => ⟨hkr, by simp⟩, fun _ => hborn r hkr hever⟩
      · exact absurd ⟨k, hk, hkr⟩ hever
  · intro p' hp'
    cases hp'
  · intro p' done' rest' hp'
    cases hp'
  · show ((s.published ++ [p]).map fun p : PrepId =>
      (s.prepared[p]?.map Prepared.previous).getD 0).Pairwise (· < ·)
    rw [List.map_append]
    refine List.pairwise_append.mpr ⟨hs.once, by simp, ?_⟩
    intro a ha b hb
    obtain ⟨q, hq, rfl⟩ := List.mem_map.mp ha
    obtain ⟨qr, hqr, hqlt⟩ := hs.known q hq
    simp only [List.map_cons, List.map_nil, List.mem_singleton, hpr, Option.map_some,
      Option.getD_some] at hb
    rw [hb, hprevious, hqr]
    exact hqlt
  · refine List.forall_mem_append.mpr ⟨fun q hq => ?_, by simpa using ⟨pr, hpr, hok.order⟩⟩
    obtain ⟨qr, hqr, hqlt⟩ := hs.known q hq
    exact ⟨qr, hqr, hqlt.trans hlater⟩

/-! ## Every run -/

theorem consistent_step (hs : Consistent s) (h : step s a = some s') : Consistent s' := by
  cases step_cases hs h with
  | unprepared _ _ => exact hs
  | prepared _ _ wrappers desired built hbuilt => exact consistent_afterPrepare hs hbuilt
  | entered p hidle hfresh =>
    refine hs.move (by simp [Impl.cleared, hidle]) ?_ fun _ _ _ hp => Publisher.noConfusion hp
    intro p' hp'
    cases hp'
    exact hfresh
  | stale p hidle => exact hs.reply (by simp [Impl.cleared, hidle]) p false
  | accepted p hasking =>
    obtain ⟨pr, hpr, hprevious⟩ := fresh_cases (hs.asking p hasking)
    refine hs.move (by simp [Impl.cleared, hasking]) (fun _ hp => Publisher.noConfusion hp) ?_
    intro p' done rest hp'
    cases hp'
    exact ⟨rfl, pr, hpr, hprevious, by simp [hpr]⟩
  | rejected p hasking => exact hs.reply (by simp [Impl.cleared, hasking]) p false
  | cleared p done r rest hp => exact consistent_clear hs hp
  | stored p done pr hp hpr => exact consistent_store hs hp hpr

theorem consistent_reachable (hs : machine.Reachable s) : Consistent s :=
  hs.invariant (fun _ => consistent_start) (fun _ _ _ => consistent_step)

/-! ## An undisturbed call -/

/-- Clearing flags leaves everything else alone. -/
theorem foldl_deactivate (rest : List RegId) (s : Impl) :
    rest.foldl Impl.deactivate s = { s with registrations := fun r =>
      if r ∈ rest then { s.registrations r with active := false } else s.registrations r } := by
  induction rest generalizing s with
  | nil => simp
  | cons r' rest ih =>
    rw [List.foldl_cons, ih]
    simp only [Impl.deactivate, List.mem_cons]
    congr 1
    funext r
    by_cases hr : r = r'
    · subst hr
      simp
    · simp [hr]

/-- The loop over `retiring`, by induction on the flags still to be cleared. -/
theorem exec_retire
    (h : s.publisher = .retiring p done rest) :
    machine.exec s (List.replicate rest.length .retire) =
      some { rest.foldl Impl.deactivate s with publisher := .retiring p (done ++ rest) [] } := by
  induction rest generalizing s done with
  | nil =>
    cases s
    cases h
    simp
  | cons r rest ih =>
    rw [List.length_cons, List.replicate_succ]
    apply machine.exec_cons_iff.mpr
    refine ⟨{ s.deactivate r with publisher := .retiring p (done ++ [r]) rest }, ?_, ?_⟩
    · show s.retire = _
      simp [Impl.retire, h]
    · rw [ih rfl, List.foldl_cons, foldl_deactivate, foldl_deactivate]
      simp

/-- A call of `publish` that nobody disturbs is the run of its sections. -/
theorem exec_publish (hidle : s.publisher = .idle) (p : PrepId) (ok : Bool) :
    ∃ as, machine.exec s as = some (s.publish p ok).1 := by
  have hstale : s.fresh p = false → machine.exec s [.enter p] = some (s.reply p false) :=
    fun hfresh => machine.exec_cons_iff.mpr ⟨_, by simp [machine, step, Impl.enter, hidle, hfresh], rfl⟩
  unfold Impl.publish
  cases hpr : s.prepared[p]? with
  | none => exact ⟨[.enter p], hstale (by simp [Impl.fresh, hpr])⟩
  | some pr =>
    by_cases hfresh : pr.previous = s.current
    · have henter : step s (.enter p) = some { s with publisher := .asking p } := by
        simp [step, Impl.enter, hidle, Impl.fresh, hpr, hfresh]
      cases ok with
      | false =>
        refine ⟨[.enter p, .answer false], machine.exec_cons_iff.mpr ⟨_, henter, ?_⟩⟩
        have hanswer : step { s with publisher := .asking p } (.answer false) =
            some (s.reply p false) := rfl
        refine machine.exec_cons_iff.mpr ⟨_, hanswer, ?_⟩
        simp
      | true =>
        -- the loop runs once for each retiring registration, then the store
        have hanswer : step { s with publisher := .asking p } (.answer true) =
            some { s with publisher := .retiring p [] pr.retiring } := by
          simp [step, Impl.answer, hpr]
        have hloop := exec_retire
          (s := { s with publisher := .retiring p [] pr.retiring }) (p := p) rfl
        refine ⟨.enter p :: .answer true :: (List.replicate pr.retiring.length .retire ++ [.store]),
          ?_⟩
        refine machine.exec_cons_iff.mpr ⟨_, henter, machine.exec_cons_iff.mpr ⟨_, hanswer, ?_⟩⟩
        refine machine.exec_append hloop (machine.exec_cons_iff.mpr ⟨_, ?_, rfl⟩)
        simp [machine, step, Impl.store, Impl.reply, foldl_deactivate, hpr, hfresh]
    · refine ⟨[.enter p], ?_⟩
      simpa [hfresh] using hstale (by simp [Impl.fresh, hpr, hfresh])

/-! ## Failed publications -/

/-- The current snapshot and the flags of all known registrations are the same. -/
structure SameView (s s' : Impl) : Prop where
  current : s'.current = s.current
  grows : s.nextReg ≤ s'.nextReg
  active : ∀ r, r < s.nextReg → (s'.registrations r).active = (s.registrations r).active

theorem SameView.refl (s : Impl) : SameView s s := ⟨rfl, le_refl _, fun _ _ => rfl⟩

variable {t : Impl}

theorem SameView.trans {u : Impl} (h : SameView s t) (h' : SameView t u) : SameView s u where
  current := h'.current.trans h.current
  grows := h.grows.trans h'.grows
  active r hr := (h'.active r (lt_of_lt_of_le hr h.grows)).trans (h.active r hr)

theorem Built.sameView {built : Building} (h : Built s wrappers desired.entries built) :
    SameView s (afterPrepare s built) :=
  ⟨rfl, h.grows, fun r hr => congrArg Registration.active (h.old r hr)⟩

/-- Where a call `publish p` that started in `s` can be in `t`, and what has become of the
    view it started from. -/
def CallOf (s t : Impl) (p : PrepId) : Prop :=
  (t.returned = s.returned ∧ ((t.publisher = .asking p ∧ SameView s t) ∨
    ∃ done rest, t.publisher = .retiring p done rest)) ∨
  (t.returned = s.returned ++ [(p, false)] ∧
    ((∀ q done rest, t.publisher ≠ .retiring q done rest) → SameView s t)) ∨
  (∃ x xs, t.returned = s.returned ++ x :: xs ∧ (x = (p, true) ∨ xs ≠ []))

theorem callOf_step {t' : Impl} (ht : Consistent t) (hcall : CallOf s t p)
    (h : step t a = some t') : CallOf s t' p := by
  have hstep := step_cases ht h
  rcases hcall with ⟨hret, ⟨hask, hview⟩ | ⟨done, rest, hretiring⟩⟩ | ⟨hret, hview⟩ |
    ⟨x, xs, hret, hx⟩
  · -- waiting for `beforeCommit`: nobody else is inside the mutex
    cases hstep with
    | unprepared _ _ => exact .inl ⟨hret, .inl ⟨hask, hview⟩⟩
    | prepared _ _ _ _ _ hbuilt => exact .inl ⟨hret, .inl ⟨hask, hview.trans hbuilt.sameView⟩⟩
    | accepted q hq =>
      rw [hask] at hq
      cases hq
      exact .inl ⟨hret, .inr ⟨[], _, rfl⟩⟩
    | rejected q hq =>
      rw [hask] at hq
      cases hq
      exact .inr (.inl ⟨by rw [Impl.reply, hret], fun _ => { hview with }⟩)
    | _ => simp_all
  · -- committing: the only way out is to return `true`
    cases hstep with
    | unprepared | prepared => exact .inl ⟨hret, .inr ⟨done, rest, hretiring⟩⟩
    | cleared q done₀ r rest₀ hq =>
      rw [hretiring] at hq
      cases hq
      exact .inl ⟨hret, .inr ⟨_, _, rfl⟩⟩
    | stored q done₀ pr hq =>
      rw [hretiring] at hq
      cases hq
      exact .inr (.inr ⟨(p, true), [], by rw [Impl.reply, hret], .inl rfl⟩)
    | _ => simp_all
  · -- the call has returned `false`; later callers may be inside the mutex
    have hlonger : ∀ y, t'.returned = t.returned ++ [y] → CallOf s t' p := by
      intro y hy
      refine .inr (.inr ⟨(p, false), [y], ?_, .inr (by simp)⟩)
      rw [hy, hret, List.append_assoc]
      rfl
    cases hstep with
    | unprepared _ _ => exact .inr (.inl ⟨hret, hview⟩)
    | prepared _ _ _ _ _ hbuilt =>
      exact .inr (.inl ⟨hret, fun hnot => (hview hnot).trans hbuilt.sameView⟩)
    | entered q hidle => exact .inr (.inl ⟨hret, fun _ => { hview (by simp [hidle]) with }⟩)
    | stale | rejected | stored => exact hlonger _ rfl
    | accepted q _ => exact .inr (.inl ⟨hret, fun hnot => absurd rfl (hnot q [] _)⟩)
    | cleared q _ _ _ _ => exact .inr (.inl ⟨hret, fun hnot => absurd rfl (hnot q _ _)⟩)
  · -- too late for a first answer `false`
    have hgrow : ∃ ys, t'.returned = t.returned ++ ys := by
      cases hstep with
      | stale | rejected | stored => exact ⟨_, rfl⟩
      | _ => exact ⟨[], (List.append_nil _).symm⟩
    obtain ⟨ys, hys⟩ := hgrow
    refine .inr (.inr ⟨x, xs ++ ys, by rw [hys, hret]; simp, ?_⟩)
    rcases hx with hx | hx
    · exact .inl hx
    · exact .inr (by simp [hx])

/-- From the moment `publish p` is called until it has returned `false`, whatever the other
    callers do meanwhile, the snapshot and the flags are left alone. -/
theorem publish_false_sameView (hs : Consistent s) {as : List Label}
    (hrun : machine.exec s (.enter p :: as) = some t) (hidle : t.publisher = .idle)
    (hfalse : t.returned = s.returned ++ [(p, false)]) : SameView s t := by
  obtain ⟨s₁, hfirst, hrest⟩ := machine.exec_cons_iff.mp hrun
  replace hfirst : step s (.enter p) = some s₁ := hfirst
  have hstart : CallOf s s₁ p := by
    cases step_cases hs hfirst with
    | unprepared _ hother => exact absurd rfl (hother p)
    | prepared _ hother => exact absurd rfl (hother p)
    | entered _ _ _ => exact .inl ⟨rfl, .inl ⟨rfl, { SameView.refl s with }⟩⟩
    | stale _ _ => exact .inr (.inl ⟨rfl, fun _ => { SameView.refl s with }⟩)
  have hend := machine.exec_invariant (P := fun t => Consistent t ∧ CallOf s t p)
    (fun t a t' ht hstep => ⟨consistent_step ht.1 hstep, callOf_step ht.1 ht.2 hstep⟩)
    ⟨consistent_step hs hfirst, hstart⟩ hrest
  rcases hend.2 with ⟨hret, -⟩ | ⟨-, hview⟩ | ⟨x, xs, hret, hx⟩
  · rw [hfalse] at hret
    simp at hret
  · exact hview (by simp [hidle])
  · rw [hfalse] at hret
    have hsame := List.append_cancel_left hret
    cases hsame
    simp at hx

/-! ## Retirement is final -/

/-- The tables only grow: nothing in them changes but flags, which are cleared. -/
structure Grows (s s' : Impl) : Prop where
  nextReg : s.nextReg ≤ s'.nextReg
  nextSnap : s.nextSnap ≤ s'.nextSnap
  bindings : ∀ r, r < s.nextReg → (s'.registrations r).binding = (s.registrations r).binding
  active : ∀ r, r < s.nextReg →
    (s'.registrations r).active = true → (s.registrations r).active = true
  snapshots : ∀ k, k < s.nextSnap → s'.snapshots k = s.snapshots k
  prepared : ∀ (p : PrepId) pr, s.prepared[p]? = some pr → s'.prepared[p]? = some pr
  history : s.history ⊆ s'.history
  published : s.published ⊆ s'.published

theorem Grows.refl (s : Impl) : Grows s s :=
  ⟨le_refl _, le_refl _, fun _ _ => rfl, fun _ _ => id, fun _ _ => rfl, fun _ _ => id,
    List.Subset.refl _, List.Subset.refl _⟩

theorem Grows.trans (h : Grows s s') (h' : Grows s' t) : Grows s t where
  nextReg := h.nextReg.trans h'.nextReg
  nextSnap := h.nextSnap.trans h'.nextSnap
  bindings r hr := (h'.bindings r (lt_of_lt_of_le hr h.nextReg)).trans (h.bindings r hr)
  active r hr hactive := h.active r hr (h'.active r (lt_of_lt_of_le hr h.nextReg) hactive)
  snapshots k hk := (h'.snapshots k (lt_of_lt_of_le hk h.nextSnap)).trans (h.snapshots k hk)
  prepared p pr hpr := h'.prepared p pr (h.prepared p pr hpr)
  history := List.Subset.trans h.history h'.history
  published := List.Subset.trans h.published h'.published

theorem Built.grows_tables {built : Building} (h : Built s wrappers desired.entries built) :
    Grows s (afterPrepare s built) where
  nextReg := h.grows
  nextSnap := Nat.le_succ _
  bindings r hr := congrArg Registration.binding (h.old r hr)
  active r hr hactive := (congrArg Registration.active (h.old r hr)).symm.trans hactive
  snapshots _ hk := afterPrepare_snapshot_old (Nat.ne_of_lt hk)
  prepared _ _ := afterPrepare_prepared_old
  history := List.Subset.refl _
  published := List.Subset.refl _

theorem grows_step (hs : Consistent s) (h : step s a = some s') : Grows s s' := by
  cases step_cases hs h with
  | prepared _ _ _ _ _ hbuilt => exact hbuilt.grows_tables
  | cleared p done r rest hp =>
    refine { Grows.refl s with bindings := fun r' _ => ?_, active := fun r' _ => ?_ }
    · show ((s.deactivate r).registrations r').binding = _
      by_cases hr : r' = r <;> simp [Impl.deactivate, hr]
    · show ((s.deactivate r).registrations r').active = true → _
      rw [deactivate_active]
      split
      · simp
      · exact id
  | stored p done pr hp hpr =>
    exact { Grows.refl s with
      history := List.subset_cons_self _ _
      published := List.subset_append_left _ _ }
  | _ => exact { Grows.refl s with }

theorem Grows.everPublished (h : Grows s s') (hs : Consistent s) (hr : s.everPublished r) :
    s'.everPublished r := by
  obtain ⟨k, hk, name, hkr⟩ := hr
  refine ⟨k, h.history hk, name, ?_⟩
  rw [h.snapshots k ((hs.last k hk).trans_lt hs.stored)]
  exact hkr

/-- Only a registration that is current already is current after a step, unless it has
    never been published. -/
theorem isCurrent_of_step (hs : Consistent s) (h : step s a = some s') (hr : s.everPublished r)
    (hcur : s'.isCurrent r) : s.isCurrent r := by
  cases step_cases hs h with
  | prepared _ _ _ _ _ _ => exact (afterPrepare_entryOf hs hs.here r).mp hcur
  | stored p done pr hp hpr => exact ((hs.stays hp hpr hr).mp hcur).1
  | _ => exact hcur

/-- **A registration that has left the current snapshot never comes back.** -/
theorem retired_forever (hs : Consistent s) {as : List Label} (hrun : machine.exec s as = some t)
    (hr : s.everPublished r) (hgone : ¬ s.isCurrent r) : ¬ t.isCurrent r := by
  have hend := machine.exec_invariant
    (P := fun t => Consistent t ∧ t.everPublished r ∧ ¬ t.isCurrent r)
    (fun t a t' ht hstep => ⟨consistent_step ht.1 hstep, (grows_step ht.1 hstep).everPublished ht.1 ht.2.1,
      fun hcur => ht.2.2 (isCurrent_of_step ht.1 hstep ht.2.1 hcur)⟩)
    ⟨hs, hr, hgone⟩ hrun
  exact hend.2.2

/-! ## The publication theorem -/

/-- What the registry promises in one state, for everything that may follow. -/
structure PublicationSafe (s : Impl) : Prop where
  /-- A registration that was ever published is active exactly if it is current; inside a
      commit, the flags that are cleared ahead of the store are the only exception. -/
  activeIff : ∀ r, s.everPublished r →
    ((s.registrations r).active = true ↔ s.isCurrent r ∧ r ∉ s.cleared)
  activeIff_atRest : (∀ p done rest, s.publisher ≠ .retiring p done rest) →
    ∀ r, s.everPublished r → ((s.registrations r).active = true ↔ s.isCurrent r)
  /-- A call of `publish` that returns `false` leaves snapshot and flags as they were. -/
  falseChangesNothing : ∀ p as t, machine.exec s (.enter p :: as) = some t →
    t.publisher = .idle → t.returned = s.returned ++ [(p, false)] →
    t.current = s.current ∧ ∀ r, r < s.nextReg →
      (t.registrations r).active = (s.registrations r).active
  /-- No two published preparations were made from the same snapshot, and none was
      published twice. -/
  onePerSnapshot :
    (s.published.map fun p : PrepId => (s.prepared[p]?.map Prepared.previous)).Nodup
  /-- Once retired, always retired. -/
  retiredForever : ∀ as t, machine.exec s as = some t → ∀ r, s.everPublished r →
    ¬ s.isCurrent r → ¬ t.isCurrent r

/-- **Publication is safe in every reachable state.** -/
theorem publication_safe {s : Impl} (hs : machine.Reachable s) : PublicationSafe s := by
  have hok := consistent_reachable hs
  constructor
  · exact hok.flags
  · intro hrest r hr
    have hnone : s.cleared = [] := by
      unfold Impl.cleared
      split
      · rename_i p done rest hp
        exact absurd hp (hrest p done rest)
      · rfl
    simpa [hnone] using hok.flags r hr
  · intro p as t hrun hidle hfalse
    have hview := publish_false_sameView hok hrun hidle hfalse
    exact ⟨hview.current, hview.active⟩
  · have hpairs := List.pairwise_map.mp hok.once
    refine List.pairwise_map.mpr (hpairs.imp ?_)
    intro p q hlt hsame
    rw [hsame] at hlt
    exact lt_irrefl _ hlt
  · intro as t hrun r
    exact retired_forever hok hrun

/-- Two callers prepare from the same snapshot; the second one comes too late. -/
theorem publication_safe_twoCallers : ∃ s, machine.Reachable s ∧ PublicationSafe s ∧
    s.returned = [(0, true), (1, true), (2, false)] ∧ s.published = [0, 1] ∧
    (s.registrations 0).active = false ∧ (s.registrations 1).active = true := by
  let bound (owner : Nat) : PVBindings :=
    FinMap.ofList [("pv", { pv := some 7, owner := some owner })]
  let run : List Label := [.prepare (bound 1) ∅, .enter 0, .answer true, .store,
    .prepare (bound 2) ∅, .clearPrepare, .enter 1, .answer true, .retire, .store, .enter 2]
  have hrun : (machine.exec {} run).isSome = true := by decide
  obtain ⟨s, hs⟩ := Option.isSome_iff_exists.mp hrun
  have hreach : machine.Reachable s := ⟨{}, run, rfl, hs⟩
  refine ⟨s, hreach, publication_safe hreach, ?_⟩
  cases hs
  decide

end RedisPvxsIoc.PVRegistry
