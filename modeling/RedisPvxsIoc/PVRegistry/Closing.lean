import RedisPvxsIoc.PVRegistry.Channels
import RedisPvxsIoc.PVRegistry.Calls

/-!
# Which Channels a Publication Closes

A publication and its `finish`, each as one call, on a registry whose channels and other
preparations have been busy since `prepare`.  A name that keeps its owner and its access keeps its
registration, and nothing happens to the channels of that; all other registrations of the previous
snapshot are retired and the channels on their lists closed.

## Main results

- `exec_finish`: `finish` as one call is a run of its sections
- `publication_closes`: served names, kept endpoints and closed channels
-/

namespace RedisPvxsIoc.PVRegistry

open Foundations Config

/-! ## `finish` as one call -/

namespace Endpoints

/-- One turn of the loop in `Registration::close`. -/
def closeLive (s : Endpoints) (c : ChanId) : Endpoints :=
  if s.isAlive c then s.closeControl c else s

/-- `Registration::close` -/
def closeAll (s : Endpoints) (r : RegId) : Endpoints :=
  (s.channels r).foldl closeLive { s with channels := Function.update s.channels r [] }

/-- `PVRegistry::finish` -/
def finishAll (s : Endpoints) (p : PrepId) : Endpoints :=
  ((s.registry.prepared[p]?.map Prepared.retiring).getD []).foldl closeAll s

end Endpoints

/-- A control after a turn of that loop. -/
def Control.shut (control : Control) : Control :=
  { control with closed := control.closed || control.alive }

@[simp] theorem Control.shut_shut (control : Control) : control.shut.shut = control.shut := by
  simp [Control.shut]

variable {s s' t : Endpoints} {p : PrepId} {r : RegId} {c : ChanId}

theorem closeLive_eq (s : Endpoints) (c : ChanId) : s.closeLive c =
    { s with controls := Function.update s.controls c ((s.controls c).map Control.shut) } := by
  unfold Endpoints.closeLive
  split
  · rename_i hlive
    obtain ⟨control, hcontrol, halive⟩ : ∃ control, s.controls c = some control ∧
        control.alive = true := by
      cases h : s.controls c <;> simp_all [Endpoints.isAlive]
    simp [Endpoints.closeControl, Endpoints.setControl, Control.shut, hcontrol, halive]
  · rename_i hdead
    have hsame : (s.controls c).map Control.shut = s.controls c := by
      cases h : s.controls c with
      | none => rfl
      | some control =>
        have halive : control.alive = false := by simpa [Endpoints.isAlive, h] using hdead
        cases control
        simp_all [Control.shut]
    rw [hsame, Function.update_eq_self]

/-- Closing changes only what it closes, and closing twice is closing once. -/
theorem foldl_closeLive (l : List ChanId) (s : Endpoints) :
    l.foldl Endpoints.closeLive s = { s with
      controls := fun c =>
        if c ∈ l then (s.controls c).map Control.shut else s.controls c } := by
  induction l generalizing s with
  | nil => simp
  | cons c₀ l ih =>
    rw [List.foldl_cons, ih, closeLive_eq]
    simp only [Endpoints.mk.injEq, true_and, and_true]
    funext c
    by_cases hc : c = c₀
    · subst hc
      simp [Function.comp_def]
    · simp [hc]

theorem foldl_closeAll (rs : List RegId) (s : Endpoints) :
    rs.foldl Endpoints.closeAll s = { s with
      channels := fun r => if r ∈ rs then [] else s.channels r
      controls := fun c =>
        if ∃ r ∈ rs, c ∈ s.channels r then (s.controls c).map Control.shut else s.controls c } := by
  induction rs generalizing s with
  | nil => simp
  | cons r₀ rs ih =>
    rw [List.foldl_cons, ih, Endpoints.closeAll, foldl_closeLive]
    simp only [Endpoints.mk.injEq, true_and, and_true]
    constructor
    · funext r
      by_cases hr : r = r₀ <;> simp [hr]
    · funext c
      by_cases hown : c ∈ s.channels r₀
      · simp [hown, Function.comp_def]
      · -- the list that was taken did not have the channel
        have hrest : (∃ r ∈ rs, c ∈ Function.update s.channels r₀ [] r) ↔
            ∃ r ∈ rs, c ∈ s.channels r := by
          refine exists_congr fun r => and_congr_right fun _ => ?_
          by_cases hr : r = r₀ <;> simp [hr, hown]
        simp [hown, hrest]

/-- A channel is on the list of its own registration only. -/
structure Owned (s : Endpoints) : Prop where
  listed : ∀ r, ∀ c ∈ s.channels r, ∃ control, s.controls c = some control ∧
    control.registration = r
  known : ∀ c control, s.controls c = some control → c < s.nextChan

theorem ControlStep.registration {active : Bool} {control control' : Control}
    (h : ControlStep active control control') : control'.registration = control.registration := by
  cases h <;> rfl

theorem Owned.setControl (h : Owned s) {control : Control} (control' : Control)
    (hc : s.controls c = some control) (hsame : control'.registration = control.registration) :
    Owned (s.setControl c control') := by
  refine ⟨fun r c' hc' => ?_, fun c' other hother => ?_⟩
  · obtain ⟨old, hold, hreg⟩ := h.listed r c' hc'
    by_cases heq : c' = c
    · subst heq
      cases hc.symm.trans hold
      exact ⟨control', by simp [Endpoints.setControl], hsame.trans hreg⟩
    · exact ⟨old, by simpa [Endpoints.setControl, heq] using hold, hreg⟩
  · by_cases heq : c' = c
    · exact heq ▸ h.known c control hc
    · exact h.known c' other (by simpa [Endpoints.setControl, heq] using hother)

theorem owned_step {a : ChannelLabel} (h : Owned s) (hstep : channelStep s a = some s') :
    Owned s' := by
  cases step_channelStep hstep with
  | load name r hr hafter =>
    subst hafter
    refine ⟨fun r' c hc => ?_, fun c control hcontrol => ?_⟩
    · obtain ⟨old, hold, hreg⟩ := h.listed r' c hc
      have hne : c ≠ s.nextChan := Nat.ne_of_lt (h.known c old hold)
      exact ⟨old, by simpa [Endpoints.setControl, hne] using hold, hreg⟩
    · by_cases heq : c = s.nextChan
      · exact heq ▸ Nat.lt_succ_self _
      · exact Nat.lt_succ_of_lt
          (h.known c control (by simpa [Endpoints.setControl, heq] using hcontrol))
  | track c control hcontrol hloaded hafter =>
    subst hafter
    have hset := h.setControl { control with creation := .tracked } hcontrol rfl
    refine ⟨fun r c' hc' => ?_, hset.known⟩
    by_cases hr : r = control.registration
    · subst hr
      simp only [Function.update_self, List.mem_append, List.mem_filter,
        List.mem_singleton] at hc'
      rcases hc' with ⟨hmem, -⟩ | rfl
      · exact hset.listed _ c' hmem
      · exact ⟨_, Function.update_self _ _ _, rfl⟩
    · exact hset.listed r c' (by simpa [hr, Endpoints.setControl] using hc')
  | control c control control' hcontrol hmove hafter =>
    exact hafter ▸ h.setControl control' hcontrol hmove.registration
  | drain p done rest r hp hafter =>
    subst hafter
    refine ⟨fun r' c hc => ?_, h.known⟩
    by_cases hr : r' = r
    · simp [hr] at hc
    · exact h.listed r' c (by simpa [hr, Endpoints.setFinish] using hc)
  | close p done rest c draining hp hafter =>
    subst hafter
    split
    · rcases closeControl_cases s c with ⟨control, hcontrol, heq⟩ | heq
      · rw [heq]
        exact { h.setControl { control with closed := true } hcontrol rfl with }
      · rw [heq]
        exact { h with }
    · exact { h with }
  | registry a registry hreg hafter => exact hafter ▸ { h with }
  | stay hafter => exact hafter ▸ h
  | finish p pr hp hpr hwaiting hafter => exact hafter ▸ { h with }
  | finished p done hp hafter => exact hafter ▸ { h with }
  | start c control kind hcontrol hafter => exact hafter ▸ { h with }
  | dispatch i target operation hop hafter => exact hafter ▸ { h with }

theorem owned_reachable (hs : channelMachine.Reachable s) : Owned s := by
  refine hs.invariant (P := Owned) ?_ fun _ _ _ => owned_step
  rintro s rfl
  exact ⟨by simp, by simp⟩

theorem grows_exec {as : List ChannelLabel} (hs : channelMachine.Reachable s)
    (hrun : channelMachine.exec s as = some t) : Grows s.registry t.registry := by
  refine (channelMachine.exec_invariant
    (P := fun t => channelMachine.Reachable t ∧ Grows s.registry t.registry)
    (fun t a t' ht hstep => ⟨ht.1.step hstep, ?_⟩) ⟨hs, .refl _⟩ hrun).2
  rcases (step_channelStep hstep).registry_step with hsame | ⟨b, hb⟩
  · exact hsame ▸ ht.2
  · exact ht.2.trans (grows_step (consistent_reachable (registry_reachable ht.1)) hb)

/-! ## The effect of a publication -/

/-- The registration that serves a name. -/
def Endpoints.served (s : Endpoints) (name : String) : Option RegId :=
  (s.registry.snapshots s.registry.current).entries.find? name

/-- The desired binding has the owner and the access of the registration. -/
def Endpoints.unchanged (s : Endpoints) (r : RegId) (binding : PVBinding) : Prop :=
  (s.registry.registrations r).binding.owner = binding.owner ∧
    (s.registry.registrations r).binding.access = binding.access

/-- Nothing happens to the channels of a registration. -/
def Undisturbed (s t : Endpoints) (r : RegId) : Prop :=
  t.channels r = s.channels r ∧ ∀ c control, s.controls c = some control →
    control.registration = r → t.controls c = some control

structure Replaces (desired : PVBindings) (s t : Endpoints) : Prop where
  served : ∀ name, (t.served name).isSome = true ↔ name ∈ desired.keys
  kept : ∀ name r binding, s.served name = some r → desired.find? name = some binding →
    s.unchanged r binding → t.served name = some r ∧ t.isActive r = true ∧ Undisturbed s t r
  closed : ∀ name r, s.served name = some r →
    (∀ binding, desired.find? name = some binding → ¬ s.unchanged r binding) →
    t.isActive r = false ∧ ∀ c ∈ s.channels r, s.isAlive c = true →
      ∃ control, t.controls c = some control ∧ control.closed = true
  /-- In particular another name of the same owner may come or go. -/
  aliases : ∀ name other r binding, s.served name = some r → desired.find? name = some binding →
    s.unchanged r binding → name ≠ other → (s.served other = none ∨ desired.find? other = none) →
    Undisturbed s t r

/-- What `prepare` has built, as the publisher finds it when nobody else has published. -/
theorem replaces_built {s₀ : Impl} {wrappers : Wrappers} {desired : PVBindings} {built : Building}
    {pr : Prepared} (hs₀ : Consistent s₀) (hbuilt : Built s₀ wrappers desired.entries built)
    (hgrows : Grows (afterPrepare s₀ built) s.registry) (horderly : Orderly s.registry)
    (howned : Owned s) (hcurrent : s.registry.current = s₀.current)
    (hretiring : pr.retiring = retiringOf (s₀.snapshots s₀.current) built.next)
    (hnext : pr.next = s₀.nextSnap) (hpublished : Published s.registry t.registry pr)
    (hcontrols : t.controls = fun c => if ∃ r ∈ pr.retiring, c ∈ s.channels r
      then (s.controls c).map Control.shut else s.controls c)
    (hchannels : t.channels = fun r => if r ∈ pr.retiring then [] else s.channels r) :
    Replaces desired s t := by
  have hbefore (name : String) :
      s.served name = (s₀.snapshots s₀.current).entries.find? name := by
    have hlt : s₀.current < s₀.nextSnap + 1 := Nat.lt_succ_of_lt hs₀.stored
    rw [Endpoints.served, hcurrent, hgrows.snapshots _ hlt,
      afterPrepare_snapshot_old (Nat.ne_of_lt hs₀.stored)]
  have hafter (name : String) : t.served name = built.next.entries.find? name := by
    rw [Endpoints.served, hpublished.current, hpublished.snapshots, hnext,
      hgrows.snapshots _ (Nat.lt_succ_self _), afterPrepare_snapshot_new]
  have hbinding {name : String} {r : RegId} (hr : s.served name = some r) :
      (s.registry.registrations r).binding = (s₀.registrations r).binding := by
    have hlt : r < s₀.nextReg := (hs₀.range _ name r ((hbefore name).symm.trans hr)).2
    rw [hgrows.bindings r (lt_of_lt_of_le hlt hbuilt.grows)]
    exact congrArg Registration.binding (hbuilt.old r hlt)
  -- a name keeps its registration exactly if its endpoint is unchanged
  have hkeeps {name : String} {r : RegId} {binding : PVBinding} (hr : s.served name = some r)
      (hdesired : desired.find? name = some binding) :
      t.served name = some r ↔ s.unchanged r binding := by
    have hkept : s₀.kept name binding = some r ↔ s.unchanged r binding := by
      simp only [Impl.kept, ← hbefore, hr, Endpoints.unchanged, hbinding hr,
        sameAccessAssignment_iff, ite_eq_left_iff, reduceCtorEq, imp_false, not_not]
    obtain ⟨r', hr'⟩ := (hbuilt.keys name).mp (desired.mem_keys.mpr ⟨binding, hdesired⟩)
    obtain ⟨binding', hmem, hcase⟩ := hbuilt.entry name r' hr'
    obtain rfl : binding' = binding :=
      Option.some.inj ((desired.mem_entries.mp hmem).symm.trans hdesired)
    rw [← hkept, hafter, hr']
    rcases hcase with hsame | ⟨hnone, hle, -⟩
    · rw [hsame]
    · rw [hnone]
      refine iff_of_false (fun heq => ?_) (by simp)
      have hlt := (hs₀.range _ name r ((hbefore name).symm.trans hr)).2
      exact absurd hlt (Nat.not_lt.mpr (Option.some.inj heq ▸ hle))
  have hstays {name : String} {r : RegId} (hr : s.served name = some r) :
      r ∈ pr.retiring ↔ t.served name ≠ some r := by
    rw [hretiring, mem_retiringOf, hafter]
    refine ⟨?_, fun hne => ⟨name, (hbefore name).symm.trans hr, hne⟩⟩
    rintro ⟨name', hname', hne⟩
    rwa [hs₀.oneName _ _ name name' r ((hbefore name).symm.trans hr) hname']
  have hundisturbed {name : String} {r : RegId} {binding : PVBinding}
      (hr : s.served name = some r) (hdesired : desired.find? name = some binding)
      (hsame : s.unchanged r binding) : r ∉ pr.retiring ∧ Undisturbed s t r := by
    have hout : r ∉ pr.retiring := fun hmem => (hstays hr).mp hmem ((hkeeps hr hdesired).mpr hsame)
    refine ⟨hout, by simp only [hchannels, if_neg hout], fun c control hcontrol hreg => ?_⟩
    -- a channel on the list of a retired registration belongs to that registration
    rw [hcontrols]
    refine (if_neg ?_).trans hcontrol
    rintro ⟨r', hr', hc⟩
    obtain ⟨control', hcontrol', hreg'⟩ := howned.listed r' c hc
    cases hcontrol.symm.trans hcontrol'
    exact hout (hreg ▸ hreg' ▸ hr')
  refine ⟨fun name => ?_, fun name r binding hr hdesired hsame => ?_, fun name r hr hchanged => ?_,
    fun name other r binding hr hdesired hsame _ _ => (hundisturbed hr hdesired hsame).2⟩
  · rw [hafter, Option.isSome_iff_exists]
    exact (hbuilt.keys name).symm
  · obtain ⟨hout, hquiet⟩ := hundisturbed hr hdesired hsame
    refine ⟨(hkeeps hr hdesired).mpr hsame, ?_, hquiet⟩
    rw [Endpoints.isActive, hpublished.others r hout]
    exact (horderly.active ⟨_, horderly.consistent.here, name, hr⟩).mpr ⟨name, hr⟩
  · have hin : r ∈ pr.retiring := by
      refine (hstays hr).mpr fun hserved => ?_
      obtain ⟨binding, hmem, -⟩ := hbuilt.entry name r ((hafter name).symm.trans hserved)
      have hdesired := desired.mem_entries.mp hmem
      exact hchanged binding hdesired ((hkeeps hr hdesired).mp hserved)
    refine ⟨by rw [Endpoints.isActive, hpublished.retired r hin], fun c hc hlive => ?_⟩
    obtain ⟨control, hcontrol, -⟩ := howned.listed r c hc
    refine ⟨control.shut, ?_, ?_⟩
    · rw [hcontrols]
      exact (if_pos ⟨r, hin, hc⟩).trans (by rw [hcontrol]; rfl)
    · have halive : control.alive = true := by simpa [Endpoints.isAlive, hcontrol] using hlive
      simp [Control.shut, halive]

/-- **A publication closes exactly the channels whose endpoint changed.**  Between `prepare` and
    `publish` anything may happen that leaves the preparation fresh. -/
theorem publication_closes {s₀ s : Endpoints} {desired : PVBindings} {wrappers : Wrappers}
    {registry : Impl} {p : PrepId} {as : List ChannelLabel} (hs₀ : channelMachine.Reachable s₀)
    (hprepare : s₀.registry.prepare desired wrappers = .ok (registry, p))
    (hrun : channelMachine.exec { s₀ with registry := registry } as = some s)
    (hidle : s.registry.publisher = .idle) (hfresh : s.registry.fresh p = true) :
    Replaces desired s ({ s with registry := (s.registry.publish p true).1 }.finishAll p) := by
  have hconsistent := consistent_reachable (registry_reachable hs₀)
  obtain ⟨built, hbuilt, rfl, rfl⟩ :=
    prepare_built (fun n r hr => (hconsistent.range _ n r hr).2) hprepare
  have hstart : channelMachine.Reachable { s₀ with registry := afterPrepare s₀.registry built } := by
    refine hs₀.step (a := .registry (.prepare desired wrappers)) ?_
    simp only [channelMachine, channelStep, step, Impl.prepareStep, hprepare, Option.map_some]
    rfl
  have hs := hstart.exec hrun
  have hgrows := grows_exec hstart hrun
  obtain ⟨pr, hpr, hprevious, hpublished⟩ := publish_true hfresh
  have hsame : pr = {
      previous := s₀.registry.current
      next := s₀.registry.nextSnap
      retiring := retiringOf (s₀.registry.snapshots s₀.registry.current) built.next } :=
    Option.some.inj (hpr.symm.trans (hgrows.prepared _ _ List.getElem?_concat_length))
  have hcurrent : s.registry.current = s₀.registry.current := hprevious.symm.trans (by rw [hsame])
  have hlist := publish_prepared s.registry s₀.registry.prepared.length true
  refine replaces_built hconsistent hbuilt hgrows
    ⟨consistent_reachable (registry_reachable hs), hidle⟩ (owned_reachable hs) hcurrent
    (congrArg Prepared.retiring hsame) (congrArg Prepared.next hsame) ?_ ?_ ?_
  · simpa only [Endpoints.finishAll, foldl_closeAll] using hpublished
  · simp only [Endpoints.finishAll, foldl_closeAll, hlist, hpr, Option.map_some, Option.getD_some]
  · simp only [Endpoints.finishAll, foldl_closeAll, hlist, hpr, Option.map_some, Option.getD_some]

/-- A client is connected through the one name of a PV when an alias is added. -/
theorem publication_closes_aliasAdded : ∃ s registry p, channelMachine.Reachable s ∧
    s.served "pv" = some 0 ∧ s.channels 0 = [0] ∧
    s.registry.prepare (FinMap.ofList [("pv", { pv := some 7, owner := some 1 }),
      ("alias", { pv := some 7, owner := some 1 })]) ∅ = .ok (registry, p) ∧
    Replaces (FinMap.ofList [("pv", { pv := some 7, owner := some 1 }),
      ("alias", { pv := some 7, owner := some 1 })]) { s with registry := registry }
      ({ s with registry := (registry.publish p true).1 }.finishAll p) := by
  let one : PVBindings := FinMap.ofList [("pv", { pv := some 7, owner := some 1 })]
  let two : PVBindings := FinMap.ofList [("pv", { pv := some 7, owner := some 1 }),
    ("alias", { pv := some 7, owner := some 1 })]
  let run : List ChannelLabel := [.registry (.prepare one ∅), .registry (.enter 0),
    .registry (.answer true), .registry .store, .load "pv", .track 0]
  have hrun : (channelMachine.exec {} run).isSome = true := by decide
  obtain ⟨s, hs⟩ := Option.isSome_iff_exists.mp hrun
  have hreach : channelMachine.Reachable s := ⟨{}, run, rfl, hs⟩
  obtain ⟨hserved, hlist, hcheck⟩ : s.served "pv" = some 0 ∧ s.channels 0 = [0] ∧
      ((s.registry.prepare two ∅).toOption.any fun out =>
        decide (out.1.publisher = .idle) && out.1.fresh out.2) = true := by
    cases hs
    decide
  cases hprepare : s.registry.prepare two ∅ with
  | error message =>
    rw [hprepare] at hcheck
    cases hcheck
  | ok out =>
    rw [hprepare] at hcheck
    obtain ⟨hidle, hfresh⟩ := Bool.and_eq_true_iff.mp hcheck
    exact ⟨s, out.1, out.2, hreach, hserved, hlist, hprepare,
      publication_closes hreach hprepare (channelMachine.exec_nil _) (of_decide_eq_true hidle) hfresh⟩

end RedisPvxsIoc.PVRegistry
