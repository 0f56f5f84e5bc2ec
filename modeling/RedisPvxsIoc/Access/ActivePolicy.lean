import RedisPvxsIoc.Access.Members
import RedisPvxsIoc.Access.Watcher
import Mathlib.Data.List.TakeWhile

/-!
# The Active Policy

The controller keeps the text of the policy that is active, its fingerprint, the bytes of the
file it came from and the groups that the endpoints need.  They are written by three functions:
`reloadLocked` at startup, on demand and for the watcher, and `activateConfiguration` for a
configuration that was prepared.  The four values belong together after each of them, and a
policy that is refused leaves all of them alone.

## Main results

- `PolicyActive`: the policy that the library has taken, and where it comes from
- `policyTurn_reload`, `policyTurn_pump`: kept by every reload of the policy
- `start_run`: established by a startup
- `PolicyActive.activated`: established again by an accepted configuration
-/

namespace RedisPvxsIoc.Access

open Foundations Config

/-- The active policy is the text that the library has taken last, it defines every group that
    the endpoints need, and it is the expansion of the bytes of one read of the file. -/
structure PolicyActive (lib : MacroLibrary) (c : Controller) : Prop where
  library : c.library = some c.activePolicy
  groups : GroupsDefined c.activePolicy c.configuredAsgs
  derived : DerivedFrom lib c.config c.observedRaw c.activePolicy c.policyFingerprint
  read : ∃ read, (c.config.file, read) ∈ c.reads ∧
    readTextFile c.config.file read = .ok c.observedRaw

/-- The active policy is the one that the world gives for the configuration. -/
def PolicyFrom (lib : MacroLibrary) (w : AccessWorld) (c : Controller) : Prop :=
  ∃ policy, preparePolicy lib w c.config c.configuredAsgs = .ok policy ∧
    c.activePolicy = policy.expanded ∧ c.policyFingerprint = policy.fingerprint ∧
    c.observedRaw = policy.raw

variable {lib : MacroLibrary} {w w' : AccessWorld} {c c' : Controller}

/-- A preparation changes none of the values. -/
theorem PolicyActive.stages (h : PolicyActive lib c) (hc : c.Stages c') : PolicyActive lib c' := by
  have hrest := hc.rest
  have hconfig : c'.config = c.config := (congrArg Controller.config hrest :)
  have hasgs : c'.configuredAsgs = c.configuredAsgs := (congrArg Controller.configuredAsgs hrest :)
  have hactive : c'.activePolicy = c.activePolicy := (congrArg Controller.activePolicy hrest :)
  have hprint : c'.policyFingerprint = c.policyFingerprint :=
    (congrArg Controller.policyFingerprint hrest :)
  have hraw : c'.observedRaw = c.observedRaw := (congrArg Controller.observedRaw hrest :)
  have hlibrary : c'.library = c.library := (congrArg Controller.library hrest :)
  obtain ⟨read, hread, htext⟩ := h.read
  refine ⟨?_, ?_, ?_, read, ?_, ?_⟩
  · rw [hlibrary, hactive]
    exact h.library
  · rw [hactive, hasgs]
    exact h.groups
  · rw [hconfig, hraw, hactive, hprint]
    exact h.derived
  · rw [hconfig]
    exact hc.reads _ hread
  · rw [hconfig, hraw]
    exact htext

/-! ## Reloads of the policy -/

/-- What a reload of the policy may do to the controller: the configuration and the endpoints
    stay. -/
structure PolicyTurn (lib : MacroLibrary) (c c' : Controller) : Prop extends SameEndpoints c c' where
  policy : PolicyActive lib c → PolicyActive lib c'
  config : c'.config = c.config
  configuredAsgs : c'.configuredAsgs = c.configuredAsgs

instance (lib : MacroLibrary) : IsPreorder Controller (PolicyTurn lib) where
  refl c := ⟨refl c, id, rfl, rfl⟩
  trans _ _ _ h h' := ⟨IsTrans.trans _ _ _ h.toSameEndpoints h'.toSameEndpoints,
    h'.policy ∘ h.policy, h'.config.trans h.config, h'.configuredAsgs.trans h.configuredAsgs⟩

/-- A C string ends before its first NUL. -/
theorem cString_eq {text : String} (h : '\x00' ∉ text.toList) : cString text = text := by
  unfold cString
  rw [List.takeWhile_eq_self_iff.mpr, String.ofList_toList]
  intro ch hch
  have hne : ch ≠ '\x00' := fun heq => h (heq ▸ hch)
  simpa using hne

variable {config : AccessConfig} {requiredAsgs : NameSet} {policy : PreparedPolicy}

theorem reloadOutcome_prepared (h : reloadOutcome lib w config requiredAsgs = .ok policy) :
    preparePolicy lib w config requiredAsgs = .ok policy := by
  unfold reloadOutcome at h
  split at h
  · cases h
  · rename_i prepared hprepare
    split at h <;> cases h
    exact hprepare

/-- A policy that was prepared and taken is active. -/
theorem PolicyActive.prepared
    (hprepare : preparePolicy lib w c.config c.configuredAsgs = .ok policy)
    (hlibrary : c.library = some policy.expanded) (hactive : c.activePolicy = policy.expanded)
    (hprint : c.policyFingerprint = policy.fingerprint) (hraw : c.observedRaw = policy.raw)
    (hread : (c.config.file, w.file c.config.file) ∈ c.reads) : PolicyActive lib c := by
  obtain ⟨hderived, hgroups, -, htext⟩ := preparePolicy_ok hprepare
  refine ⟨?_, ?_, ?_, _, hread, ?_⟩
  · rw [hlibrary, hactive]
  · rw [hactive]
    exact hgroups
  · rw [hraw, hactive, hprint]
    exact hderived
  · rw [hraw]
    exact htext

variable {trigger : String}

/-- A refused policy leaves the library alone. -/
theorem Reloaded.untouched {e : String} (h : Reloaded w trigger c (.error e) c') :
    c'.library = c.library ∧ c'.activePolicy = c.activePolicy := by
  cases h
  exact ⟨rfl, rfl⟩

theorem Reloaded.active (houtcome : reloadOutcome lib w c.config c.configuredAsgs = .ok policy)
    (h : Reloaded w trigger c (.ok policy) c') : PolicyActive lib c' ∧ PolicyFrom lib w c' := by
  have hprepare := reloadOutcome_prepared houtcome
  cases h
  refine ⟨PolicyActive.prepared hprepare ?_ rfl rfl rfl (List.mem_cons_self ..),
    policy, hprepare, rfl, rfl, rfl⟩
  exact congrArg some (cString_eq (preparePolicy_ok hprepare).2.2.1)

theorem Reloaded.policyTurn
    (h : Reloaded w trigger c (reloadOutcome lib w c.config c.configuredAsgs) c') :
    PolicyTurn lib c c' := by
  generalize houtcome : reloadOutcome lib w c.config c.configuredAsgs = outcome at h
  cases h with
  | accepted policy =>
    exact ⟨⟨rfl, rfl, rfl, rfl, rfl⟩, fun _ => (Reloaded.active houtcome (.accepted policy)).1,
      rfl, rfl⟩
  | rejected e =>
    refine ⟨⟨rfl, rfl, rfl, rfl, rfl⟩, fun hpolicy => ?_, rfl, rfl⟩
    obtain ⟨read, hread, htext⟩ := hpolicy.read
    exact ⟨hpolicy.library, hpolicy.groups, hpolicy.derived, read, List.mem_cons_of_mem _ hread,
      htext⟩

theorem policyTurn_reload (lib : MacroLibrary) (w : AccessWorld) (trigger : String) :
    Within (PolicyTurn lib) (reload lib w trigger) := by
  intro c
  obtain ⟨c', hreturns, hreload⟩ := reload_run lib w trigger c
  rw [final_of_returns hreturns]
  exact hreload.policyTurn

/-- A change of the status and of what the watcher remembers. -/
theorem policyTurn_notes (hrest : { c' with
      lastStatus := c.lastStatus, lastError := c.lastError, watchStatus := c.watchStatus
      pendingTrigger := c.pendingTrigger, lastWatchPoll := c.lastWatchPoll
      watchCandidateSince := c.watchCandidateSince, watchCandidateRaw := c.watchCandidateRaw
      watchLastAttemptRaw := c.watchLastAttemptRaw
      watchMissingReported := c.watchMissingReported } = c) : PolicyTurn lib c c' := by
  rw [← hrest]
  exact ⟨⟨rfl, rfl, rfl, rfl, rfl⟩, fun h => ⟨h.library, h.groups, h.derived, h.read⟩, rfl, rfl⟩

theorem policyTurn_requestReload (trigger : String) :
    Within (PolicyTurn lib) (requestReload trigger) :=
  within_modify fun _ => policyTurn_notes rfl

theorem policyTurn_pumpTrigger (lib : MacroLibrary) (w : AccessWorld) :
    Within (PolicyTurn lib) (pumpTrigger lib w) := by
  unfold pumpTrigger
  refine within_get_bind fun c => within_set_bind (policyTurn_notes rfl) ?_
  split
  · exact within_pure _
  · exact (policyTurn_reload lib w _).bind fun _ => within_pure _

theorem policyTurn_watchFile (lib : MacroLibrary) (w : AccessWorld) (now : Int)
    (config : AccessConfig) (raw : String) :
    Within (PolicyTurn lib) (watchFile lib w now config raw) := by
  unfold watchFile
  refine within_get_bind fun c => within_set_bind (policyTurn_notes rfl) ?_
  -- every branch only touches the memory of the watcher, but for the reload
  split
  · refine within_modify fun d => ?_
    unfold Controller.watchActive
    split
    · exact policyTurn_notes rfl
    · exact policyTurn_notes rfl
  · split
    · exact within_modify fun _ => policyTurn_notes rfl
    · split
      · exact within_modify fun _ => policyTurn_notes rfl
      · split
        · refine Within.bind (within_modify fun _ => policyTurn_notes rfl) fun _ => ?_
          refine (policyTurn_reload lib w "watch").bind fun _ => ?_
          exact within_modify fun _ => policyTurn_notes rfl
        · exact within_pure _

theorem policyTurn_pumpWatch (lib : MacroLibrary) (w : AccessWorld) (polled : FileRead)
    (now : Int) : Within (PolicyTurn lib) (pumpWatch lib w polled now) := by
  unfold pumpWatch
  refine within_get_bind fun c => ?_
  dsimp only
  split
  · refine within_set_bind (policyTurn_notes rfl) ?_
    refine Within.tryCatch ?_ fun e => ?_
    · exact (within_ofExcept _).bind fun raw => policyTurn_watchFile lib w now _ raw
    · refine within_modify fun d => ?_
      split
      · exact refl d
      · exact policyTurn_notes rfl
  · exact refl c

/-- **The periodic step** keeps the policy active, whatever the files hold. -/
theorem policyTurn_pump (lib : MacroLibrary) (w w' : AccessWorld) (polled : FileRead) (now : Int) :
    Within (PolicyTurn lib) (pump lib w w' polled now) :=
  (policyTurn_pumpTrigger lib w).bind fun _ => policyTurn_pumpWatch lib w' polled now

/-! ## Startup and configurations -/

/-- **A startup** makes a policy active that defines the required groups, or leaves none. -/
theorem start_run (henabled : c.config.enabled = true) (lib : MacroLibrary) (w : AccessWorld)
    (requiredAsgs : NameSet) :
    ∃ o c', Returns (start lib w requiredAsgs) c o c' ∧
      PolicyTurn lib { c with configuredAsgs := requiredAsgs } c' ∧
      (o = .ok () ∧ PolicyActive lib c' ∧ PolicyFrom lib w c' ∨
        (∃ e, o = .error e) ∧ c'.library = c.library ∧ c'.activePolicy = c.activePolicy) := by
  obtain ⟨c', hreturns, hreloaded⟩ := reload_run lib w "startup"
    { c with configuredAsgs := requiredAsgs }
  refine ⟨(reloadOutcome lib w c.config requiredAsgs).map fun _ => (), c', ?_,
    hreloaded.policyTurn, ?_⟩
  · unfold start
    rw [returns_get_bind, if_pos henabled]
    exact returns_bind.mpr ⟨⟨⟩, _, returns_set.mpr rfl, hreturns⟩
  · cases houtcome : reloadOutcome lib w c.config requiredAsgs with
    | ok policy =>
      rw [houtcome] at hreloaded
      exact .inl ⟨rfl, hreloaded.active houtcome⟩
    | error e =>
      rw [houtcome] at hreloaded
      exact .inr ⟨⟨e, rfl⟩, hreloaded.untouched⟩

/-- A prepared configuration, with the world that its policy was read from. -/
structure PreparedFrom (lib : MacroLibrary) (w : AccessWorld) (config : AccessConfig)
    (requiredAsgs : NameSet) (prepared : PreparedConfiguration) (c : Controller) : Prop where
  sameConfig : prepared.config = config
  sameAsgs : prepared.requiredAsgs = requiredAsgs
  policy : preparePolicy lib w config requiredAsgs = .ok prepared.policy
  changed : prepared.policyChanged = (prepared.policy.expanded != c.activePolicy)
  read : (config.file, w.file config.file) ∈ c.reads

theorem returns_prepareConfiguration {prepared : PreparedConfiguration}
    (h : Returns (prepareConfiguration lib w config requiredAsgs) c prepared c') :
    PreparedFrom lib w config requiredAsgs prepared c' := by
  unfold prepareConfiguration preparePolicyCall at h
  obtain ⟨policy, d, hcall, h⟩ := returns_bind.mp h
  obtain ⟨⟨⟩, d', hmodify, hexcept⟩ := returns_bind.mp hcall
  obtain rfl := returns_modify.mp hmodify
  obtain ⟨hpolicy, rfl⟩ := returns_ofExcept.mp hexcept
  rw [returns_get_bind] at h
  split at h
  · obtain ⟨rfl, rfl⟩ := returns_pure.mp h
    exact ⟨rfl, rfl, hpolicy, rfl, List.mem_cons_self ..⟩
  · exact absurd h not_returns_throw

/-- What was prepared stays prepared while something else is prepared. -/
theorem PreparedFrom.stages {prepared : PreparedConfiguration}
    (h : PreparedFrom lib w config requiredAsgs prepared c) (hc : c.Stages c') :
    PreparedFrom lib w config requiredAsgs prepared c' := by
  have hactive : c'.activePolicy = c.activePolicy := (congrArg Controller.activePolicy hc.rest :)
  refine ⟨h.sameConfig, h.sameAsgs, h.policy, ?_, hc.reads _ h.read⟩
  rw [hactive]
  exact h.changed

/-- The library is given a text that has changed. -/
theorem returns_activateConfiguration {prepared : PreparedConfiguration}
    (h : Returns (activateConfiguration w (some prepared)) c (.ok ()) c') :
    c' = { c with library := if prepared.policyChanged then some (cString prepared.policy.expanded)
      else c.library }.activated prepared := by
  obtain ⟨d, hlibrary, hmodify⟩ := returns_andThen.mp h
  obtain rfl := returns_modify.mp hmodify
  cases hchanged : prepared.policyChanged with
  | true =>
    rw [hchanged, if_pos rfl] at hlibrary
    unfold asInitMem at hlibrary
    split at hlibrary
    · cases (returns_pure.mp hlibrary).1
    · obtain ⟨⟨⟩, e, hmodify', hpure⟩ := returns_bind.mp hlibrary
      obtain rfl := returns_modify.mp hmodify'
      rw [(returns_pure.mp hpure).2]
      rfl
  | false =>
    rw [hchanged, if_neg (by decide)] at hlibrary
    rw [(returns_pure.mp hlibrary).2]
    rfl

/-- **An activated configuration** has the policy that was prepared for it, also when the text
    was active before and is not given to the library again. -/
theorem PolicyActive.activated {w' : AccessWorld} {prepared : PreparedConfiguration}
    (hc : PolicyActive lib c) (hprepared : PreparedFrom lib w config requiredAsgs prepared c)
    (h : Returns (activateConfiguration w' (some prepared)) c (.ok ()) c') :
    PolicyActive lib c' := by
  have hc' := returns_activateConfiguration h
  have hlibrary : (if prepared.policyChanged then some (cString prepared.policy.expanded)
      else c.library) = some prepared.policy.expanded := by
    rw [cString_eq (preparePolicy_ok hprepared.policy).2.2.1]
    cases hchanged : prepared.policyChanged with
    | true => rfl
    | false =>
      have hsame : prepared.policy.expanded = c.activePolicy := by
        have hchanged' := hprepared.changed.symm.trans hchanged
        simpa using hchanged'
      rw [if_neg (by decide), hsame]
      exact hc.library
  rw [hlibrary] at hc'
  subst hc'
  refine PolicyActive.prepared (w := w) ?_ rfl rfl rfl rfl ?_
  · show preparePolicy lib w prepared.config prepared.requiredAsgs = _
    rw [hprepared.sameConfig, hprepared.sameAsgs]
    exact hprepared.policy
  · show (prepared.config.file, w.file prepared.config.file) ∈ c.reads
    rw [hprepared.sameConfig]
    exact hprepared.read

end RedisPvxsIoc.Access
