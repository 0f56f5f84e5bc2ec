import RedisPvxsIoc.Access.Channel
import RedisPvxsIoc.Access.Policy
import RedisPvxsIoc.PVRegistry.Calls

/-!
# The Access Controller

Model of the part of `AccessController` in `src/access_control.cpp` that keeps the policy and
the published endpoints: `prepareBindings`, `publishBindings`, `clearBindings`,
`prepareConfiguration`, `activateConfiguration`, `start`, `reload` and `pump`.  Access members
and prepared endpoint sets are heap objects that several owners share, so they live in tables
and are referred to by their index.  The access library itself is one field: the policy text
that it has taken last.  A `reload` and a configuration that is being prepared exclude each
other through `reloadMutex`, so each function is one step.

## Main results

- `Extends`: nothing that existed has changed, and the policy is the same; a preorder
- `within_prepareBindings`, `allOrNothing_publishBindings`
-/

namespace RedisPvxsIoc.Access

open Foundations Config PVRegistry

/-! ## Data -/

structure AccessMember where
  assignment : AccessAssignment := {}
  clients : List ChannelId := []

/-- Endpoints that a caller has prepared and may publish. -/
structure PreparedBindings where
  publication : PrepId
  members : FinMap String MemberId

structure Controller where
  config : AccessConfig := {}
  registry : PVRegistry.Impl := {}
  members : FinMap String MemberId := ∅
  generation : UInt64 := 0
  lastStatus : String := "initializing"
  lastError : String := ""
  policyFingerprint : String := ""
  activePolicy : String := ""
  watchStatus : String := "disabled"
  pendingTrigger : String := ""
  lastWatchPoll : Int := 0
  watchCandidateSince : Int := 0
  observedRaw : String := ""
  watchCandidateRaw : String := ""
  watchLastAttemptRaw : String := ""
  watchMissingReported : Bool := false
  configuredAsgs : NameSet := ∅
  accessMembers : MemberId → AccessMember := fun _ => {}
  nextMember : MemberId := 0
  prepared : List PreparedBindings := []
  /-- The text that the access library has taken last. -/
  library : Option String := none
  /-- Ghost: the reads of policy files, with their paths. -/
  reads : List (String × FileRead) := []

namespace Controller

/-- The registry that the controller owns. -/
def registryPart : Component Controller PVRegistry.Impl :=
  ⟨fun c => c.registry, fun r c => { c with registry := r }, fun _ _ => rfl, fun _ _ _ => rfl⟩

end Controller

/-! ## Endpoints -/

/-- `std::make_shared<AccessMember>(assignment)` -/
def newMember (w : AccessWorld) (assignment : AccessAssignment) : Effect Controller MemberId := do
  if w.asAddMember assignment.asg then
    let c ← get
    set { c with
      accessMembers := Function.update c.accessMembers c.nextMember { assignment := assignment }
      nextMember := c.nextMember + 1 }
    return c.nextMember
  else throw ("failed to add access member for ASG '" ++ assignment.asg ++ "'")

/-- The member that is taken over for a desired binding. -/
def keptMember (existing : PVBindings) (previous : FinMap String MemberId) (name : String)
    (binding : PVBinding) : Option MemberId :=
  match existing.find? name, previous.find? name with
  | some before, some member =>
    if before.owner = binding.owner ∧ sameAccessAssignment before.access binding.access then
      some member
    else none
  | _, _ => none

/-- One turn of the loop of `prepareBindings`. -/
def prepareMember (w : AccessWorld) (existing : PVBindings) (previous : FinMap String MemberId)
    (members : FinMap String MemberId) (entry : String × PVBinding) :
    Effect Controller (FinMap String MemberId) :=
  match keptMember existing previous entry.1 entry.2 with
  | some member => return members.emplace entry.1 member
  | none => do
    let member ← newMember w entry.2.access
    return members.emplace entry.1 member

/-- The wrapper of a name captures the member of that name, so the map of members also says
    what the wrappers are. -/
def prepareBindings (w : AccessWorld) (bindings : PVBindings) : Effect Controller Nat := do
  let c ← get
  let members ← bindings.entries.foldlM (prepareMember w c.registry.bindings c.members)
    FinMap.empty
  let publication ← zoom Controller.registryPart (prepareCall bindings members)
  let c ← get
  set { c with prepared := c.prepared ++ [PreparedBindings.mk publication members] }
  return c.prepared.length

/-- `impl_->members.swap(prepared->members)` -/
def Controller.swapMembers (c : Controller) (i : Nat) : Controller :=
  match c.prepared[i]? with
  | none => c
  | some p =>
    { c with members := p.members, prepared := c.prepared.set i { p with members := c.members } }

section Publish

variable {σ : Type} (part : Component σ Controller)

/-- `beforeCommit` may work on a state of which the controller is a component. -/
def publishBindings (i : Nat) (beforeCommit : Effect σ Outcome) : Effect σ Outcome := do
  match (part.get (← get)).prepared[i]? with
  | none => return .error "invalid prepared endpoints"
  | some p =>
    publishCall (part.comp Controller.registryPart) p.publication
      (andThen beforeCommit (modify fun s => part.set ((part.get s).swapMembers i) s))

end Publish

/-- Without a callback. -/
def noCallback {σ : Type} : Effect σ Outcome := pure (.ok ())

def clearBindings (w : AccessWorld) : Effect Controller Unit := do
  let i ← prepareBindings w ∅
  match ← publishBindings Component.self i noCallback with
  | .ok () => return ()
  | .error e => throw e

/-! ## Policies -/

/-- What `c_str()` shows of a string. -/
def cString (text : String) : String := String.ofList (text.toList.takeWhile (· ≠ '\x00'))

/-- `asInitMem(text.c_str(), nullptr)` with the message that its callers make of a failure. -/
def asInitMem (w : AccessWorld) (text : String) : Effect Controller Outcome :=
  match w.asInitMem (cString text) with
  | some message => return .error ("ACF parse failed: " ++ message)
  | none => do
    modify fun c => { c with library := some (cString text) }
    return .ok ()

/-- `preparePolicy`, with the read recorded. -/
def preparePolicyCall (lib : MacroLibrary) (w : AccessWorld) (config : AccessConfig)
    (requiredAsgs : NameSet) : Effect Controller PreparedPolicy := do
  modify fun c => { c with reads := (config.file, w.file config.file) :: c.reads }
  Foundations.ofExcept (preparePolicy lib w config requiredAsgs)

def watchStatusOf (config : AccessConfig) : String :=
  if config.watch.enabled then "watching " ++ config.file else "disabled"

structure PreparedConfiguration where
  config : AccessConfig
  requiredAsgs : NameSet
  policy : PreparedPolicy
  status : String := "config reload active"
  watchStatus : String
  policyChanged : Bool

def prepareConfiguration (lib : MacroLibrary) (w : AccessWorld) (config : AccessConfig)
    (requiredAsgs : NameSet) : Effect Controller PreparedConfiguration := do
  let policy ← preparePolicyCall lib w config requiredAsgs
  let c ← get
  if config.enabled = c.config.enabled then
    return {
      config, requiredAsgs, policy
      watchStatus := watchStatusOf config
      policyChanged := policy.expanded != c.activePolicy }
  else throw "access.enabled is immutable after startup"

/-- The swaps after the library's activation. -/
def Controller.activated (c : Controller) (prepared : PreparedConfiguration) : Controller :=
  { c with
    config := prepared.config
    configuredAsgs := prepared.requiredAsgs
    activePolicy := prepared.policy.expanded
    policyFingerprint := prepared.policy.fingerprint
    observedRaw := prepared.policy.raw
    lastStatus := prepared.status
    watchStatus := prepared.watchStatus
    lastError := ""
    watchLastAttemptRaw := ""
    watchCandidateRaw := ""
    watchMissingReported := false
    generation := c.generation + 1 }

/-- A prepared configuration belongs to the controller that made it and holds its
    `reloadMutex`, so only its absence is an error. -/
def activateConfiguration (w : AccessWorld) (prepared : Option PreparedConfiguration) :
    Effect Controller Outcome :=
  match prepared with
  | none => return .error "invalid prepared access configuration"
  | some prepared =>
    andThen (if prepared.policyChanged then asInitMem w prepared.policy.expanded else noCallback)
      (modify fun c => c.activated prepared)

/-- What `reloadLocked` stores once the library has taken the text. -/
def Controller.reloaded (c : Controller) (trigger : String) (config : AccessConfig)
    (policy : PreparedPolicy) : Controller :=
  { c with
    activePolicy := policy.expanded
    policyFingerprint := policy.fingerprint
    observedRaw := policy.raw
    watchLastAttemptRaw := ""
    watchMissingReported := false
    lastStatus := trigger ++ " reload active"
    lastError := ""
    watchStatus := watchStatusOf config
    generation := c.generation + 1 }

def reloadLocked (lib : MacroLibrary) (w : AccessWorld) (trigger : String) (config : AccessConfig)
    (requiredAsgs : NameSet) : Effect Controller Outcome :=
  tryCatch
    (do
      let policy ← preparePolicyCall lib w config requiredAsgs
      match ← asInitMem w policy.expanded with
      | .error e => throw e
      | .ok () =>
        modify fun c => c.reloaded trigger config policy
        return .ok ())
    fun e => do
      modify fun c => { c with lastStatus := trigger ++ " reload failed", lastError := e }
      return .error e

def reload (lib : MacroLibrary) (w : AccessWorld) (trigger : String) :
    Effect Controller Outcome := do
  let c ← get
  reloadLocked lib w trigger c.config c.configuredAsgs

def start (lib : MacroLibrary) (w : AccessWorld) (requiredAsgs : NameSet) :
    Effect Controller Outcome := do
  let c ← get
  if c.config.enabled then
    set { c with configuredAsgs := requiredAsgs }
    reload lib w "startup"
  else return .error "access controller requires enabled configuration"

def requestReload (trigger : String) : Effect Controller Unit :=
  modify fun c => { c with pendingTrigger := trigger }

/-! ## The periodic step -/

/-- The reload that was asked for. -/
def pumpTrigger (lib : MacroLibrary) (w : AccessWorld) : Effect Controller Unit := do
  let c ← get
  set { c with pendingTrigger := "" }
  if c.pendingTrigger = "" then return ()
  else
    let _ ← reload lib w c.pendingTrigger
    return ()

/-- The file is the one that is active. -/
def Controller.watchActive (c : Controller) (recoveredMissing : Bool) : Controller :=
  if recoveredMissing ∨ c.lastStatus = "watch reload failed" then
    { c with
      lastStatus := "watch active", lastError := "", watchCandidateRaw := ""
      watchLastAttemptRaw := "" }
  else { c with watchCandidateRaw := "", watchLastAttemptRaw := "" }

/-- The body of the watcher's `try`; `raw` is what it has read itself, `reload` reads again. -/
def watchFile (lib : MacroLibrary) (w : AccessWorld) (now : Int) (config : AccessConfig)
    (raw : String) : Effect Controller Unit := do
  let c ← get
  set { c with watchMissingReported := false }
  if raw = c.observedRaw then modify fun d => d.watchActive c.watchMissingReported
  else if raw = c.watchLastAttemptRaw then modify fun d => { d with watchCandidateRaw := "" }
  else if raw ≠ c.watchCandidateRaw then
    modify fun d => { d with watchCandidateRaw := raw, watchCandidateSince := now }
  else if (config.watch.settleMs : Int) ≤ now - c.watchCandidateSince then do
    modify fun d => { d with watchLastAttemptRaw := raw }
    let _ ← reload lib w "watch"
    modify fun d => { d with watchCandidateRaw := "" }
  else return ()

/-- The handler of the watcher's `try`. -/
def watchFailed (e : String) : Effect Controller Unit :=
  modify fun c =>
    if c.watchMissingReported then c
    else { c with lastStatus := "watch reload failed", lastError := e, watchMissingReported := true }

/-- The watcher; `polled` is its own read of the file. -/
def pumpWatch (lib : MacroLibrary) (w : AccessWorld) (polled : FileRead) (now : Int) :
    Effect Controller Unit := do
  let c ← get
  let config := c.config
  if config.watch.enabled ∧ (config.watch.intervalMs : Int) ≤ now - c.lastWatchPoll then
    set { c with lastWatchPoll := now }
    tryCatch
      (do
        let raw ← Foundations.ofExcept (readTextFile config.file polled)
        watchFile lib w now config raw)
      watchFailed
  else return ()

/-- Refreshing host groups and draining dirty channels changes no field of the controller.
    The two reloads may meet different worlds. -/
def pump (lib : MacroLibrary) (w w' : AccessWorld) (polled : FileRead) (now : Int) :
    Effect Controller Unit := do
  pumpTrigger lib w
  pumpWatch lib w' polled now

/-! ## Extension -/

/-- No registration, snapshot or member that existed has changed, and nothing else has but the
    objects that callers hold. -/
structure Controller.Extends (c c' : Controller) : Prop where
  registry : PVRegistry.Extends c.registry c'.registry
  nextMember : c.nextMember ≤ c'.nextMember
  accessMembers : ∀ m, m < c.nextMember → c'.accessMembers m = c.accessMembers m
  rest : { c' with
    registry := c.registry, accessMembers := c.accessMembers, nextMember := c.nextMember
    prepared := c.prepared, reads := c.reads } = c

instance : IsPreorder Controller Controller.Extends where
  refl c := ⟨refl c.registry, le_refl _, fun _ _ => rfl, rfl⟩
  trans c _ _ h h' :=
    { registry := IsTrans.trans _ _ _ h.registry h'.registry
      nextMember := h.nextMember.trans h'.nextMember
      accessMembers := fun m hm =>
        (h'.accessMembers m (lt_of_lt_of_le hm h.nextMember)).trans (h.accessMembers m hm)
      rest := (congrArg (fun c' : Controller => { c' with
        registry := c.registry, accessMembers := c.accessMembers, nextMember := c.nextMember
        prepared := c.prepared, reads := c.reads }) h'.rest).trans h.rest }

theorem returns_newMember {w : AccessWorld} {assignment : AccessAssignment} {c c' : Controller}
    {m : MemberId} (h : Returns (newMember w assignment) c m c') :
    m = c.nextMember ∧ c' = { c with
      accessMembers := Function.update c.accessMembers c.nextMember { assignment := assignment }
      nextMember := c.nextMember + 1 } := by
  unfold newMember at h
  split at h
  · cases h
    exact ⟨rfl, rfl⟩
  · exact absurd h not_returns_throw

theorem within_newMember (w : AccessWorld) (assignment : AccessAssignment) :
    Within Controller.Extends (newMember w assignment) := by
  unfold newMember
  split
  · intro c
    exact ⟨refl c.registry, Nat.le_succ _,
      fun m hm => Function.update_of_ne (Nat.ne_of_lt hm) _ _, rfl⟩
  · exact within_throw _

theorem within_prepareMember (w : AccessWorld) (existing : PVBindings)
    (previous members : FinMap String MemberId) (entry : String × PVBinding) :
    Within Controller.Extends (prepareMember w existing previous members entry) := by
  unfold prepareMember
  split
  · exact within_pure _
  · exact (within_newMember w _).bind fun _ => within_pure _

theorem within_prepareBindings (w : AccessWorld) (bindings : PVBindings) :
    Within Controller.Extends (prepareBindings w bindings) := by
  unfold prepareBindings
  refine within_get.bind fun c => ?_
  refine (Within.foldlM (fun acc x => within_prepareMember w _ _ acc x) _ _).bind fun members => ?_
  refine Within.bind ?_ fun publication => ?_
  · refine (within_prepareCall bindings members).zoom ?_
    intro c r hr
    exact ⟨hr, le_refl _, fun _ _ => rfl, rfl⟩
  · intro c
    exact ⟨refl c.registry, le_refl _, fun _ _ => rfl, rfl⟩

theorem allOrNothing_asInitMem {R : Controller → Controller → Prop} [IsPreorder Controller R]
    (w : AccessWorld) (text : String) : AllOrNothing R (asInitMem w text) := by
  unfold asInitMem
  split
  · exact (within_pure _).allOrNothing
  · intro c hfail
    exact absurd rfl (hfail { c with library := some (cString text) })

/-- A refused activation has changed nothing. -/
theorem allOrNothing_activateConfiguration {R : Controller → Controller → Prop}
    [IsPreorder Controller R] (w : AccessWorld) (prepared : Option PreparedConfiguration) :
    AllOrNothing R (activateConfiguration w prepared) := by
  unfold activateConfiguration
  split
  · exact (within_pure _).allOrNothing
  · refine AllOrNothing.andThen ?_ fun c => ⟨_, returns_modify.mpr rfl⟩
    split
    · exact allOrNothing_asInitMem w _
    · exact (within_pure _).allOrNothing

section Publish

variable {σ : Type} {part : Component σ Controller} {i : Nat} {beforeCommit : Effect σ Outcome}

/-- A publication that does not report success has changed only what its callback changed while
    refusing. -/
theorem allOrNothing_publishBindings {R : σ → σ → Prop} [IsPreorder σ R]
    (h : AllOrNothing R beforeCommit) : AllOrNothing R (publishBindings part i beforeCommit) := by
  unfold publishBindings
  refine AllOrNothing.bind within_get fun s => ?_
  split
  · exact (within_pure _).allOrNothing
  · exact allOrNothing_publishCall (h.andThen fun s => ⟨_, returns_modify.mpr rfl⟩)

/-- The controller after an accepted publication. -/
def Controller.afterPublish (c : Controller) (i : Nat) (p : PrepId) : Controller :=
  { c.swapMembers i with registry := ((c.swapMembers i).registry.publish p true).1 }

theorem afterPublish_eq {c : Controller} {p : PreparedBindings} (hp : c.prepared[i]? = some p) :
    c.afterPublish i p.publication = { c with
      registry := (c.registry.publish p.publication true).1
      members := p.members
      prepared := c.prepared.set i { p with members := c.members } } := by
  unfold Controller.afterPublish Controller.swapMembers
  rw [hp]

theorem returns_publishBindings {s s' : σ} :
    Returns (publishBindings part i beforeCommit) s (.ok ()) s' ↔
      ∃ p, (part.get s).prepared[i]? = some p ∧ (part.get s).registry.fresh p.publication = true ∧
        ∃ t, Returns beforeCommit s (.ok ()) t ∧
          s' = part.set ((part.get t).afterPublish i p.publication) t := by
  unfold publishBindings
  rw [returns_get_bind]
  constructor
  · intro h
    split at h
    · cases (returns_pure.mp h).1
    · rename_i p hp
      obtain ⟨hfresh, t, ht, rfl⟩ := returns_publishCall.mp h
      obtain ⟨u, hu, hswap⟩ := returns_andThen.mp ht
      obtain rfl := returns_modify.mp hswap
      refine ⟨p, hp, hfresh, u, hu, ?_⟩
      simp only [Component.comp, Controller.registryPart, part.get_set, part.set_set]
      rfl
  · rintro ⟨p, hp, hfresh, t, ht, rfl⟩
    rw [hp]
    refine returns_publishCall.mpr ⟨hfresh, _, returns_andThen.mpr ⟨t, ht, returns_modify.mpr rfl⟩, ?_⟩
    simp only [Component.comp, Controller.registryPart, part.get_set, part.set_set]
    rfl

end Publish

end RedisPvxsIoc.Access
