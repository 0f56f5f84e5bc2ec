import RedisPvxsIoc.Access.Channel

/-!
# Cached Rights Against the Active Policy

A channel reads the access of its clients, stores what it read, and only then becomes visible
to `recomputeAllClients`.  An activation that changes one of its clients in between is lost: the
callback finds nothing to clear or clears what nobody will compute again, and the recomputation
that follows does not know the channel.  `stale_rights_survive_activation` is such a run.

Without a change in that window cached rights are current whenever no thread is at work.  The
invariant says of each channel that what it has read or stored is what its clients hold now, or
that the application thread still has to come to it.

## Main results

- `stale_rights_survive_activation`
- `coherent_step`, `coherent_of_guarded`
- `cached_rights_current`
-/

namespace RedisPvxsIoc.Access

open Foundations

variable {Policy Identity : Type} {grants : Policy → Identity → ClientAccess}

/-! ## The property and the window -/

/-- No creation or activation is in progress and the dirty list has been drained. -/
def Quiescent (s : State Policy Identity) : Prop :=
  s.pump = .idle ∧ s.dirty = [] ∧ s.recomputeNeeded = false ∧
    ∀ ch ∈ s.channels, ch.stage = .added ∨ ch.stage = .dead

instance (s : State Policy Identity) : Decidable (Quiescent s) :=
  inferInstanceAs (Decidable (_ ∧ _ ∧ _ ∧ _))

/-- The cached rights of every live channel of a published name are those that its clients hold
    together under the policy in force. -/
def RightsCurrent (grants : Policy → Identity → ClientAccess) (s : State Policy Identity) : Prop :=
  ∀ ch ∈ s.channels, ch.stage = .added → ch.member ∈ s.published →
    ch.rights = Rights.aggregate (ch.identities.map (grants s.policy))

instance (s : State Policy Identity) : Decidable (RightsCurrent grants s) :=
  inferInstanceAs (Decidable (∀ ch ∈ s.channels, _))

/-- From the first check of a client to `addClient`. -/
def Creation.inWindow : Creation → Bool
  | .recomputing (.reading 0 .get _) => false
  | .recomputing _ | .computed | .initialized => true
  | _ => false

def State.inWindow (s : State Policy Identity) (c : ChannelId) : Bool :=
  (s.channels[c]?).any fun ch => ch.stage.inWindow

/-- No client of a channel in its window changes its access, and no callback runs for such a
    channel. -/
def State.outsideWindow (s : State Policy Identity) : Label Policy Identity → Bool
  | .change c _ => !s.inWindow c
  | .advance _ =>
    match s.pump with
    | .callback c _ => !s.inWindow c
    | _ => true
  | _ => true

/-! ## A revoked client that keeps its rights -/

/-- Policy `true` grants everything to everybody, policy `false` nothing. -/
def openOrClosed (policy : Bool) (_ : Unit) : ClientAccess :=
  { get := policy, put := policy, trap := false }

/-- A client connects under the open policy.  Between its checks and the store of their result
    the closed policy is activated. -/
def activationDuringCreation : List (Label Bool Unit) :=
  [.connect 0 [()]] ++
  -- add the client, register its callback, check it
  List.replicate 8 (.create 0) ++
  [.asInitMem false, .change 0 0] ++
  -- the callback: clear, save, find the channel not initialized
  List.replicate 3 (.advance false) ++
  [.finishInit] ++
  -- recompute the clients of all members: there are none yet
  List.replicate 3 (.advance false) ++
  -- store, clear, take, initialized, add
  List.replicate 5 (.create 0) ++
  [.drainDirty, .advance false]

/-- **Cached rights outlive the policy that granted them**: at the end of the run no thread is at
    work, the policy in force grants nothing, and the channel may write. -/
theorem stale_rights_survive_activation :
    ∃ s : State Bool Unit, (machine openOrClosed).Reachable s ∧ Quiescent s ∧
      s.policy = false ∧ s.channels.map Channel.rights = [{ read := true, write := true }] ∧
      ¬RightsCurrent openOrClosed s := by
  have hrun : ((machine openOrClosed).exec { policy := true, published := [0] }
      activationDuringCreation).map (fun s => decide (Quiescent s ∧ s.policy = false ∧
        s.channels.map Channel.rights = [{ read := true, write := true }] ∧
        ¬RightsCurrent openOrClosed s)) = some true := by
    decide
  obtain ⟨s, hs, hbad⟩ := Option.map_eq_some_iff.mp hrun
  exact ⟨s, ⟨_, _, ⟨true, [0], rfl⟩, hs⟩, of_decide_eq_true hbad⟩

/-! ## What a recomputation has seen -/

theorem Rights.or_assoc (a b c : Rights) : (a.or b).or c = a.or (b.or c) := by
  simp [Rights.or, Bool.or_assoc]

theorem Rights.aggregate_concat (clients : List ClientAccess) (a : ClientAccess) :
    Rights.aggregate (clients ++ [a]) = (Rights.aggregate clients).or (.ofClient a) := by
  simp [Rights.aggregate]

/-- The result so far of a recomputation that stands at client `i`. -/
def ReadSoFar (access : List ClientAccess) (i : Nat) (next : Rights) : Probe → Prop
  | .get => next = Rights.aggregate (access.take i)
  | .put => ∃ a, access[i]? = some a ∧
      next = (Rights.aggregate (access.take i)).or { read := a.get }
  | .trap => ∃ a, access[i]? = some a ∧ a.put = true ∧
      next = (Rights.aggregate (access.take i)).or { read := a.get, write := true }

/-- What a recomputation of `ch` has read is what the clients hold, and so is what it has
    stored. -/
def Recompute.Ok (ch : Channel Identity) : Recompute → Prop
  | .reading i probe next => ReadSoFar ch.access i next probe
  | .storing next => next = Rights.aggregate ch.access
  | .clearing _ _ | .taking _ _ => ch.rights = Rights.aggregate ch.access

variable {ch ch' : Channel Identity} {r r' : Recompute}

theorem Recompute.ok_start (ch : Channel Identity) : Recompute.start.Ok ch := rfl

/-- A recomputation touches neither the clients nor the creation, and the rights it stores are
    those that the clients hold. -/
theorem recompute_frame (h : r.Ok ch) (closeOnChange : Bool) :
    ∃ rights dirty before closed, (r.step ch closeOnChange).1 =
      { ch with
        rights := rights, dirty := dirty, rightsBeforeChange := before, closed := closed } ∧
      (rights = ch.rights ∨ rights = Rights.aggregate ch.access) := by
  cases r with
  | reading i probe next =>
    refine ⟨ch.rights, ch.dirty, ch.rightsBeforeChange, ch.closed, ?_, .inl rfl⟩
    cases probe <;> simp only [Recompute.step]
    · split <;> rfl
    · split
      · rfl
      · split <;> rfl
    · split <;> rfl
  | storing next => exact ⟨next, _, _, _, rfl, .inr h⟩
  | clearing next current => exact ⟨_, _, _, _, rfl, .inl rfl⟩
  | taking next current => exact ⟨_, _, _, _, rfl, .inl rfl⟩

theorem aggregate_take_succ {access : List ClientAccess} {i : Nat} {a : ClientAccess}
    (h : access[i]? = some a) :
    Rights.aggregate (access.take (i + 1)) =
      (Rights.aggregate (access.take i)).or (.ofClient a) := by
  rw [List.take_add_one, h, Option.toList_some, Rights.aggregate_concat]

/-- One step of a recomputation: it stays true to the clients. -/
theorem recompute_ok {closeOnChange : Bool} (h : r.Ok ch)
    (hstep : r.step ch closeOnChange = (ch', some r')) : r'.Ok ch' := by
  cases r with
  | reading i probe next =>
    cases probe with
    | get =>
      have hnext : next = Rights.aggregate (ch.access.take i) := h
      simp only [Recompute.step] at hstep
      split at hstep <;> cases hstep
      · -- the loop is over
        rename_i hnone
        have hlength : ch.access.length ≤ i := List.getElem?_eq_none_iff.mp hnone
        rw [List.take_of_length_le hlength] at hnext
        exact hnext
      · rename_i a ha
        exact ⟨a, ha, by rw [hnext]⟩
    | put =>
      obtain ⟨a, ha, hnext⟩ := h
      simp only [Recompute.step, ha] at hstep
      split at hstep <;> cases hstep
      · rename_i hput
        refine ⟨a, ha, hput, ?_⟩
        rw [hnext, Rights.or_assoc]
        simp [Rights.or]
      · rename_i hput
        have hfalse : a.put = false := by simpa using hput
        show next = _
        rw [aggregate_take_succ ha, hnext, Rights.ofClient, hfalse]
        rfl
    | trap =>
      obtain ⟨a, ha, hput, hnext⟩ := h
      simp only [Recompute.step, ha] at hstep
      cases hstep
      show next.or _ = _
      rw [aggregate_take_succ ha, hnext, Rights.ofClient, hput, Rights.or_assoc]
      simp [Rights.or]
  | storing next =>
    cases hstep
    exact h
  | clearing next current =>
    cases hstep
    exact h
  | taking next current => cases hstep

/-- A recomputation that returns leaves the rights that the clients hold. -/
theorem recompute_done {closeOnChange : Bool} (h : r.Ok ch)
    (hstep : r.step ch closeOnChange = (ch', none)) : ch'.rights = Rights.aggregate ch'.access := by
  cases r with
  | reading i probe next =>
    cases probe <;> simp only [Recompute.step] at hstep
    · split at hstep <;> cases hstep
    · split at hstep
      · cases hstep
      · split at hstep <;> cases hstep
    · split at hstep <;> cases hstep
  | storing next => cases hstep
  | clearing next current => cases hstep
  | taking next current =>
    cases hstep
    exact h

/-! ## The invariant -/

namespace Creation

/-- All clients have been added. -/
def complete : Creation → Bool
  | .adding | .dead => false
  | _ => true

/-- The stages in which `initialized` is set, or was. -/
def visible : Creation → Bool
  | .initialized | .added | .dead => true
  | _ => false

end Creation

/-- What the creation of a channel has read or stored is what its clients hold. -/
def Channel.WindowOk (ch : Channel Identity) : Prop :=
  match ch.stage with
  | .recomputing r => r.Ok ch
  | .computed | .initialized => ch.rights = Rights.aggregate ch.access
  | _ => True

/-- The jobs will come to channel `i` of member `m`. -/
def jobsDue (todo : List Job) (i : ChannelId) (m : MemberId) : Prop :=
  .member m ∈ todo ∨ .held i ∈ todo ∨ .weak i ∈ todo

namespace Pump

/-- The application thread will recompute channel `i` of the published member `m`. -/
def Due (i : ChannelId) (m : MemberId) : Pump → Prop
  | .idle => False
  | .changing | .callback _ _ | .activated => True
  | .working todo => jobsDue todo i m
  | .recomputing c _ todo => c = i ∨ jobsDue todo i m

/-- The thread is not inside `asInitMem`. -/
def settled : Pump → Bool
  | .changing | .callback _ _ => false
  | _ => true

/-- The channels that the thread refers to by name. -/
def targets : Pump → List ChannelId
  | .callback c .marking => [c]
  | .working todo => todo.filterMap fun job =>
      match job with
      | .held c | .weak c => some c
      | .member _ => none
  | .recomputing c _ todo => c :: todo.filterMap fun job =>
      match job with
      | .held c | .weak c => some c
      | .member _ => none
  | _ => []

end Pump

/-- Channel `i` as the other threads find it. -/
structure ChannelOk (grants : Policy → Identity → ClientAccess) (policy : Policy)
    (published : List MemberId) (pump : Pump) (i : ChannelId) (ch : Channel Identity) : Prop where
  settled : pump.settled = true → ch.settled grants policy = true
  bounded : ch.access.length ≤ ch.identities.length
  full : ch.stage.complete = true → ch.access.length = ch.identities.length
  visible : ch.initialized = true → ch.stage.visible = true
  window : ch.WindowOk
  added : ch.stage = .added → ch.member ∈ published →
    ch.rights = Rights.aggregate ch.access ∨ pump.Due i ch.member
  recomputed : ∀ r todo, pump = .recomputing i r todo → r.Ok ch

/-- Every channel is as it should be, and the application thread refers to channels whose
    creation has come far enough. -/
structure Coherent (grants : Policy → Identity → ClientAccess) (s : State Policy Identity) :
    Prop where
  channels : ∀ i ch, s.channels[i]? = some ch →
    ChannelOk grants s.policy s.published s.pump i ch
  targets : ∀ i, i ∈ s.dirty ∨ i ∈ s.pump.targets →
    ∃ ch, s.channels[i]? = some ch ∧ ch.stage.visible = true

variable {s s' : State Policy Identity} {c : ChannelId}

/-- Outside its window a channel has read and stored nothing that could be out of date. -/
theorem windowOk_of_not_inWindow (h : ch.WindowOk) (hout : ch.stage.inWindow = false)
    (hstage : ch'.stage = ch.stage) : ch'.WindowOk := by
  unfold Channel.WindowOk at h ⊢
  rw [hstage]
  cases hs : ch.stage with
  | recomputing r =>
    rw [hs] at h hout
    cases r with
    | reading i probe next =>
      cases i with
      | zero =>
        cases probe with
        | get => exact h
        | put => cases hout
        | trap => cases hout
      | succ i => cases hout
    | storing next => cases hout
    | clearing next current => cases hout
    | taking next current => cases hout
  | computed =>
    rw [hs] at hout
    cases hout
  | initialized =>
    rw [hs] at hout
    cases hout
  | _ => trivial

/-- A step of one channel: the others only see what became of the application thread. -/
theorem Coherent.set (h : Coherent grants s) {ch₀ : Channel Identity}
    (hch : s.channels[c]? = some ch₀) (hchannels : s'.channels = s.channels.set c ch)
    (hok : ChannelOk grants s'.policy s'.published s'.pump c ch)
    (hothers : ∀ i ch, i ≠ c → s.channels[i]? = some ch →
      ChannelOk grants s.policy s.published s.pump i ch →
      ChannelOk grants s'.policy s'.published s'.pump i ch)
    (hvisible : ch₀.stage.visible = true → ch.stage.visible = true)
    (htargets : ∀ i, i ∈ s'.dirty ∨ i ∈ s'.pump.targets →
      (i ∈ s.dirty ∨ i ∈ s.pump.targets) ∨ (i = c ∧ ch.stage.visible = true)) :
    Coherent grants s' := by
  have hlt : c < s.channels.length := (List.getElem?_eq_some_iff.mp hch).1
  have hself : s'.channels[c]? = some ch := by
    rw [hchannels]
    simp [hlt]
  have hother : ∀ i, i ≠ c → s'.channels[i]? = s.channels[i]? := by
    intro i hi
    rw [hchannels]
    exact List.getElem?_set_ne (Ne.symm hi)
  refine ⟨?_, ?_⟩
  · intro i chi hi
    by_cases hic : i = c
    · subst hic
      rw [hself] at hi
      cases hi
      exact hok
    · rw [hother i hic] at hi
      exact hothers i chi hic hi (h.channels i chi hi)
  · intro i hi
    by_cases hic : i = c
    · subst hic
      refine ⟨ch, hself, ?_⟩
      rcases htargets i hi with hold | ⟨-, hnew⟩
      · obtain ⟨chi, hchi, hvis⟩ := h.targets i hold
        rw [hch] at hchi
        cases hchi
        exact hvisible hvis
      · exact hnew
    · rcases htargets i hi with hold | ⟨hnew, -⟩
      · rw [hother i hic]
        exact h.targets i hold
      · exact absurd hnew hic

/-- A step of the application thread that touches no channel. -/
theorem Coherent.pump_only (h : Coherent grants s) (hchannels : s'.channels = s.channels)
    (hok : ∀ i ch, s.channels[i]? = some ch → ChannelOk grants s.policy s.published s.pump i ch →
      ChannelOk grants s'.policy s'.published s'.pump i ch)
    (htargets : ∀ i, i ∈ s'.dirty ∨ i ∈ s'.pump.targets →
      (i ∈ s.dirty ∨ i ∈ s.pump.targets) ∨
        ∃ ch, s.channels[i]? = some ch ∧ ch.stage.visible = true) : Coherent grants s' := by
  refine ⟨?_, ?_⟩
  · intro i chi hi
    rw [hchannels] at hi
    exact hok i chi hi (h.channels i chi hi)
  · intro i hi
    rw [hchannels]
    rcases htargets i hi with hold | hnew
    · exact h.targets i hold
    · exact hnew

variable {i : ChannelId} {policy : Policy} {published : List MemberId}

/-- What a channel has to know of the application thread when that moves on. -/
theorem ChannelOk.pump {pump pump' : Pump} (h : ChannelOk grants policy published pump i ch)
    (hsettled : pump'.settled = true → pump.settled = true)
    (hdue : ch.stage = .added → ch.member ∈ published → pump.Due i ch.member →
      ch.rights = Rights.aggregate ch.access ∨ pump'.Due i ch.member)
    (hrecompute : ∀ r todo, pump' = .recomputing i r todo → r.Ok ch) :
    ChannelOk grants policy published pump' i ch := by
  refine ⟨fun hs => h.settled (hsettled hs), h.bounded, h.full, h.visible, h.window, ?_,
    hrecompute⟩
  intro hadded hpublished
  rcases h.added hadded hpublished with hcurrent | hd
  · exact .inl hcurrent
  · exact hdue hadded hpublished hd

/-- Inside `asInitMem` every channel is due, and none is being recomputed. -/
theorem Pump.due_of_inside {pump : Pump} (h : pump.settled = false) (i : ChannelId)
    (m : MemberId) : pump.Due i m := by
  cases pump <;> trivial

theorem Pump.ne_recomputing_of_inside {pump : Pump} (h : pump.settled = false) (i : ChannelId)
    (r : Recompute) (todo : List Job) : pump ≠ .recomputing i r todo := by
  rintro rfl
  cases h

/-- A channel outside its window may be touched while the thread is inside `asInitMem`. -/
theorem ChannelOk.touched {pump pump' : Pump} (h : ChannelOk grants policy published pump i ch)
    (hinside : pump'.settled = false) (hout : ch.stage.inWindow = false)
    (hlength : ch'.access.length = ch.access.length) (hidentities : ch'.identities = ch.identities)
    (hstage : ch'.stage = ch.stage) (hinit : ch'.initialized = ch.initialized) :
    ChannelOk grants policy published pump' i ch' where
  settled := by
    rw [hinside]
    exact nofun
  bounded := by
    rw [hlength, hidentities]
    exact h.bounded
  full := by
    rw [hlength, hidentities, hstage]
    exact h.full
  visible := by
    rw [hinit, hstage]
    exact h.visible
  window := windowOk_of_not_inWindow h.window hout hstage
  added := fun _ _ => .inr (Pump.due_of_inside hinside i _)
  recomputed := fun r todo heq => absurd heq (Pump.ne_recomputing_of_inside hinside i r todo)

/-- The thread goes on inside `asInitMem`, having touched at most one channel outside its
    window. -/
theorem Coherent.inside (h : Coherent grants s) (hch : s.channels[c]? = some ch)
    (hout : s.inWindow c = false) (hchannels : s'.channels = s.channels.set c ch')
    (hpolicy : s'.policy = s.policy) (hpublished : s'.published = s.published)
    (hinside : s'.pump.settled = false)
    (hlength : ch'.access.length = ch.access.length) (hidentities : ch'.identities = ch.identities)
    (hstage : ch'.stage = ch.stage) (hinit : ch'.initialized = ch.initialized)
    (htargets : ∀ i, i ∈ s'.dirty ∨ i ∈ s'.pump.targets →
      (i ∈ s.dirty ∨ i ∈ s.pump.targets) ∨ (i = c ∧ ch'.stage.visible = true)) :
    Coherent grants s' := by
  have hwindow : ch.stage.inWindow = false := by
    simpa [State.inWindow, hch] using hout
  refine h.set hch hchannels ?_ ?_ (by rw [hstage]; exact id) htargets
  · rw [hpolicy, hpublished]
    exact (h.channels c ch hch).touched hinside hwindow hlength hidentities hstage hinit
  · intro i chi _ _ hi
    rw [hpolicy, hpublished]
    refine hi.pump ?_ (fun _ _ _ => .inr (Pump.due_of_inside hinside i _)) ?_
    · rw [hinside]
      exact nofun
    · exact fun r todo heq => absurd heq (Pump.ne_recomputing_of_inside hinside i r todo)

/-! ## Creation -/

theorem Recompute.Ok.congr (h : r.Ok ch) (haccess : ch'.access = ch.access)
    (hrights : ch'.rights = ch.rights ∨ ch'.rights = Rights.aggregate ch'.access) : r.Ok ch' := by
  cases r with
  | reading i probe next =>
    show ReadSoFar ch'.access i next probe
    rw [haccess]
    exact h
  | storing next =>
    show next = _
    rw [haccess]
    exact h
  | clearing next current =>
    rcases hrights with hsame | hcurrent
    · show ch'.rights = _
      rw [hsame, haccess]
      exact h
    · exact hcurrent
  | taking next current =>
    rcases hrights with hsame | hcurrent
    · show ch'.rights = _
      rw [hsame, haccess]
      exact h
    · exact hcurrent

theorem Channel.WindowOk.congr (h : ch.WindowOk) (hstage : ch'.stage = ch.stage)
    (haccess : ch'.access = ch.access)
    (hrights : ch'.rights = ch.rights ∨ ch'.rights = Rights.aggregate ch'.access) :
    ch'.WindowOk := by
  have hcurrent : ch.rights = Rights.aggregate ch.access →
      ch'.rights = Rights.aggregate ch'.access := by
    intro hold
    rcases hrights with hsame | hnew
    · rw [hsame, haccess, hold]
    · exact hnew
  unfold Channel.WindowOk at h ⊢
  rw [hstage]
  cases hs : ch.stage with
  | recomputing r =>
    rw [hs] at h
    exact Recompute.Ok.congr h haccess hrights
  | computed =>
    rw [hs] at h
    exact hcurrent h
  | initialized =>
    rw [hs] at h
    exact hcurrent h
  | _ => trivial

/-- A step of the creation that leaves the clients alone. -/
theorem ChannelOk.restage {pump : Pump} (h : ChannelOk grants policy published pump i ch)
    (haccess : ch'.access = ch.access) (hidentities : ch'.identities = ch.identities)
    (hrights : ch'.rights = ch.rights ∨ ch'.rights = Rights.aggregate ch'.access)
    (hfull : ch.access.length = ch.identities.length)
    (hvisible : ch'.initialized = true → ch'.stage.visible = true) (hwindow : ch'.WindowOk)
    (hadded : ch'.stage = .added → ch'.rights = Rights.aggregate ch'.access) :
    ChannelOk grants policy published pump i ch' where
  settled := by
    rw [Channel.settled, haccess, hidentities]
    exact h.settled
  bounded := Nat.le_of_eq (by rw [haccess, hidentities, hfull])
  full := fun _ => by rw [haccess, hidentities, hfull]
  visible := hvisible
  window := hwindow
  added := fun hstage _ => .inl (hadded hstage)
  recomputed := fun r todo hp => (h.recomputed r todo hp).congr haccess hrights

theorem coherent_restage (h : Coherent grants s) (hch : s.channels[c]? = some ch)
    (haccess : ch'.access = ch.access) (hidentities : ch'.identities = ch.identities)
    (hrights : ch'.rights = ch.rights ∨ ch'.rights = Rights.aggregate ch'.access)
    (hfull : ch.access.length = ch.identities.length)
    (hhidden : ch.stage.visible = true → ch'.stage.visible = true)
    (hvisible : ch'.initialized = true → ch'.stage.visible = true) (hwindow : ch'.WindowOk)
    (hadded : ch'.stage = .added → ch'.rights = Rights.aggregate ch'.access) :
    Coherent grants (s.setChannel c ch') :=
  h.set hch rfl
    ((h.channels c ch hch).restage haccess hidentities hrights hfull hvisible hwindow hadded)
    (fun _ _ _ _ hi => hi) hhidden fun _ hi => .inl hi

theorem settled_addClient (h : ch.settled grants policy = true) {identity : Identity}
    (hidentity : ch.identities[ch.access.length]? = some identity) :
    ({ ch with access := ch.access ++ [grants policy identity] } :
      Channel Identity).settled grants policy = true := by
  simp only [Channel.settled, beq_iff_eq] at h ⊢
  rw [List.length_append, List.length_singleton, List.take_add_one, hidentity, List.map_append, ← h]
  rfl

/-- The library adds a client under the policy in force. -/
theorem coherent_addClient (h : Coherent grants s) (hch : s.channels[c]? = some ch)
    (hstage : ch.stage = .adding) {identity : Identity}
    (hidentity : ch.identities[ch.access.length]? = some identity) :
    Coherent grants
      (s.setChannel c { ch with access := ch.access ++ [grants s.policy identity] }) := by
  have hok := h.channels c ch hch
  refine h.set hch rfl ?_ (fun _ _ _ _ hi => hi) id fun i hi => .inl hi
  have hlt := (List.getElem?_eq_some_iff.mp hidentity).1
  refine ⟨fun hsettled => settled_addClient (hok.settled hsettled) hidentity, ?_, ?_,
    hok.visible, ?_, ?_, ?_⟩
  · rw [List.length_append]
    exact hlt
  · intro hcomplete
    dsimp only at hcomplete
    rw [hstage] at hcomplete
    cases hcomplete
  · simp [Channel.WindowOk, hstage]
  · intro hadded
    cases hstage.symm.trans hadded
  · -- nobody refers to a channel that is still being built
    intro r todo hpump
    have htarget : c ∈ s.pump.targets := by
      rw [show s.pump = .recomputing c r todo from hpump]
      exact List.mem_cons_self ..
    obtain ⟨ch₀, hch₀, hvisible⟩ := h.targets c (.inr htarget)
    rw [hch] at hch₀
    cases hch₀
    rw [hstage] at hvisible
    cases hvisible

/-- A step of the recomputation inside `initialize`. -/
theorem coherent_recompute (h : Coherent grants s) (hch : s.channels[c]? = some ch)
    (hstage : ch.stage = .recomputing r) (hempty : ch.initialized = false) (stage : Creation)
    (hadded : stage ≠ .added)
    (hwindow : ({ (r.step ch false).1 with stage := stage } : Channel Identity).WindowOk) :
    Coherent grants (s.setChannel c { (r.step ch false).1 with stage := stage }) := by
  have hok := h.channels c ch hch
  have hr : r.Ok ch := by
    have hold := hok.window
    simp only [Channel.WindowOk, hstage] at hold
    exact hold
  obtain ⟨rights, dirty, before, closed, hframe, hrights⟩ := recompute_frame hr false
  rw [hframe] at hwindow ⊢
  refine coherent_restage h hch rfl rfl hrights (hok.full (by rw [hstage]; rfl)) ?_ ?_ hwindow ?_
  · rw [hstage]
    exact nofun
  · show ch.initialized = true → _
    rw [hempty]
    exact nofun
  · exact fun heq => absurd heq hadded

theorem coherent_create (h : Coherent grants s) (hstep : s.create grants c = some s') :
    Coherent grants s' := by
  unfold State.create at hstep
  split at hstep
  · cases hstep
  · rename_i ch hch
    have hok := h.channels c ch hch
    have hinit : ch.stage.visible = false → ch.initialized = false := by
      intro hhidden
      cases hi : ch.initialized with
      | false => rfl
      | true =>
        rw [hok.visible hi] at hhidden
        cases hhidden
    split at hstep
    · rename_i hstage
      split at hstep
      · rename_i identity hidentity
        cases hstep
        exact coherent_addClient h hch hstage hidentity
      · rename_i hnone
        cases hstep
        have hempty := hinit (by rw [hstage]; rfl)
        have hfull := Nat.le_antisymm hok.bounded (List.getElem?_eq_none_iff.mp hnone)
        exact coherent_restage h hch rfl rfl (.inl rfl) hfull (by simp [hstage, Creation.visible])
          (by simp [hempty]) trivial nofun
    · rename_i i hstage
      have hfull := hok.full (by rw [hstage]; rfl)
      have hempty := hinit (by rw [hstage]; rfl)
      split at hstep <;> cases hstep
      · exact coherent_restage h hch rfl rfl (.inl rfl) hfull (by simp [hstage, Creation.visible])
          (by simp [hempty]) trivial nofun
      · exact coherent_restage h hch rfl rfl (.inl rfl) hfull (by simp [hstage, Creation.visible])
          (by simp [hempty]) (Recompute.ok_start _) nofun
    · rename_i r hstage
      have hempty := hinit (by rw [hstage]; rfl)
      have hr : r.Ok ch := by
        have hwindow := hok.window
        simp only [Channel.WindowOk, hstage] at hwindow
        exact hwindow
      split at hstep <;> cases hstep
      · rename_i ch' r' hrec
        have hmove := coherent_recompute h hch hstage hempty (.recomputing r') nofun
        rw [hrec] at hmove
        exact hmove (recompute_ok hr hrec : r'.Ok ch')
      · rename_i ch' hrec
        have hmove := coherent_recompute h hch hstage hempty .computed nofun
        rw [hrec] at hmove
        exact hmove (recompute_done hr hrec : ch'.rights = _)
    · rename_i hstage
      have hfull := hok.full (by rw [hstage]; rfl)
      have hcurrent : ch.rights = Rights.aggregate ch.access := by
        have hwindow := hok.window
        simp only [Channel.WindowOk, hstage] at hwindow
        exact hwindow
      cases hstep
      exact coherent_restage h hch rfl rfl (.inl rfl) hfull (fun _ => rfl) (fun _ => rfl) hcurrent
        nofun
    · rename_i hstage
      have hfull := hok.full (by rw [hstage]; rfl)
      have hcurrent : ch.rights = Rights.aggregate ch.access := by
        have hwindow := hok.window
        simp only [Channel.WindowOk, hstage] at hwindow
        exact hwindow
      cases hstep
      exact coherent_restage h hch rfl rfl (.inl rfl) hfull (fun _ => rfl) (fun _ => rfl) trivial
        fun _ => hcurrent
    · cases hstep
    · cases hstep

theorem coherent_connect (h : Coherent grants s) (member : MemberId) (identities : List Identity) :
    Coherent grants
      { s with channels := s.channels ++ [{ member := member, identities := identities }] } := by
  have hold : ∀ {i : Nat} {ch}, s.channels[i]? = some ch →
      (s.channels ++ [{ member := member, identities := identities }])[i]? = some ch := by
    intro i ch hi
    rw [List.getElem?_append_left (List.getElem?_eq_some_iff.mp hi).1]
    exact hi
  refine ⟨?_, ?_⟩
  · intro i ch hi
    rw [List.getElem?_append] at hi
    split at hi
    · exact h.channels i ch hi
    · rename_i hlt
      obtain ⟨hzero, hget⟩ := List.getElem?_eq_some_iff.mp hi
      have hnew : ch = { member := member, identities := identities } := by
        rw [← hget]
        simp
      subst hnew
      refine ⟨fun _ => rfl, Nat.zero_le _, nofun, nofun, trivial, nofun, ?_⟩
      -- the application thread cannot refer to a channel that was not there
      intro r todo hpump
      have htarget : i ∈ s.pump.targets := by
        rw [show s.pump = .recomputing i r todo from hpump]
        exact List.mem_cons_self ..
      obtain ⟨ch₀, hch₀, -⟩ := h.targets i (.inr htarget)
      exact absurd (List.getElem?_eq_some_iff.mp hch₀).1 hlt
  · intro i hi
    obtain ⟨ch, hch, hvisible⟩ := h.targets i hi
    exact ⟨ch, hold hch, hvisible⟩

theorem coherent_destroy (h : Coherent grants s) (hstep : s.destroy c = some s') :
    Coherent grants s' := by
  unfold State.destroy at hstep
  split at hstep
  · cases hstep
  · rename_i ch hch
    split at hstep <;> cases hstep
    rename_i hfree
    refine h.set hch rfl ?_ (fun _ _ _ _ hi => hi) (fun _ => rfl) fun i hi => .inl hi
    refine ⟨fun _ => rfl, Nat.zero_le _, nofun, fun _ => rfl, trivial, nofun, ?_⟩
    intro r todo hpump
    simp only [State.setChannel] at hpump
    simp [State.holds, hpump] at hfree

/-! ## Activation -/

theorem coherent_asInitMem (h : Coherent grants s) (hidle : s.pump = .idle) (policy : Policy) :
    Coherent grants { s with policy := policy, pump := .changing } := by
  refine ⟨?_, ?_⟩
  · intro i ch hi
    have hok := h.channels i ch hi
    exact ⟨nofun, hok.bounded, hok.full, hok.visible, hok.window, fun _ _ => .inr trivial, nofun⟩
  · intro i hi
    apply h.targets i
    rw [hidle]
    exact hi

/-- A client outside the window of its channel changes its access. -/
theorem coherent_change (h : Coherent grants s) {i : Nat} (hout : s.inWindow c = false)
    (hstep : s.change grants c i = some s') : Coherent grants s' := by
  unfold State.change at hstep
  split at hstep
  · cases hstep
  · rename_i ch hch
    split at hstep
    · rename_i a identity ha hidentity
      split at hstep <;> cases hstep
      -- whether there is a callback or not, the thread stays inside `asInitMem`
      by_cases hregistered : i < ch.registered
      · refine h.inside hch hout rfl rfl rfl ?_ (List.length_set ..) rfl rfl rfl ?_
        · simp [hregistered, Pump.settled]
        · simp only [hregistered, if_true]
          exact fun j hj => .inl (.inl (hj.resolve_right nofun))
      · refine h.inside hch hout rfl rfl rfl ?_ (List.length_set ..) rfl rfl rfl ?_
        · simp [hregistered, Pump.settled]
        · simp only [hregistered, if_false]
          exact fun j hj => .inl (.inl (hj.resolve_right nofun))
    · cases hstep

theorem coherent_finishInit (h : Coherent grants s) (hstep : s.finishInit grants = some s') :
    Coherent grants s' := by
  unfold State.finishInit at hstep
  split at hstep <;> cases hstep
  rename_i hready
  obtain ⟨hpump, hall⟩ := hready
  refine ⟨?_, ?_⟩
  · intro i ch hi
    have hok := h.channels i ch hi
    have hsettled := List.all_eq_true.mp hall ch (List.mem_of_getElem? hi)
    exact ⟨fun _ => hsettled, hok.bounded, hok.full, hok.visible, hok.window,
      fun _ _ => .inr trivial, nofun⟩
  · intro i hi
    apply h.targets i
    rw [hpump]
    exact hi

/-- From the idle thread to a call of `recomputeAllClients`. -/
theorem coherent_recomputeAll (h : Coherent grants s) (hidle : s.pump = .idle)
    (recomputeNeeded : Bool) :
    Coherent grants { s with recomputeNeeded := recomputeNeeded, pump := .activated } := by
  refine h.pump_only rfl ?_ ?_
  · intro i ch _ hok
    exact hok.pump (fun _ => by rw [hidle]; rfl) (fun _ _ _ => .inr trivial) nofun
  · intro i hi
    rw [hidle]
    exact .inl hi

theorem mem_targets_weak {dirty : List ChannelId}
    (h : i ∈ (Pump.working (dirty.map Job.weak)).targets) : i ∈ dirty := by
  obtain ⟨job, hjob, hi⟩ := List.mem_filterMap.mp h
  obtain ⟨j, hj, rfl⟩ := List.mem_map.mp hjob
  cases hi
  exact hj

theorem coherent_drainDirty (h : Coherent grants s) (hidle : s.pump = .idle) :
    Coherent grants s.drainDirty := by
  unfold State.drainDirty
  split
  · exact coherent_recomputeAll h hidle false
  · refine h.pump_only rfl ?_ ?_
    · intro i ch _ hok
      refine hok.pump (fun _ => by rw [hidle]; rfl) ?_ nofun
      intro _ _ hdue
      rw [hidle] at hdue
      exact hdue.elim
    · intro i hi
      rcases hi with hi | hi
      · cases hi
      · exact .inl (.inl (mem_targets_weak hi))

/-! ## The application thread -/

/-- A step of a callback for a channel outside its window. -/
theorem coherent_callback (h : Coherent grants s) {stage : Callback}
    (hpump : s.pump = .callback c stage) (hch : s.channels[c]? = some ch)
    (hout : s.inWindow c = false) (fails : Bool) :
    Coherent grants (s.accessChanged c ch fails stage) := by
  have hok := h.channels c ch hch
  have hset : s.channels = s.channels.set c ch := by
    obtain ⟨hlt, hget⟩ := List.getElem?_eq_some_iff.mp hch
    rw [← hget, List.set_getElem_self]
  cases stage with
  | zeroing =>
    exact h.inside hch hout rfl rfl rfl rfl rfl rfl rfl rfl
      fun j hj => .inl (.inl (hj.resolve_right nofun))
  | saving prior =>
    exact h.inside hch hout rfl rfl rfl rfl rfl rfl rfl rfl
      fun j hj => .inl (.inl (hj.resolve_right nofun))
  | testing =>
    cases hinit : ch.initialized with
    | false =>
      simp only [State.accessChanged, hinit]
      exact h.inside hch hout hset rfl rfl rfl rfl rfl rfl rfl
        fun j hj => .inl (.inl (hj.resolve_right nofun))
    | true =>
      simp only [State.accessChanged, hinit, if_true]
      refine h.inside hch hout hset rfl rfl rfl rfl rfl rfl rfl ?_
      rintro j (hj | hj)
      · exact .inl (.inl hj)
      · exact .inr ⟨List.mem_singleton.mp hj, hok.visible hinit⟩
  | marking =>
    have hvisible : ch.stage.visible = true := by
      obtain ⟨ch₀, hch₀, hvis⟩ := h.targets c (.inr (by rw [hpump]; exact List.mem_singleton_self _))
      rw [hch] at hch₀
      cases hch₀
      exact hvis
    simp only [State.accessChanged]
    split
    · exact h.inside hch hout hset rfl rfl rfl rfl rfl rfl rfl
        fun j hj => .inl (.inl (hj.resolve_right nofun))
    · split
      · exact h.inside hch hout rfl rfl rfl rfl rfl rfl rfl rfl
          fun j hj => .inl (.inl (hj.resolve_right nofun))
      · refine h.inside hch hout rfl rfl rfl rfl rfl rfl rfl rfl ?_
        rintro j (hj | hj)
        · rcases List.mem_append.mp hj with hj | hj
          · exact .inl (.inl hj)
          · exact .inr ⟨List.mem_singleton.mp hj, hvisible⟩
        · cases hj

variable {m : MemberId}

theorem mem_liveClients (hch : s.channels[i]? = some ch) (hstage : ch.stage = .added)
    (hmember : ch.member = m) : i ∈ s.liveClients m := by
  refine List.mem_filter.mpr ⟨List.mem_range.mpr (List.getElem?_eq_some_iff.mp hch).1, ?_⟩
  simp [hch, hstage, hmember]

theorem liveClients_visible (h : i ∈ s.liveClients m) :
    ∃ ch, s.channels[i]? = some ch ∧ ch.stage.visible = true := by
  obtain ⟨-, hany⟩ := List.mem_filter.mp h
  cases hch : s.channels[i]? with
  | none => simp [hch] at hany
  | some ch =>
    simp only [hch, Option.any_some, Bool.and_eq_true, beq_iff_eq] at hany
    exact ⟨ch, rfl, by rw [hany.1]; rfl⟩

variable {todo : List Job} {job : Job}

/-- The channels named by a list of jobs. -/
theorem targets_cons (h : i ∈ (Pump.working todo).targets) :
    i ∈ (Pump.working (job :: todo)).targets := by
  obtain ⟨job', hjob, hi⟩ := List.mem_filterMap.mp h
  exact List.mem_filterMap.mpr ⟨job', List.mem_cons_of_mem _ hjob, hi⟩

theorem jobsDue_cons {c : ChannelId} (hjob : job = .held c ∨ job = .weak c)
    (h : jobsDue (job :: todo) i m) :
    c = i ∨ jobsDue todo i m := by
  unfold jobsDue at h ⊢
  rcases hjob with rfl | rfl <;> grind

/-- The thread comes to a channel: it recomputes it, unless it is gone. -/
theorem coherent_visit (h : Coherent grants s) (hpump : s.pump = .working (job :: todo))
    (hjob : job = .held c ∨ job = .weak c) :
    Coherent grants
      { s with pump := if s.exists_ c then .recomputing c .start todo else .working todo } := by
  have hc : c ∈ (Pump.working (job :: todo)).targets := by
    rcases hjob with rfl | rfl <;> exact List.mem_cons_self ..
  cases hexists : s.exists_ c with
  | true =>
    refine h.pump_only rfl ?_ ?_
    · intro i ch hi hok
      refine hok.pump (fun _ => by rw [hpump]; rfl) ?_ ?_
      · intro _ _ hdue
        rw [hpump] at hdue
        exact .inr (jobsDue_cons hjob hdue)
      · rintro r todo' ⟨⟩
        exact Recompute.ok_start ch
    · rintro i (hi | hi)
      · exact .inl (.inl hi)
      · rw [hpump]
        rcases List.mem_cons.mp hi with rfl | hi
        · exact .inl (.inr hc)
        · exact .inl (.inr (targets_cons hi))
  | false =>
    refine h.pump_only rfl ?_ ?_
    · intro i ch hi hok
      refine hok.pump (fun _ => by rw [hpump]; rfl) ?_ nofun
      intro hadded _ hdue
      rw [hpump] at hdue
      rcases jobsDue_cons hjob hdue with rfl | hdue
      · -- the channel is there
        simp [State.exists_, hi, hadded] at hexists
      · exact .inr hdue
    · rintro i (hi | hi)
      · exact .inl (.inl hi)
      · rw [hpump]
        exact .inl (.inr (targets_cons hi))

theorem coherent_work (h : Coherent grants s) (hpump : s.pump = .working (job :: todo)) :
    Coherent grants (s.work job todo) := by
  cases job with
  | member m =>
    refine h.pump_only rfl ?_ ?_
    · intro i ch hi hok
      refine hok.pump (fun _ => by rw [hpump]; rfl) ?_ nofun
      intro hadded _ hdue
      rw [hpump] at hdue
      right
      rcases hdue with hdue | hdue | hdue <;> rcases List.mem_cons.mp hdue with heq | hdue
      · -- the member is replaced by its live clients, of which this is one
        cases heq
        exact .inr (.inl (List.mem_append_left _
          (List.mem_map_of_mem (mem_liveClients hi hadded rfl))))
      · exact .inl (List.mem_append_right _ hdue)
      · cases heq
      · exact .inr (.inl (List.mem_append_right _ hdue))
      · cases heq
      · exact .inr (.inr (List.mem_append_right _ hdue))
    · rintro i (hi | hi)
      · exact .inl (.inl hi)
      · obtain ⟨job, hjob, hname⟩ := List.mem_filterMap.mp hi
        rcases List.mem_append.mp hjob with hjob | hjob
        · obtain ⟨j, hj, rfl⟩ := List.mem_map.mp hjob
          cases hname
          exact .inr (liveClients_visible hj)
        · rw [hpump]
          exact .inl (.inr (targets_cons (List.mem_filterMap.mpr ⟨job, hjob, hname⟩)))
  | held c => exact coherent_visit h hpump (.inl rfl)
  | weak c => exact coherent_visit h hpump (.inr rfl)

/-- A step of a recomputation by the application thread. -/
theorem coherent_recomputing (h : Coherent grants s) (hpump : s.pump = .recomputing c r todo)
    (hch : s.channels[c]? = some ch) (hch' : (r.step ch true).1 = ch') {pump : Pump}
    (hnext : (∃ r', r.step ch true = (ch', some r') ∧ pump = .recomputing c r' todo) ∨
      (r.step ch true = (ch', none) ∧ pump = .working todo)) :
    Coherent grants { s.setChannel c ch' with pump := pump } := by
  have hok := h.channels c ch hch
  have hr := hok.recomputed r todo hpump
  obtain ⟨rights, dirty, before, closed, hframe, hrights⟩ := recompute_frame hr true
  rw [hch'] at hframe
  have hsettled : pump.settled = true → s.pump.settled = true := by
    rw [hpump]
    exact fun _ => rfl
  refine h.set hch rfl ?_ ?_ ?_ ?_
  · have hsame : ch'.access = ch.access := by rw [hframe]
    have hrights' : ch'.rights = ch.rights ∨ ch'.rights = Rights.aggregate ch'.access := by
      rw [hframe]
      exact hrights
    refine ⟨?_, ?_, ?_, ?_, hok.window.congr (by rw [hframe]) hsame hrights', ?_, ?_⟩
    · rw [hframe]
      exact fun hs => hok.settled (hsettled hs)
    · rw [hframe]
      exact hok.bounded
    · rw [hframe]
      exact hok.full
    · rw [hframe]
      exact hok.visible
    · intro _ _
      rcases hnext with ⟨r', -, rfl⟩ | ⟨hdone, rfl⟩
      · exact .inr (.inl rfl)
      · exact .inl (recompute_done hr hdone)
    · intro r'' todo' heq
      rcases hnext with ⟨r', hstep, rfl⟩ | ⟨-, rfl⟩
      · cases heq
        exact recompute_ok hr hstep
      · cases heq
  · intro i chi hi hchi hoki
    refine hoki.pump hsettled ?_ ?_
    · intro _ _ hdue
      rw [hpump] at hdue
      right
      rcases hnext with ⟨r', -, rfl⟩ | ⟨-, rfl⟩
      · exact hdue
      · exact hdue.resolve_left (Ne.symm hi)
    · intro r'' todo' heq
      rcases hnext with ⟨r', -, rfl⟩ | ⟨-, rfl⟩
      · cases heq
        exact absurd rfl hi
      · cases heq
  · rw [hframe]
    exact id
  · rintro i (hi | hi)
    · exact .inl (.inl hi)
    · rw [hpump]
      rcases hnext with ⟨r', -, rfl⟩ | ⟨-, rfl⟩
      · exact .inl (.inr hi)
      · exact .inl (.inr (List.mem_cons_of_mem _ hi))

theorem coherent_advance (h : Coherent grants s) {fails : Bool}
    (hout : s.outsideWindow (.advance fails : Label Policy Identity) = true)
    (hstep : s.advance fails = some s') : Coherent grants s' := by
  unfold State.advance at hstep
  split at hstep
  · cases hstep
  · cases hstep
  · rename_i c stage hpump
    obtain ⟨ch, hch, rfl⟩ := Option.map_eq_some_iff.mp hstep
    have hwindow : s.inWindow c = false := by
      simpa [State.outsideWindow, hpump] using hout
    exact coherent_callback h hpump hch hwindow fails
  · rename_i hpump
    cases hstep
    refine h.pump_only rfl ?_ ?_
    · intro i ch hi hok
      refine hok.pump (fun _ => by rw [hpump]; rfl) ?_ nofun
      intro _ hpublished _
      exact .inr (.inl (List.mem_map_of_mem hpublished))
    · rintro i (hi | hi)
      · cases hi
      · obtain ⟨job, hjob, hname⟩ := List.mem_filterMap.mp hi
        obtain ⟨m, -, rfl⟩ := List.mem_map.mp hjob
        cases hname
  · rename_i hpump
    cases hstep
    refine h.pump_only rfl ?_ ?_
    · intro i ch hi hok
      refine hok.pump (fun _ => by rw [hpump]; rfl) ?_ nofun
      intro _ _ hdue
      rw [hpump] at hdue
      rcases hdue with hdue | hdue | hdue <;> cases hdue
    · rintro i (hi | hi)
      · exact .inl (.inl hi)
      · cases hi
  · rename_i job todo hpump
    cases hstep
    exact coherent_work h hpump
  · rename_i c r todo hpump
    obtain ⟨ch, hch, rfl⟩ := Option.map_eq_some_iff.mp hstep
    split
    · rename_i ch' r' hrec
      exact coherent_recomputing h hpump hch (by rw [hrec]) (.inl ⟨r', hrec, rfl⟩)
    · rename_i ch' hrec
      exact coherent_recomputing h hpump hch (by rw [hrec]) (.inr ⟨hrec, rfl⟩)

/-! ## Every run outside the window -/

/-- One step that meets the condition keeps the invariant. -/
theorem coherent_step (h : Coherent grants s) {a : Label Policy Identity}
    (hout : s.outsideWindow a = true) (hstep : step grants s a = some s') :
    Coherent grants s' := by
  cases a with
  | connect member identities =>
    cases hstep
    exact coherent_connect h member identities
  | create c => exact coherent_create h hstep
  | destroy c => exact coherent_destroy h hstep
  | asInitMem policy =>
    simp only [step] at hstep
    split at hstep <;> cases hstep
    rename_i hidle
    exact coherent_asInitMem h hidle policy
  | change c i =>
    have hwindow : s.inWindow c = false := by
      simpa [State.outsideWindow] using hout
    exact coherent_change h hwindow hstep
  | finishInit => exact coherent_finishInit h hstep
  | recomputeAllClients =>
    simp only [step] at hstep
    split at hstep <;> cases hstep
    rename_i hidle
    exact coherent_recomputeAll h hidle s.recomputeNeeded
  | drainDirty =>
    simp only [step] at hstep
    split at hstep <;> cases hstep
    rename_i hidle
    exact coherent_drainDirty h hidle
  | advance fails => exact coherent_advance h hout hstep

theorem coherent_start :
    Coherent grants ({ policy := policy, published := published } : State Policy Identity) := by
  refine ⟨?_, ?_⟩
  · intro i ch hi
    cases hi
  · rintro i (hi | hi) <;> cases hi

theorem coherent_of_guarded {s₀ : State Policy Identity} {as : List (Label Policy Identity)}
    (hstart : (machine grants).start s₀)
    (hok : (machine grants).Guarded (fun s a => s.outsideWindow a = true) s₀ as)
    (hrun : (machine grants).exec s₀ as = some s) : Coherent grants s := by
  obtain ⟨policy, published, rfl⟩ := hstart
  exact (machine grants).exec_guarded_invariant
    (fun s a s' h hout hstep => coherent_step h hout hstep) coherent_start hok hrun

theorem Coherent.rightsCurrent (h : Coherent grants s) (hquiet : Quiescent s) :
    RightsCurrent grants s := by
  intro ch hmem hadded hpublished
  obtain ⟨hidle, -⟩ := hquiet
  obtain ⟨i, hi⟩ := List.mem_iff_getElem?.mp hmem
  have hok := h.channels i ch hi
  have hsettled := hok.settled (by rw [hidle]; rfl)
  simp only [Channel.settled, beq_iff_eq] at hsettled
  rcases hok.added hadded hpublished with hcurrent | hdue
  · rw [hok.full (by rw [hadded]; rfl), List.take_length] at hsettled
    rw [hcurrent, hsettled]
  · rw [hidle] at hdue
    exact hdue.elim

/-- **Cached rights are current when no thread is at work**, in every run in which no activation
    reaches a client of a channel between the first check of its rights and `addClient`. -/
theorem cached_rights_current {s₀ : State Policy Identity} {as : List (Label Policy Identity)}
    (hstart : (machine grants).start s₀)
    (hok : (machine grants).Guarded (fun s a => s.outsideWindow a = true) s₀ as)
    (hrun : (machine grants).exec s₀ as = some s) (hquiet : Quiescent s) :
    RightsCurrent grants s :=
  (coherent_of_guarded hstart hok hrun).rightsCurrent hquiet

/-- A client is created under the open policy, the closed policy is activated after that, and a
    second client connects while the activation is under way. -/
def activationAfterCreation : List (Label Bool Unit) :=
  [.connect 0 [()]] ++
  List.replicate 13 (.create 0) ++
  [.connect 0 [()], .asInitMem false, .create 1, .change 0 0] ++
  List.replicate 4 (.advance false) ++
  [.finishInit] ++
  List.replicate 10 (.advance false) ++
  List.replicate 11 (.create 1) ++
  [.drainDirty, .advance false]

theorem cached_rights_current_revoked :
    ∃ s : State Bool Unit, Quiescent s ∧ s.policy = false ∧ s.channels.length = 2 ∧
      RightsCurrent openOrClosed s := by
  have hrun : ((machine openOrClosed).exec { policy := true, published := [0] }
      activationAfterCreation).map (fun s => decide (Quiescent s ∧ s.policy = false ∧
        s.channels.length = 2)) = some true := by
    decide
  obtain ⟨s, hs, hend⟩ := Option.map_eq_some_iff.mp hrun
  obtain ⟨hquiet, hpolicy, hlength⟩ := of_decide_eq_true hend
  exact ⟨s, hquiet, hpolicy, hlength,
    cached_rights_current ⟨true, [0], rfl⟩ (by decide) hs hquiet⟩

end RedisPvxsIoc.Access
