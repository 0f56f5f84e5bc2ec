import RedisPvxsIoc.Access.CachedRights

/-!
# Rights Changes Fail Closed

`Channel` cuts the callbacks and the recomputations of a channel at every access to shared memory.
Here each of them is one step, and a channel starts as an undisturbed `initialize` leaves it.  What
is proved is the bookkeeping between `rights` and `rightsBeforeChange`: a callback clears the cached
rights and keeps them aside, and the next recomputation compares its result with what the last one
had stored, however many callbacks there were.

## Main results

* `recompute_runs` : the one step of a recomputation is what its small steps come to.
* `rightsChange_failsClosed` : no rights while a change is pending, a recomputation at the next
  drain, and a disconnection exactly when the rights differ.
-/

namespace RedisPvxsIoc.Access

open Foundations

variable {Policy Identity : Type}

/-! ## Undisturbed recomputations and callbacks -/

/-- `recompute(true)`, and whether it closes the channel. -/
def Channel.recompute (ch : Channel Identity) : Channel Identity × Bool :=
  let next := Rights.aggregate ch.access
  let prior := if ch.rightsBeforeChange ≠ Rights.none then ch.rightsBeforeChange else ch.rights
  ({ ch with
      rights := next
      dirty := false
      rightsBeforeChange := {}
      closed := ch.closed || prior != next }, prior != next)

/-- `accessChanged` of an initialized channel, up to its call of `markDirty`. -/
def Channel.accessChanged (ch : Channel Identity) : Channel Identity :=
  { ch with
    rights := .none
    rightsBeforeChange := ch.rightsBeforeChange.or ch.rights
    dirty := true }

/-- The steps of a recomputation, one after the other. -/
inductive Recompute.Runs : Channel Identity → Recompute → Channel Identity → Prop
  | done {ch ch' : Channel Identity} {r : Recompute} :
    r.step ch true = (ch', none) → Runs ch r ch'
  | next {ch ch' ch'' : Channel Identity} {r r' : Recompute} :
    r.step ch true = (ch', some r') → Runs ch' r' ch'' → Runs ch r ch''

/-- The loop from client `i` on. -/
theorem runs_reading (ch : Channel Identity) (n : Nat) :
    ∀ i, ch.access.length = i + n →
      Recompute.Runs ch (.reading i .get (Rights.aggregate (ch.access.take i)))
        ch.recompute.1 := by
  induction n with
  | zero =>
    intro i hlength
    have hnone : ch.access[i]? = none := List.getElem?_eq_none_iff.mpr (by omega)
    refine .next (by simp only [Recompute.step, hnone]; rfl) ?_
    rw [List.take_of_length_le (by omega)]
    exact .next rfl (.next rfl (.done rfl))
  | succ n ih =>
    intro i hlength
    obtain ⟨a, ha⟩ : ∃ a, ch.access[i]? = some a :=
      ⟨_, List.getElem?_eq_getElem (by omega)⟩
    have hrest := ih (i + 1) (by omega)
    rw [aggregate_take_succ ha] at hrest
    refine .next (by simp only [Recompute.step, ha]; rfl) ?_
    cases hput : a.put with
    | false =>
      refine .next (by simp only [Recompute.step, ha, hput]; rfl) ?_
      simpa [Rights.ofClient, Rights.or, hput] using hrest
    | true =>
      refine .next (by simp only [Recompute.step, ha, hput]; rfl)
        (.next (by simp only [Recompute.step, ha]; rfl) ?_)
      simpa [Rights.ofClient, Rights.or, hput] using hrest

/-- Undisturbed, the steps of a recomputation come to `Channel.recompute`. -/
theorem recompute_runs (ch : Channel Identity) :
    Recompute.Runs ch .start ch.recompute.1 :=
  runs_reading ch ch.access.length 0 (by omega)

/-- Undisturbed, the steps of a callback come to `Channel.accessChanged`. -/
theorem accessChanged_runs {s : State Policy Identity} {c : ChannelId} {ch : Channel Identity}
    (hch : s.channels[c]? = some ch) (hinit : ch.initialized = true) (fails : Bool)
    (hpump : s.pump = .callback c .zeroing) :
    ∃ t, s.advance fails >>= (·.advance fails) >>= (·.advance fails) >>= (·.advance fails)
      = some t ∧ t.channels = s.channels.set c ch.accessChanged := by
  obtain ⟨hlt, rfl⟩ := List.getElem?_eq_some_iff.mp hch
  cases hdirty : s.channels[c].dirty <;> cases fails <;>
    simp [State.advance, State.accessChanged, State.setChannel, hpump, hlt, hinit, hdirty,
      Channel.accessChanged]

namespace RightsChanges

/-! ## Callbacks, drains and recomputations as steps -/

/-- What happened to the channels. -/
inductive Event where
  | callback (c : ChannelId)
  | recomputed (c : ChannelId) (rights : Rights) (closed : Bool)
  deriving DecidableEq, Repr

/-- The part of the controller that follows changes of rights. -/
structure State (Identity : Type) where
  /-- The members of the published names. -/
  published : List MemberId
  channels : List (Channel Identity)
  dirty : List ChannelId := []
  recomputeNeeded : Bool := false
  rightsChanges : Nat := 0
  log : List Event := []
  deriving DecidableEq, Repr

namespace State

/-- `recompute(true)` of a channel that still exists. -/
def recompute (s : State Identity) (c : ChannelId) : State Identity :=
  match s.channels[c]? with
  | none => s
  | some ch =>
    if ch.stage = .dead then s
    else
      { s with
        channels := s.channels.set c ch.recompute.1
        rightsChanges := s.rightsChanges + if ch.recompute.2 then 1 else 0
        log := s.log ++ [.recomputed c ch.recompute.1.rights ch.recompute.2] }

/-- `liveClients` of a member -/
def liveClients (s : State Identity) (m : MemberId) : List ChannelId :=
  (List.range s.channels.length).filter fun c =>
    (s.channels[c]?).any fun ch => ch.stage == .added && ch.member == m

/-- `recomputeAllClients` -/
def recomputeAllClients (s : State Identity) : State Identity :=
  s.published.foldl (fun s m => (s.liveClients m).foldl recompute s) { s with dirty := [] }

/-- `drainDirty` -/
def drainDirty (s : State Identity) : State Identity :=
  if s.recomputeNeeded then recomputeAllClients { s with recomputeNeeded := false }
  else s.dirty.foldl recompute { s with dirty := [] }

/-- `accessChanged` for client `i`, which now holds `access`; `fails` when the dirty list cannot
    grow. -/
def accessChanged (s : State Identity) (c : ChannelId) (ch : Channel Identity) (i : Nat)
    (access : ClientAccess) (fails : Bool) : State Identity :=
  { s with
    channels := s.channels.set c { ch.accessChanged with access := ch.access.set i access }
    dirty := if ch.dirty || fails then s.dirty else s.dirty ++ [c]
    recomputeNeeded := s.recomputeNeeded || (!ch.dirty && fails)
    log := s.log ++ [.callback c] }

end State

inductive Label where
  | accessChanged (c : ChannelId) (i : Nat) (access : ClientAccess) (fails : Bool)
  | drainDirty
  | recomputeAllClients
  deriving DecidableEq, Repr

def step (s : State Identity) : Label → Option (State Identity)
  | .accessChanged c i access fails =>
    match s.channels[c]? with
    | some ch =>
      if ch.stage = .added ∧ i < ch.access.length then some (s.accessChanged c ch i access fails)
      else none
    | none => none
  | .drainDirty => some s.drainDirty
  | .recomputeAllClients => some s.recomputeAllClients

def machine : Machine (State Identity) Label where
  start s := s.log = []
  step := step

/-! ## What the log says of a channel -/

/-- There was a callback of the channel after its last recomputation. -/
def pending (c : ChannelId) (log : List Event) : Bool :=
  log.foldl (fun p e => match e with
    | .callback c' => p || c' == c
    | .recomputed c' _ _ => p && c' != c) false

/-- The rights that the last recomputation of the channel stored, `initial` before the first. -/
def stored (c : ChannelId) (initial : Rights) (log : List Event) : Rights :=
  log.foldl (fun r e => match e with
    | .callback _ => r
    | .recomputed c' next _ => if c' = c then next else r) initial

def Event.channel : Event → ChannelId
  | .callback c | .recomputed c _ _ => c

/-- A recomputation closed the channel. -/
def Event.closing : Event → Bool
  | .callback _ => false
  | .recomputed _ _ closed => closed

section Log

variable (c c' : ChannelId) (initial next : Rights) (closed : Bool) (log : List Event)

@[simp] theorem pending_callback :
    pending c (log ++ [.callback c']) = (pending c log || c' == c) := by
  simp [pending]

@[simp] theorem pending_recomputed :
    pending c (log ++ [.recomputed c' next closed]) = (pending c log && c' != c) := by
  simp [pending]

@[simp] theorem stored_callback :
    stored c initial (log ++ [.callback c']) = stored c initial log := by
  simp [stored]

@[simp] theorem stored_recomputed :
    stored c initial (log ++ [.recomputed c' next closed]) =
      if c' = c then next else stored c initial log := by
  simp [stored]

end Log

/-- Every recomputation of the channel closed it exactly if it changed the stored rights. -/
def ClosedOnChange (c : ChannelId) (initial : Rights) (log : List Event) : Prop :=
  ∀ before next closed after, log = before ++ .recomputed c next closed :: after →
    (closed = true ↔ next ≠ stored c initial before)

variable {s s' : State Identity} {c c' : ChannelId} {initial : Rights} {log : List Event}
  {ch ch₀ : Channel Identity} {n : Nat} {e : Event}

theorem ClosedOnChange.concat (h : ClosedOnChange c initial log)
    (hlast : ∀ next closed, e = .recomputed c next closed →
      (closed = true ↔ next ≠ stored c initial log)) :
    ClosedOnChange c initial (log ++ [e]) := by
  intro before next closed after hlog
  rcases List.eq_nil_or_concat after with rfl | ⟨rest, last, rfl⟩
  · obtain ⟨rfl, heq⟩ := List.append_inj' hlog rfl
    exact hlast next closed (List.cons.inj heq).1
  · rw [List.concat_eq_append, ← List.cons_append, ← List.append_assoc] at hlog
    exact h before next closed rest (List.append_inj' hlog rfl).1

/-! ## The invariant of a channel -/

/-- As an undisturbed `initialize` leaves a channel of a published name. -/
structure Initialized (s : State Identity) (c : ChannelId) (ch : Channel Identity) : Prop where
  channel : s.channels[c]? = some ch
  stage : ch.stage = .added
  published : ch.member ∈ s.published
  dirty : ch.dirty = false
  before : ch.rightsBeforeChange = .none

/-- A channel against the log, with the channel `ch₀` and the counter `n` that it began with. -/
structure Tracks (ch₀ : Channel Identity) (n : Nat) (c : ChannelId) (s : State Identity)
    (ch : Channel Identity) : Prop where
  channel : s.channels[c]? = some ch
  stage : ch.stage = .added
  published : ch.member ∈ s.published
  dirty : ch.dirty = pending c s.log
  /-- While a change is pending the stored rights are kept aside. -/
  rights : ch.rights = if pending c s.log then .none else stored c ch₀.rights s.log
  before : ch.rightsBeforeChange = if pending c s.log then stored c ch₀.rights s.log else .none
  closed : ch.closed = (ch₀.closed || s.log.any fun e => e.channel == c && e.closing)
  closings : ClosedOnChange c ch₀.rights s.log
  changes : s.rightsChanges = n + s.log.countP Event.closing

/-- What `recompute` takes for the prior rights is what the last recomputation stored. -/
theorem Tracks.prior (h : Tracks ch₀ n c s ch) :
    (if ch.rightsBeforeChange ≠ Rights.none then ch.rightsBeforeChange else ch.rights) =
      stored c ch₀.rights s.log := by
  rw [h.before, h.rights]
  cases pending c s.log with
  | false => simp
  | true =>
    -- rights of zero leave no trace, and then zero is what the channel holds
    by_cases hzero : stored c ch₀.rights s.log = .none <;> simp [hzero]

theorem tracks_recompute_self (h : Tracks ch₀ n c s ch) :
    Tracks ch₀ n c (s.recompute c) ch.recompute.1 ∧ pending c (s.recompute c).log = false := by
  have hlt : c < s.channels.length := (List.getElem?_eq_some_iff.mp h.channel).1
  have hclosed : ch.recompute.2 =
      (stored c ch₀.rights s.log != Rights.aggregate ch.access) := by
    simp only [Channel.recompute, h.prior]
  have hstep : s.recompute c = { s with
      channels := s.channels.set c ch.recompute.1
      rightsChanges := s.rightsChanges + if ch.recompute.2 then 1 else 0
      log := s.log ++ [.recomputed c ch.recompute.1.rights ch.recompute.2] } := by
    simp [State.recompute, h.channel, h.stage]
  rw [hstep]
  refine ⟨{
    channel := by simp [hlt]
    stage := h.stage
    published := h.published
    dirty := by simp [Channel.recompute]
    rights := by simp
    before := by simp [Channel.recompute, Rights.none]
    closed := ?_
    closings := ?_
    changes := ?_ }, by simp⟩
  · show (ch.closed || ch.recompute.2) = _
    simp [h.closed, Event.channel, Event.closing, Bool.or_assoc]
  · refine h.closings.concat fun next closed he => ?_
    cases he
    rw [hclosed, bne_iff_ne]
    exact ne_comm
  · simp only [h.changes, List.countP_append, List.countP_singleton, Nat.add_assoc]
    rfl

/-- What happens to another channel. -/
theorem Tracks.other (h : Tracks ch₀ n c s ch) (hne : e.channel ≠ c) (other : Channel Identity)
    (dirty : List ChannelId) (needed : Bool) :
    Tracks ch₀ n c
      { s with
        channels := s.channels.set e.channel other
        dirty := dirty
        recomputeNeeded := needed
        rightsChanges := s.rightsChanges + if e.closing then 1 else 0
        log := s.log ++ [e] } ch := by
  have hpending : pending c (s.log ++ [e]) = pending c s.log := by
    cases e <;> simp_all [Event.channel]
  have hstored : stored c ch₀.rights (s.log ++ [e]) = stored c ch₀.rights s.log := by
    cases e <;> simp_all [Event.channel]
  exact {
    channel := by simpa [hne] using h.channel
    stage := h.stage
    published := h.published
    dirty := h.dirty.trans hpending.symm
    rights := by rw [hpending, hstored, h.rights]
    before := by rw [hpending, hstored, h.before]
    closed := by simp [h.closed, beq_eq_false_iff_ne.mpr hne]
    closings := h.closings.concat fun next closed he => absurd (congrArg Event.channel he) hne
    changes := by
      simp only [h.changes, List.countP_append, List.countP_singleton, Nat.add_assoc] }

theorem tracks_recompute_other (h : Tracks ch₀ n c s ch) (hne : c' ≠ c) :
    Tracks ch₀ n c (s.recompute c') ch ∧
      pending c (s.recompute c').log = pending c s.log := by
  unfold State.recompute
  cases s.channels[c']? with
  | none => exact ⟨h, rfl⟩
  | some other =>
    dsimp only
    split
    · exact ⟨h, rfl⟩
    · exact ⟨h.other (e := .recomputed c' _ _) hne _ _ _, by simp [hne]⟩

/-- A loop of recomputations reaches every channel of its list. -/
theorem tracks_recomputes (l : List ChannelId) (h : Tracks ch₀ n c s ch) :
    ∃ ch', Tracks ch₀ n c (l.foldl State.recompute s) ch' ∧ ch'.member = ch.member ∧
      (pending c s.log = false ∨ c ∈ l → pending c (l.foldl State.recompute s).log = false) := by
  induction l generalizing s ch with
  | nil => exact ⟨ch, h, rfl, fun hdone => hdone.resolve_right List.not_mem_nil⟩
  | cons c' l ih =>
    by_cases hc : c' = c
    · subst hc
      obtain ⟨hself, hdone⟩ := tracks_recompute_self h
      obtain ⟨ch', htracks, hmember, hall⟩ := ih hself
      exact ⟨ch', htracks, hmember, fun _ => hall (.inl hdone)⟩
    · obtain ⟨hother, hpending⟩ := tracks_recompute_other h hc
      obtain ⟨ch', htracks, hmember, hall⟩ := ih hother
      refine ⟨ch', htracks, hmember, fun hdone => hall (hdone.imp hpending.trans fun hmem => ?_)⟩
      exact (List.mem_cons.mp hmem).resolve_left (Ne.symm hc)

theorem Tracks.mem_liveClients (h : Tracks ch₀ n c s ch) : c ∈ s.liveClients ch.member := by
  refine List.mem_filter.mpr
    ⟨List.mem_range.mpr (List.getElem?_eq_some_iff.mp h.channel).1, ?_⟩
  simp [h.channel, h.stage]

/-- The loop over the members reaches the channels of each. -/
theorem tracks_members (members : List MemberId) (h : Tracks ch₀ n c s ch) :
    ∃ ch', Tracks ch₀ n c
        (members.foldl (fun s m => (s.liveClients m).foldl State.recompute s) s) ch' ∧
      (pending c s.log = false ∨ ch.member ∈ members →
        pending c (members.foldl (fun s m => (s.liveClients m).foldl State.recompute s) s).log
          = false) := by
  induction members generalizing s ch with
  | nil => exact ⟨ch, h, fun hdone => hdone.resolve_right List.not_mem_nil⟩
  | cons m members ih =>
    obtain ⟨ch', htracks, hmember, hdone⟩ := tracks_recomputes (s.liveClients m) h
    obtain ⟨ch'', htracks', hall⟩ := ih htracks
    refine ⟨ch'', htracks', ?_⟩
    rintro (hp | hmem)
    · exact hall (.inl (hdone (.inl hp)))
    · rcases List.mem_cons.mp hmem with rfl | hmem
      · exact hall (.inl (hdone (.inr h.mem_liveClients)))
      · exact hall (.inr (hmember ▸ hmem))

theorem tracks_recomputeAllClients (h : Tracks ch₀ n c s ch) :
    ∃ ch', Tracks ch₀ n c s.recomputeAllClients ch' ∧
      pending c s.recomputeAllClients.log = false := by
  obtain ⟨ch', htracks, hdone⟩ :=
    tracks_members (s := { s with dirty := [] }) s.published { h with }
  exact ⟨ch', htracks, hdone (.inr h.published)⟩

/-- A pending change is on the dirty list, or all clients are to be recomputed. -/
def Marked (c : ChannelId) (s : State Identity) : Prop :=
  pending c s.log = true → c ∈ s.dirty ∨ s.recomputeNeeded = true

theorem tracks_drainDirty (h : Tracks ch₀ n c s ch) (hmarked : Marked c s) :
    ∃ ch', Tracks ch₀ n c s.drainDirty ch' ∧ pending c s.drainDirty.log = false := by
  unfold State.drainDirty
  split
  · exact tracks_recomputeAllClients (s := { s with recomputeNeeded := false }) { h with }
  · rename_i hneeded
    obtain ⟨ch', htracks, -, hdone⟩ :=
      tracks_recomputes (s := { s with dirty := [] }) s.dirty { h with }
    refine ⟨ch', htracks, hdone ?_⟩
    cases hp : pending c s.log with
    | false => exact .inl rfl
    | true => exact .inr ((hmarked hp).resolve_right hneeded)

theorem tracks_accessChanged (h : Tracks ch₀ n c s ch) {other : Channel Identity}
    (hother : s.channels[c']? = some other) (i : Nat) (access : ClientAccess) (fails : Bool) :
    ∃ ch', Tracks ch₀ n c (s.accessChanged c' other i access fails) ch' := by
  have hlt : c' < s.channels.length := (List.getElem?_eq_some_iff.mp hother).1
  by_cases hc : c' = c
  · subst hc
    obtain rfl : other = ch := Option.some.inj (hother.symm.trans h.channel)
    refine ⟨{ other.accessChanged with access := other.access.set i access }, {
      channel := by simp [State.accessChanged, hlt]
      stage := h.stage
      published := h.published
      dirty := by simp [State.accessChanged, Channel.accessChanged]
      rights := by simp [State.accessChanged, Channel.accessChanged]
      before := ?_
      closed := by simpa [State.accessChanged, Channel.accessChanged, Event.closing] using h.closed
      closings := h.closings.concat fun _ _ he => Event.noConfusion he
      changes := by simpa [State.accessChanged, Event.closing] using h.changes }⟩
    -- the first callback moves the rights aside, the later ones add zero to them
    simp only [State.accessChanged, Channel.accessChanged, h.before, h.rights, pending_callback,
      stored_callback]
    cases pending c' s.log <;> simp [Rights.or, Rights.none]
  · exact ⟨ch, h.other (e := .callback c') hc _ _ _⟩

theorem marked_accessChanged (h : Tracks ch₀ n c s ch) (hmarked : Marked c s)
    {other : Channel Identity} (hother : s.channels[c']? = some other) (i : Nat)
    (access : ClientAccess) (fails : Bool) :
    Marked c (s.accessChanged c' other i access fails) := by
  intro hpending
  simp only [State.accessChanged, pending_callback, Bool.or_eq_true, beq_iff_eq] at hpending ⊢
  have hkept (hp : pending c s.log = true) :
      c ∈ (if other.dirty || fails then s.dirty else s.dirty ++ [c']) ∨
        (s.recomputeNeeded || (!other.dirty && fails)) = true := by
    refine (hmarked hp).imp (fun hmem => ?_) fun hneeded => by simp [hneeded]
    split
    · exact hmem
    · exact List.mem_append_left _ hmem
  rcases hpending with hp | rfl
  · simpa using hkept hp
  · obtain rfl : other = ch := Option.some.inj (hother.symm.trans h.channel)
    -- a dirty channel was marked by an earlier callback
    cases hdirty : other.dirty with
    | true => simpa [hdirty] using hkept (h.dirty.symm.trans hdirty)
    | false => cases fails <;> simp

/-- One step keeps a channel in agreement with the log. -/
theorem tracks_step {label : Label} (h : ∃ ch, Tracks ch₀ n c s ch ∧ Marked c s)
    (hstep : step s label = some s') : ∃ ch, Tracks ch₀ n c s' ch ∧ Marked c s' := by
  obtain ⟨ch, htracks, hmarked⟩ := h
  cases label with
  | accessChanged c' i access fails =>
    simp only [step] at hstep
    split at hstep
    · rename_i other hother
      split_ifs at hstep
      obtain rfl := Option.some.inj hstep
      obtain ⟨ch', htracks'⟩ := tracks_accessChanged htracks hother i access fails
      exact ⟨ch', htracks', marked_accessChanged htracks hmarked hother i access fails⟩
    · cases hstep
  | drainDirty =>
    obtain rfl := Option.some.inj hstep
    obtain ⟨ch', htracks', hdone⟩ := tracks_drainDirty htracks hmarked
    exact ⟨ch', htracks', fun hpending => absurd (hdone.symm.trans hpending) (by decide)⟩
  | recomputeAllClients =>
    obtain rfl := Option.some.inj hstep
    obtain ⟨ch', htracks', hdone⟩ := tracks_recomputeAllClients htracks
    exact ⟨ch', htracks', fun hpending => absurd (hdone.symm.trans hpending) (by decide)⟩

theorem Initialized.tracks (h : Initialized s c ch) (hlog : s.log = []) :
    Tracks ch s.rightsChanges c s ch ∧ Marked c s := by
  refine ⟨{
    channel := h.channel
    stage := h.stage
    published := h.published
    dirty := by simp [hlog, pending, h.dirty]
    rights := by simp [hlog, pending, stored]
    before := by simp [hlog, pending, h.before]
    closed := by simp [hlog]
    closings := fun before _ _ _ hcons => by simp [hlog] at hcons
    changes := by simp [hlog] }, fun hpending => by simp [hlog, pending] at hpending⟩

/-- **Changes of rights fail closed**: along any run of callbacks, drains and recomputations, an
    initialized channel has no cached rights while a change is pending; the next drain, as every
    recomputation of all clients, recomputes it; and a recomputation closes the channel and counts a
    change exactly if its result differs from the rights stored before. -/
theorem rightsChange_failsClosed {s₀ : State Identity} {labels : List Label}
    (hinit : Initialized s₀ c ch₀) (hlog : s₀.log = [])
    (hrun : machine.exec s₀ labels = some s) :
    (∃ ch, s.channels[c]? = some ch ∧ (pending c s.log = true → ch.rights = .none) ∧
      ch.closed = (ch₀.closed || s.log.any fun e => e.channel == c && e.closing)) ∧
    pending c s.drainDirty.log = false ∧ pending c s.recomputeAllClients.log = false ∧
    (∀ before next closed after, s.log = before ++ .recomputed c next closed :: after →
      (closed = true ↔ next ≠ stored c ch₀.rights before)) ∧
    s.rightsChanges = s₀.rightsChanges + s.log.countP Event.closing := by
  obtain ⟨ch, htracks, hmarked⟩ := machine.exec_invariant
    (P := fun s => ∃ ch, Tracks ch₀ s₀.rightsChanges c s ch ∧ Marked c s)
    (fun _ _ _ => tracks_step) ⟨ch₀, hinit.tracks hlog⟩ hrun
  obtain ⟨-, -, hdrained⟩ := tracks_drainDirty htracks hmarked
  obtain ⟨-, -, hrecomputed⟩ := tracks_recomputeAllClients htracks
  refine ⟨⟨ch, htracks.channel, fun hpending => ?_, htracks.closed⟩, hdrained, hrecomputed,
    htracks.closings, htracks.changes⟩
  rw [htracks.rights, if_pos hpending]

/-- A channel with two identities and all rights, as it is when `initialize` has returned. -/
def freshChannel : Channel Bool where
  member := 0
  identities := [false, true]
  access := List.replicate 2 ⟨true, true, false⟩
  registered := 2
  stage := .added
  rights := { read := true, write := true }
  initialized := true

theorem rightsChange_failsClosed_revoked :
    ∃ s : State Bool, machine.exec { published := [0], channels := [freshChannel] }
        [.accessChanged 0 0 ⟨false, false, false⟩ true,
          .accessChanged 0 1 ⟨true, false, false⟩ false] = some s ∧
      pending 0 s.log = true ∧ pending 0 s.drainDirty.log = false := by
  obtain ⟨s, hs⟩ : ∃ s : State Bool, machine.exec { published := [0], channels := [freshChannel] }
      [.accessChanged 0 0 ⟨false, false, false⟩ true,
        .accessChanged 0 1 ⟨true, false, false⟩ false] = some s := ⟨_, rfl⟩
  refine ⟨s, hs, ?_, (rightsChange_failsClosed (c := 0)
    ⟨rfl, rfl, by decide, rfl, rfl⟩ rfl hs).2.1⟩
  cases hs
  rfl

end RightsChanges

end RedisPvxsIoc.Access
