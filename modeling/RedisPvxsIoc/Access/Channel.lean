import RedisPvxsIoc.Foundations.Machine

/-!
# Cached Rights of Connected Channels

Model of `ChannelState`, `drainDirty` and `recomputeAllClients` in `src/access_control.cpp`,
with the part of the access library that they rely on.  Channels are created on PVXS threads;
policy activations, host refreshes and drains run one after another on the application
thread.  A label is one access to shared memory: a check of a library client, one atomic
operation on a channel, or one locked section.

Of the library it is assumed that a client's access is the one that the policy in force grants
to its identity, except for the clients that a running `asInitMem` has not come to yet, and
that `asInitMem` calls the registered callback of every client whose access it changes.

A channel is created by one thread and published to its member only at the end
(`member->addClient`), so `recomputeAllClients` cannot see it before.
-/

namespace RedisPvxsIoc.Access

open Foundations

/-! ## Rights -/

/-- What the library holds for one client: `asCheckGet`, `asCheckPut` and the trap mask. -/
structure ClientAccess where
  get : Bool
  put : Bool
  trap : Bool
  deriving DecidableEq, Repr

/-- The cached rights, one flag each of `kRead`, `kWrite` and `kTrapWrite`. -/
structure Rights where
  read : Bool := false
  write : Bool := false
  trapWrite : Bool := false
  deriving DecidableEq, Repr

namespace Rights

def none : Rights := {}

def or (a b : Rights) : Rights :=
  { read := a.read || b.read
    write := a.write || b.write
    trapWrite := a.trapWrite || b.trapWrite }

/-- What one client contributes to the rights of its channel. -/
def ofClient (a : ClientAccess) : Rights :=
  { read := a.get, write := a.put, trapWrite := a.put && a.trap }

/-- The rights that a list of clients holds together. -/
def aggregate (clients : List ClientAccess) : Rights :=
  clients.foldl (fun rights a => rights.or (ofClient a)) none

end Rights

/-! ## Recomputation -/

/-- The next check of a client. -/
inductive Probe where
  | get | put | trap
  deriving DecidableEq, Repr

/-- Where `recompute` stands: in its loop at client `i`, or at one of the three atomic
    operations after it. -/
inductive Recompute where
  | reading (i : Nat) (probe : Probe) (next : Rights)
  | storing (next : Rights)
  | clearing (next current : Rights)
  | taking (next current : Rights)
  deriving DecidableEq, Repr

/-- `uint8_t next = 0u;` -/
def Recompute.start : Recompute := .reading 0 .get .none

/-- Where `initialize` stands; `added` when it has returned, `dead` when the channel is gone. -/
inductive Creation where
  | adding
  | registering (i : Nat)
  | recomputing (r : Recompute)
  | computed
  | initialized
  | added
  | dead
  deriving DecidableEq, Repr

abbrev MemberId := Nat
abbrev ChannelId := Nat

/-- A channel and its clients in the library. -/
structure Channel (Identity : Type) where
  member : MemberId
  identities : List Identity
  /-- The library's clients added so far, with the access that they hold. -/
  access : List ClientAccess := []
  /-- How many of them have a callback. -/
  registered : Nat := 0
  stage : Creation := .adding
  rights : Rights := {}
  rightsBeforeChange : Rights := {}
  dirty : Bool := false
  initialized : Bool := false
  closed : Bool := false
  deriving DecidableEq, Repr

variable {Policy Identity : Type}

/-- One step of `recompute(closeOnChange)`; `none` when it has returned. -/
def Recompute.step (ch : Channel Identity) (closeOnChange : Bool) :
    Recompute → Channel Identity × Option Recompute
  | .reading i .get next =>
    match ch.access[i]? with
    | none => (ch, some (.storing next))
    | some a => (ch, some (.reading i .put (next.or { read := a.get })))
  | .reading i .put next =>
    match ch.access[i]? with
    | none => (ch, some (.storing next))
    | some a =>
      if a.put then (ch, some (.reading i .trap (next.or { write := true })))
      else (ch, some (.reading (i + 1) .get next))
  | .reading i .trap next =>
    match ch.access[i]? with
    | none => (ch, some (.storing next))
    | some a => (ch, some (.reading (i + 1) .get (next.or { trapWrite := a.trap })))
  | .storing next => ({ ch with rights := next }, some (.clearing next ch.rights))
  | .clearing next current => ({ ch with dirty := false }, some (.taking next current))
  | .taking next current =>
    let prior := if ch.rightsBeforeChange ≠ Rights.none then ch.rightsBeforeChange else current
    ({ ch with
        rightsBeforeChange := {}
        closed := ch.closed || (closeOnChange && prior != next) }, none)

/-! ## Threads -/

/-- Where a call of `accessChanged` stands. -/
inductive Callback where
  | zeroing
  | saving (prior : Rights)
  | testing
  | marking
  deriving DecidableEq, Repr

/-- Work of the application thread: the clients of a member, a client held by `liveClients`, or
    a weak reference taken from the dirty list. -/
inductive Job where
  | member (m : MemberId)
  | held (c : ChannelId)
  | weak (c : ChannelId)
  deriving DecidableEq, Repr

/-- Where the application thread stands: inside `asInitMem`, in a callback of it, before a call
    of `recomputeAllClients`, or in one of the two loops. -/
inductive Pump where
  | idle
  | changing
  | callback (c : ChannelId) (stage : Callback)
  | activated
  | working (todo : List Job)
  | recomputing (c : ChannelId) (r : Recompute) (todo : List Job)
  deriving DecidableEq, Repr

structure State (Policy Identity : Type) where
  /-- The policy in force in the library. -/
  policy : Policy
  /-- The members of the published names. -/
  published : List MemberId
  channels : List (Channel Identity) := []
  /-- Channels in `dirty`, as weak references. -/
  dirty : List ChannelId := []
  recomputeNeeded : Bool := false
  pump : Pump := .idle
  deriving DecidableEq, Repr

namespace State

def setChannel (s : State Policy Identity) (c : ChannelId) (ch : Channel Identity) :
    State Policy Identity :=
  { s with channels := s.channels.set c ch }

/-- `liveClients` of a member: the channels that were added to it and still exist. -/
def liveClients (s : State Policy Identity) (m : MemberId) : List ChannelId :=
  (List.range s.channels.length).filter fun c =>
    (s.channels[c]?).any fun ch => ch.stage == .added && ch.member == m

/-- A weak reference can be locked. -/
def exists_ (s : State Policy Identity) (c : ChannelId) : Bool :=
  (s.channels[c]?).any fun ch => ch.stage != .dead

/-- The application thread holds a reference to the channel. -/
def holds (s : State Policy Identity) (c : ChannelId) : Bool :=
  match s.pump with
  | .callback c' _ => c' == c
  | .working todo => todo.contains (.held c)
  | .recomputing c' _ todo => c' == c || todo.contains (.held c)
  | _ => false

end State

section Steps

variable (grants : Policy → Identity → ClientAccess)

/-- The next step of `initialize`. -/
def State.create (s : State Policy Identity) (c : ChannelId) : Option (State Policy Identity) :=
  match s.channels[c]? with
  | none => none
  | some ch =>
    match ch.stage with
    | .adding =>
      match ch.identities[ch.access.length]? with
      | some identity =>
        some (s.setChannel c { ch with access := ch.access ++ [grants s.policy identity] })
      | none => some (s.setChannel c { ch with stage := .registering 0 })
    | .registering i =>
      -- the library calls the callback at once, which finds nothing to clear
      if i < ch.access.length then
        some (s.setChannel c { ch with registered := i + 1, stage := .registering (i + 1) })
      else some (s.setChannel c { ch with stage := .recomputing .start })
    | .recomputing r =>
      match r.step ch false with
      | (ch', some r') => some (s.setChannel c { ch' with stage := .recomputing r' })
      | (ch', none) => some (s.setChannel c { ch' with stage := .computed })
    | .computed => some (s.setChannel c { ch with initialized := true, stage := .initialized })
    | .initialized => some (s.setChannel c { ch with stage := .added })
    | .added => none
    | .dead => none

/-- The destructor, after a failed creation or when the connection is closed. -/
def State.destroy (s : State Policy Identity) (c : ChannelId) : Option (State Policy Identity) :=
  match s.channels[c]? with
  | none => none
  | some ch =>
    if s.holds c then none else some (s.setChannel c { ch with access := [], stage := .dead })

/-- `asInitMem` comes to client `i` of channel `c`, whose access changes. -/
def State.change (s : State Policy Identity) (c : ChannelId) (i : Nat) :
    Option (State Policy Identity) :=
  match s.channels[c]? with
  | none => none
  | some ch =>
    match ch.access[i]?, ch.identities[i]? with
    | some a, some identity =>
      if s.pump = .changing ∧ a ≠ grants s.policy identity then
        some { s.setChannel c { ch with access := ch.access.set i (grants s.policy identity) } with
          pump := if i < ch.registered then .callback c .zeroing else .changing }
      else none
    | _, _ => none

/-- Every client holds what the policy in force grants to its identity. -/
def Channel.settled (policy : Policy) (ch : Channel Identity) : Bool :=
  ch.access == (ch.identities.take ch.access.length).map (grants policy)

/-- `asInitMem` returns. -/
def State.finishInit (s : State Policy Identity) : Option (State Policy Identity) :=
  if s.pump = .changing ∧ s.channels.all (fun ch => ch.settled grants s.policy) then
    some { s with pump := .activated }
  else none

/-- `drainDirty` -/
def State.drainDirty (s : State Policy Identity) : State Policy Identity :=
  if s.recomputeNeeded then { s with recomputeNeeded := false, pump := .activated }
  else { s with dirty := [], pump := .working (s.dirty.map Job.weak) }

/-- The next step of `accessChanged`; `fails` when the dirty list cannot grow. -/
def State.accessChanged (s : State Policy Identity) (c : ChannelId) (ch : Channel Identity)
    (fails : Bool) : Callback → State Policy Identity
  | .zeroing =>
    { s.setChannel c { ch with rights := .none } with pump := .callback c (.saving ch.rights) }
  | .saving prior =>
    { s.setChannel c { ch with rightsBeforeChange := ch.rightsBeforeChange.or prior } with
      pump := .callback c .testing }
  | .testing => { s with pump := if ch.initialized then .callback c .marking else .changing }
  | .marking =>
    if ch.dirty then { s with pump := .changing }
    else
      let s' := s.setChannel c { ch with dirty := true }
      if fails then { s' with recomputeNeeded := true, pump := .changing }
      else { s' with dirty := s'.dirty ++ [c], pump := .changing }

/-- The next turn of the loops of `recomputeAllClients` and `drainDirty`. -/
def State.work (s : State Policy Identity) (job : Job) (todo : List Job) :
    State Policy Identity :=
  match job with
  | .member m => { s with pump := .working ((s.liveClients m).map Job.held ++ todo) }
  | .held c => { s with pump := if s.exists_ c then .recomputing c .start todo else .working todo }
  | .weak c => { s with pump := if s.exists_ c then .recomputing c .start todo else .working todo }

/-- The next step of the application thread inside a callback or a recomputation. -/
def State.advance (s : State Policy Identity) (fails : Bool) : Option (State Policy Identity) :=
  match s.pump with
  | .idle => none
  | .changing => none
  | .callback c stage => (s.channels[c]?).map fun ch => s.accessChanged c ch fails stage
  | .activated => some { s with dirty := [], pump := .working (s.published.map Job.member) }
  | .working [] => some { s with pump := .idle }
  | .working (job :: todo) => some (s.work job todo)
  | .recomputing c r todo =>
    (s.channels[c]?).map fun ch =>
      match r.step ch true with
      | (ch', some r') => { s.setChannel c ch' with pump := .recomputing c r' todo }
      | (ch', none) => { s.setChannel c ch' with pump := .working todo }

inductive Label (Policy Identity : Type) where
  | connect (member : MemberId) (identities : List Identity)
  | create (c : ChannelId)
  | destroy (c : ChannelId)
  | asInitMem (policy : Policy)
  | change (c : ChannelId) (i : Nat)
  | finishInit
  | recomputeAllClients
  | drainDirty
  | advance (fails : Bool)
  deriving DecidableEq, Repr

def step (s : State Policy Identity) :
    Label Policy Identity → Option (State Policy Identity)
  | .connect member identities =>
    some { s with channels := s.channels ++ [{ member := member, identities := identities }] }
  | .create c => s.create grants c
  | .destroy c => s.destroy c
  | .asInitMem policy =>
    if s.pump = .idle then some { s with policy := policy, pump := .changing } else none
  | .change c i => s.change grants c i
  | .finishInit => s.finishInit grants
  | .recomputeAllClients => if s.pump = .idle then some { s with pump := .activated } else none
  | .drainDirty => if s.pump = .idle then some s.drainDirty else none
  | .advance fails => s.advance fails

/-- Any policy and any set of published members, before the first connection. -/
def machine :
    Machine (State Policy Identity) (Label Policy Identity) where
  start s := ∃ policy published, s = { policy := policy, published := published }
  step := step grants

end Steps

end RedisPvxsIoc.Access
