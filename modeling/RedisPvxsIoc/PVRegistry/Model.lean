import RedisPvxsIoc.Config.Types
import RedisPvxsIoc.Foundations.Machine

/-!
# The Endpoint Registry

Model of `src/pv_registry.cpp`.  Registrations and snapshots are heap objects that
several owners share and that the code compares by address, so both live in tables and
are referred to by their index; an index is never handed out twice, just as an address
is not reused while a `Prepared` object still refers to it.

`prepare` reads the shared state in one atomic load, and what it builds belongs to the
caller.  `publish` runs under `publishMutex`; its sections are

- `enter`: take the mutex and compare the snapshots
- `answer`: the `beforeCommit` callback returns
- `retire`: one turn of the loop that clears `active`
- `store`: replace the current snapshot and release the mutex

`clear` is `prepare` of no bindings followed by `publish` with no callback, and `publish`
as a whole is `Impl.publish`.
-/

namespace RedisPvxsIoc.PVRegistry

open Foundations Config

/-! ## Data -/

abbrev RegId := Nat
abbrev SnapId := Nat
abbrev PrepId := Nat

/-- An empty `SharedPV` and a null owner are `none`. -/
structure PVBinding where
  pv : Option Nat
  owner : Option Nat
  access : AccessAssignment := {}
  deriving DecidableEq, Repr

abbrev PVBindings := FinMap String PVBinding
/-- A wrapper is known by the object it captures. -/
abbrev Wrappers := FinMap String Nat

structure Registration where
  binding : PVBinding
  wrapper : Option Nat
  active : Bool := true
  /-- Ghost: the snapshot it was built for. -/
  born : SnapId
  deriving DecidableEq, Repr

instance : Inhabited Registration := ⟨⟨⟨none, none, {}⟩, none, true, 0⟩⟩

structure Snapshot where
  entries : FinMap String RegId := ∅
  names : List String := []

instance : Inhabited Snapshot := ⟨{}⟩

structure Prepared where
  previous : SnapId
  next : SnapId
  retiring : List RegId
  deriving DecidableEq, Repr

/-- Who holds `publishMutex`, and how far it is: waiting for `beforeCommit`, or in the
    loop over `retiring` with some flags cleared and the rest still to be. -/
inductive Publisher where
  | idle
  | asking (p : PrepId)
  | retiring (p : PrepId) (cleared rest : List RegId)
  deriving DecidableEq, Repr

/-- The registry together with the `Prepared` objects its callers hold. -/
structure Impl where
  registrations : RegId → Registration := fun _ => default
  nextReg : RegId := 0
  snapshots : SnapId → Snapshot := fun _ => {}
  nextSnap : SnapId := 1
  current : SnapId := 0
  prepared : List Prepared := []
  publisher : Publisher := .idle
  /-- Ghost: the snapshots that have been current. -/
  history : List SnapId := [0]
  /-- Ghost: the preparations that were published, in order. -/
  published : List PrepId := []
  /-- Ghost: what the calls of `publish` returned. -/
  returned : List (PrepId × Bool) := []

/-! ## `prepare` -/

/-- What the loop of `prepare` has built so far. -/
structure Building where
  registrations : RegId → Registration
  nextReg : RegId
  next : Snapshot := {}

def validBinding (name : String) (binding : PVBinding) : Bool :=
  !name.toList.isEmpty && !name.toList.contains '\x00' && binding.pv.isSome && binding.owner.isSome

/-- `registration` gets the requested binding and the wrapper of its name. -/
def Building.create (acc : Building) (born : SnapId) (wrappers : Wrappers) (name : String)
    (binding : PVBinding) : Building :=
  { registrations := Function.update acc.registrations acc.nextReg
      { binding := binding, wrapper := wrappers.find? name, born := born }
    nextReg := acc.nextReg + 1
    next := {
      entries := acc.next.entries.emplace name acc.nextReg
      names := acc.next.names ++ [name] } }

def Building.keep (acc : Building) (name : String) (old : RegId) : Building :=
  { acc with next := {
      entries := acc.next.entries.emplace name old
      names := acc.next.names ++ [name] } }

/-- One turn of the loop over the desired bindings. -/
def prepareEntry (previous : Snapshot) (born : SnapId) (wrappers : Wrappers) (acc : Building)
    (entry : String × PVBinding) : Except String Building :=
  let (name, binding) := entry
  if validBinding name binding then
    match previous.entries.find? name with
    | some old =>
      let before := (acc.registrations old).binding
      if before.owner = binding.owner ∧ sameAccessAssignment before.access binding.access then
        .ok (acc.keep name old)
      else .ok (acc.create born wrappers name binding)
    | none => .ok (acc.create born wrappers name binding)
  else .error ("invalid endpoint binding: " ++ name)

/-- The registrations of `previous` that `next` does not keep under their name. -/
def retiringOf (previous next : Snapshot) : List RegId :=
  previous.entries.entries.filterMap fun entry =>
    if next.entries.find? entry.1 = some entry.2 then none else some entry.2

namespace Impl

def prepare (s : Impl) (desired : PVBindings) (wrappers : Wrappers) :
    Except String (Impl × PrepId) := do
  let previous := s.snapshots s.current
  let built ← desired.entries.foldlM (prepareEntry previous s.nextSnap wrappers)
    { registrations := s.registrations, nextReg := s.nextReg }
  return ({ s with
    registrations := built.registrations
    nextReg := built.nextReg
    snapshots := Function.update s.snapshots s.nextSnap built.next
    nextSnap := s.nextSnap + 1
    prepared := s.prepared ++ [{
      previous := s.current
      next := s.nextSnap
      retiring := retiringOf previous built.next }] }, s.prepared.length)

/-! ## `publish` -/

/-- The preparation is there and was made from the current snapshot. -/
def fresh (s : Impl) (p : PrepId) : Bool :=
  match s.prepared[p]? with
  | some prepared => prepared.previous == s.current
  | none => false

/-- A call of `publish` returns. -/
def reply (s : Impl) (p : PrepId) (result : Bool) : Impl :=
  { s with publisher := .idle, returned := s.returned ++ [(p, result)] }

def enter (s : Impl) (p : PrepId) : Option Impl :=
  match s.publisher with
  | .idle => if s.fresh p then some { s with publisher := .asking p } else some (s.reply p false)
  | _ => none

/-- `beforeCommit` returns `ok`; without a callback the answer is `true`. -/
def answer (s : Impl) (ok : Bool) : Option Impl :=
  match s.publisher with
  | .asking p =>
    if ok then
      some { s with publisher := .retiring p [] ((s.prepared[p]?.map Prepared.retiring).getD []) }
    else some (s.reply p false)
  | _ => none

/-- `registration->active = false` -/
def deactivate (s : Impl) (r : RegId) : Impl :=
  { s with registrations :=
      Function.update s.registrations r { s.registrations r with active := false } }

def retire (s : Impl) : Option Impl :=
  match s.publisher with
  | .retiring p cleared (r :: rest) =>
    some { s.deactivate r with publisher := .retiring p (cleared ++ [r]) rest }
  | _ => none

def store (s : Impl) : Option Impl :=
  match s.publisher with
  | .retiring p _ [] => do
    let prepared ← s.prepared[p]?
    return { s.reply p true with
      current := prepared.next
      history := prepared.next :: s.history
      published := s.published ++ [p] }
  | _ => none

/-- A whole call of `publish` by a caller that is not disturbed. -/
def publish (s : Impl) (p : PrepId) (ok : Bool) : Impl × Bool :=
  match s.prepared[p]? with
  | some prepared =>
    if prepared.previous = s.current ∧ ok then
      ({ (prepared.retiring.foldl deactivate s).reply p true with
        current := prepared.next
        history := prepared.next :: s.history
        published := s.published ++ [p] }, true)
    else (s.reply p false, false)
  | none => (s.reply p false, false)

end Impl

/-! ## The machine -/

inductive Label where
  | prepare (desired : PVBindings) (wrappers : Wrappers)
  /-- The first half of `clear`; the second is an ordinary publication. -/
  | clearPrepare
  | enter (p : PrepId)
  | answer (ok : Bool)
  | retire
  | store

/-- A `prepare` that throws leaves nothing behind. -/
def Impl.prepareStep (s : Impl) (desired : PVBindings) (wrappers : Wrappers) : Impl :=
  match s.prepare desired wrappers with
  | .ok (s', _) => s'
  | .error _ => s

def step (s : Impl) : Label → Option Impl
  | .prepare desired wrappers => some (s.prepareStep desired wrappers)
  | .clearPrepare => some (s.prepareStep ∅ ∅)
  | .enter p => s.enter p
  | .answer ok => s.answer ok
  | .retire => s.retire
  | .store => s.store

def machine : Machine Impl Label where
  start s := s = {}
  step := step

end RedisPvxsIoc.PVRegistry
