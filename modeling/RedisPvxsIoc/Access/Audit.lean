import RedisPvxsIoc.Access.Channel
import Mathlib.Data.List.Perm.Subperm

/-!
# The Audit Trail of Authorized Operations

Model of `AccessOperation` and `AuthorizedExecOp` in `src/access_control.cpp`.  An
operation is admitted with the rights its channel has cached and is completed by whoever
comes first: the client that cancels, the handler that replies, fails or lets go of it, or
the check right before the dispatch when the rights have been revoked in the meantime.

Any number of threads call into any number of operations.  `claim` is one atomic exchange,
and the thread that wins it goes on alone: to `complete`, or, in a dispatch denial, first to
the denial record.  A thread that is between two such steps is not `idle`.

Records are written to the error stream in the order of `audit`; a record that is lost
because the text cannot be allocated, and the rate limit of the separate denial diagnostic,
are not part of this machine.

## Main results

- `exactness_reachable`: how far each operation is, and what is on record for it
- `audit_exact`: the audit trail and the counters are exact
-/

namespace RedisPvxsIoc.Access.Audit

open Foundations

/-! ## Records -/

/-- The texts `"put"` and `"rpc"`. -/
inductive Kind where
  | put | rpc
  deriving DecidableEq, Repr

inductive Outcome where
  | success | error | cancelled | denied | abandoned
  deriving DecidableEq, Repr

inductive Phase where
  | authorization | completion
  deriving DecidableEq, Repr

/-- The text after `result=`; a denial reads the same in both phases. -/
inductive Result where
  | allowed
  | of (outcome : Outcome)
  deriving DecidableEq, Repr

/-- `value = none` is the preview `<omitted>`. -/
structure Record (Value : Type) where
  id : Nat
  operation : Kind
  phase : Phase
  result : Result
  value : Option Value
  deriving DecidableEq, Repr

/-- `AccessOperation`; `trap` says whether it is audited. -/
structure Operation where
  operation : Kind
  trap : Bool
  id : Nat
  done : Bool := false
  deriving DecidableEq, Repr

variable {Value : Type}

/-- The counters of `AccessController::Impl` and what it has written. -/
structure Owner (Value : Type) where
  authorizedOperations : Nat := 0
  operationsInFlight : Nat := 0
  operationsSucceeded : Nat := 0
  operationsFailed : Nat := 0
  operationsCancelled : Nat := 0
  operationsDenied : Nat := 0
  operationsAbandoned : Nat := 0
  deniedWrites : Nat := 0
  audit : List (Record Value) := []

namespace Owner

def recordAudit (owner : Owner Value) (record : Record Value) : Owner Value :=
  { owner with audit := owner.audit ++ [record] }

/-- The payload of an RPC is not previewed. -/
def preview (operation : Kind) (value : Value) : Option Value :=
  match operation with
  | .rpc => none
  | .put => some value

/-- `recordDenied` for a write; `id` is zero for a request that was never admitted. -/
def recordDenied (owner : Owner Value) (operation : Kind) (value : Value) (id : Nat) :
    Owner Value :=
  { owner with deniedWrites := owner.deniedWrites + 1 }.recordAudit {
    id := id
    operation := operation
    phase := .authorization
    result := .of .denied
    value := preview operation value }

/-- The counters part of `complete`. -/
def count (owner : Owner Value) (outcome : Outcome) : Owner Value :=
  let owner := { owner with operationsInFlight := owner.operationsInFlight - 1 }
  match outcome with
  | .success => { owner with operationsSucceeded := owner.operationsSucceeded + 1 }
  | .error => { owner with operationsFailed := owner.operationsFailed + 1 }
  | .cancelled => { owner with operationsCancelled := owner.operationsCancelled + 1 }
  | .denied => { owner with operationsDenied := owner.operationsDenied + 1 }
  | .abandoned => { owner with operationsAbandoned := owner.operationsAbandoned + 1 }

/-- `complete` -/
def complete (owner : Owner Value) (op : Operation) (outcome : Outcome) : Owner Value :=
  let owner := owner.count outcome
  if op.trap then
    owner.recordAudit {
      id := op.id
      operation := op.operation
      phase := .completion
      result := .of outcome
      value := none }
  else owner

/-- The constructor of `AccessOperation`. -/
def construct (owner : Owner Value) (operation : Kind) (audited : Bool) (value : Value) :
    Owner Value × Operation :=
  let id := owner.authorizedOperations + 1
  let owner := { owner with
    authorizedOperations := id
    operationsInFlight := owner.operationsInFlight + 1 }
  let owner := if audited then
      owner.recordAudit {
        id := id
        operation := operation
        phase := .authorization
        result := .allowed
        value := preview operation value }
    else owner
  (owner, { operation := operation, trap := audited, id := id })

end Owner

/-! ## Threads -/

abbrev ThreadId := Nat

/-- Where a thread is: outside, about to write a denial record, or about to complete the
    operation that it has claimed.  In `denying`, `claimed` is the local variable `open`. -/
inductive Position (Value : Type) where
  | idle
  | denying (i : Nat) (claimed : Bool) (value : Value)
  | completing (i : Nat) (outcome : Outcome)
  deriving DecidableEq, Repr

structure State (Value : Type) where
  owner : Owner Value := {}
  operations : List Operation := []
  threads : ThreadId → Position Value := fun _ => .idle
  /-- Ghost: the calls of `complete`, in order. -/
  completions : List (Nat × Outcome) := []
  /-- Ghost: what the checks before the dispatch have answered. -/
  answers : List (Nat × Bool) := []

namespace State

def setThread (s : State Value) (t : ThreadId) (position : Position Value) : State Value :=
  { s with threads := Function.update s.threads t position }

/-- `done.exchange(true)` -/
def setDone (s : State Value) (i : Nat) (op : Operation) : State Value :=
  { s with operations := s.operations.set i { op with done := true } }

/-- A `PUT` or an `RPC` arrives and finds the rights of its channel. -/
def arrive (s : State Value) (operation : Kind) (rights : Rights) (value : Value) : State Value :=
  if !rights.write then { s with owner := s.owner.recordDenied operation value 0 }
  else
    let (owner, op) := s.owner.construct operation rights.trapWrite value
    { s with owner := owner, operations := s.operations ++ [op] }

/-- `finish` up to the claim; a thread that loses it returns. -/
def finish (s : State Value) (t : ThreadId) (i : Nat) (outcome : Outcome) :
    Option (State Value) :=
  match s.threads t, s.operations[i]? with
  | .idle, some op =>
    if op.done then some s else some ((s.setDone i op).setThread t (.completing i outcome))
  | _, _ => none

/-- `authorized` up to the claim; `target` is the answer of the operation that is wrapped. -/
def authorized (s : State Value) (t : ThreadId) (i : Nat) (rights : Rights) (target : Bool)
    (value : Value) : Option (State Value) :=
  match s.threads t, s.operations[i]? with
  | .idle, some op =>
    if rights.write then some { s with answers := s.answers ++ [(i, target)] }
    else if op.done then some (s.setThread t (.denying i false value))
    else some ((s.setDone i op).setThread t (.denying i true value))
  | _, _ => none

/-- The call of `recordDenied` in `authorized`. -/
def recordDenied (s : State Value) (t : ThreadId) : Option (State Value) :=
  match s.threads t with
  | .denying i claimed value =>
    match s.operations[i]? with
    | some op =>
      let s := { s with owner :=
        s.owner.recordDenied op.operation value (if claimed && op.trap then op.id else 0) }
      if claimed then some (s.setThread t (.completing i .denied))
      else some { s.setThread t .idle with answers := s.answers ++ [(i, false)] }
    | none => none
  | _ => none

def complete (s : State Value) (t : ThreadId) : Option (State Value) :=
  match s.threads t with
  | .completing i outcome =>
    match s.operations[i]? with
    | some op =>
      some { s.setThread t .idle with
        owner := s.owner.complete op outcome
        completions := s.completions ++ [(i, outcome)]
        answers := if outcome = .denied then s.answers ++ [(i, false)] else s.answers }
    | none => none
  | _ => none

end State

/-! ## The machine -/

inductive Label (Value : Type) where
  | arrive (operation : Kind) (rights : Rights) (value : Value)
  /-- The client cancels: the callback given to `onCancel`. -/
  | cancel (t : ThreadId) (i : Nat)
  | reply (t : ThreadId) (i : Nat)
  | error (t : ThreadId) (i : Nat)
  /-- A destructor runs, that of the wrapper or later that of the operation. -/
  | destroy (t : ThreadId) (i : Nat)
  | authorized (t : ThreadId) (i : Nat) (rights : Rights) (target : Bool) (value : Value)
  | recordDenied (t : ThreadId)
  | complete (t : ThreadId)
  deriving DecidableEq, Repr

def step (s : State Value) : Label Value → Option (State Value)
  | .arrive operation rights value => some (s.arrive operation rights value)
  | .cancel t i => s.finish t i .cancelled
  | .reply t i => s.finish t i .success
  | .error t i => s.finish t i .error
  | .destroy t i => s.finish t i .abandoned
  | .authorized t i rights target value => s.authorized t i rights target value
  | .recordDenied t => s.recordDenied t
  | .complete t => s.complete t

def machine : Machine (State Value) (Label Value) where
  start s := s = {}
  step := step

/-! ## What is on record for an operation -/

/-- The records that carry an identifier. -/
def records (audit : List (Record Value)) (id : Nat) : List (Phase × Result) :=
  (audit.filter fun r => r.id = id).map fun r => (r.phase, r.result)

/-- What should be on record: the admission, a denial, and the completion. -/
def trail (op : Operation) (denied : Bool) (outcome : Option Outcome) : List (Phase × Result) :=
  if op.trap then
    (.authorization, .allowed) ::
      ((if denied then [(.authorization, .of .denied)] else []) ++
        outcome.toList.map fun o => (.completion, .of o))
  else []

namespace Position

/-- The thread has claimed operation `i` and not completed it yet. -/
def claims (i : Nat) : Position Value → Bool
  | .idle => false
  | .denying j claimed _ => claimed && j == i
  | .completing j _ => j == i

/-- The claim was that of a denial, and the denial is on record. -/
def denialRecorded : Position Value → Bool
  | .completing _ outcome => outcome == .denied
  | _ => false

/-- The operation that the thread is busy with. -/
def target : Position Value → Option Nat
  | .idle => none
  | .denying i _ _ => some i
  | .completing i _ => some i

end Position

/-- How far an operation is: open, claimed by one thread, or completed. -/
inductive Progress (s : State Value) (i : Nat) (op : Operation) : Prop where
  | opened (done : op.done = false) (free : ∀ t, (s.threads t).claims i = false)
      (never : i ∉ s.completions.map Prod.fst)
      (record : records s.owner.audit op.id = trail op false none)
  | claimed (t : ThreadId) (done : op.done = true) (mine : (s.threads t).claims i = true)
      (only : ∀ t', (s.threads t').claims i = true → t' = t)
      (never : i ∉ s.completions.map Prod.fst)
      (record : records s.owner.audit op.id = trail op (s.threads t).denialRecorded none)
  | completed (outcome : Outcome) (done : op.done = true)
      (free : ∀ t, (s.threads t).claims i = false)
      (once : s.completions.filter (fun e => e.1 = i) = [(i, outcome)])
      (record : records s.owner.audit op.id = trail op (outcome == .denied) (some outcome))

/-- The operations that are over, by the counters. -/
def Owner.ended (owner : Owner Value) : Nat :=
  owner.operationsSucceeded + owner.operationsFailed + owner.operationsCancelled +
    owner.operationsAbandoned + owner.operationsDenied

structure Exactness (s : State Value) : Prop where
  count : s.owner.authorizedOperations = s.operations.length
  ids : ∀ i op, s.operations[i]? = some op → op.id = i + 1
  bound : ∀ r ∈ s.owner.audit, r.id ≤ s.owner.authorizedOperations
  busy : ∀ t i, (s.threads t).target = some i → i < s.operations.length
  progress : ∀ i op, s.operations[i]? = some op → Progress s i op
  nodup : (s.completions.map Prod.fst).Nodup
  range : ∀ i ∈ s.completions.map Prod.fst, i < s.operations.length
  inFlight : s.owner.operationsInFlight + s.completions.length = s.operations.length
  outcomes : s.owner.ended = s.completions.length

/-! ### Small facts -/

theorem records_append (audit : List (Record Value)) (r : Record Value) (id : Nat) :
    records (audit ++ [r]) id = records audit id ++
      if r.id = id then [(r.phase, r.result)] else [] := by
  unfold records
  rw [List.filter_append, List.map_append]
  by_cases hid : r.id = id <;> simp [hid]

theorem records_append_ne (audit : List (Record Value)) {r : Record Value} {id : Nat}
    (h : r.id ≠ id) : records (audit ++ [r]) id = records audit id := by
  rw [records_append, if_neg h, List.append_nil]

theorem records_eq_nil {audit : List (Record Value)} {id : Nat} (h : ∀ r ∈ audit, r.id < id) :
    records audit id = [] := by
  unfold records
  rw [List.map_eq_nil_iff, List.filter_eq_nil_iff]
  intro r hr
  simpa using Nat.ne_of_lt (h r hr)

variable {i : Nat} {position : Position Value}

theorem claims_eq_false (h : position.target ≠ some i) :
    position.claims i = false := by
  cases position with
  | idle => rfl
  | denying j claimed value =>
    have hne : (j == i) = false := by simpa [Position.target] using h
    simp [Position.claims, hne]
  | completing j outcome => simpa [Position.claims, Position.target] using h

variable {s s' : State Value} {op : Operation}

/-- Progress is about the threads, the completions and the records; the other fields of the
    state do not matter. -/
theorem Progress.congr (h : Progress s i op)
    (hthreads : ∀ t, (s'.threads t).claims i = (s.threads t).claims i ∧
      ((s.threads t).claims i = true →
        (s'.threads t).denialRecorded = (s.threads t).denialRecorded))
    (hcompletions : s'.completions.filter (fun e => e.1 = i) =
      s.completions.filter (fun e => e.1 = i))
    (hrecords : records s'.owner.audit op.id = records s.owner.audit op.id) : Progress s' i op := by
  have hnever : i ∉ s.completions.map Prod.fst → i ∉ s'.completions.map Prod.fst := by
    intro hnot hmem
    obtain ⟨e, he, rfl⟩ := List.mem_map.mp hmem
    have hin : e ∈ s'.completions.filter (fun e' => e'.1 = e.1) := by simp [he]
    rw [hcompletions] at hin
    exact hnot (List.mem_map.mpr ⟨e, (List.mem_filter.mp hin).1, rfl⟩)
  cases h with
  | opened done free never record =>
    exact .opened done (fun t => (hthreads t).1.trans (free t)) (hnever never)
      (hrecords.trans record)
  | claimed t done mine only never record =>
    refine .claimed t done ((hthreads t).1.trans mine) ?_ (hnever never) ?_
    · intro t' ht'
      exact only t' ((hthreads t').1.symm.trans ht')
    · rw [hrecords, record, (hthreads t).2 mine]
  | completed outcome done free once record =>
    exact .completed outcome done (fun t => (hthreads t).1.trans (free t))
      (hcompletions.trans once) (hrecords.trans record)

/-- A thread that is busy with another operation, before and after, does not matter. -/
theorem Progress.other (h : Progress s i op) (t : ThreadId) (position : Position Value)
    (hthreads : s'.threads = Function.update s.threads t position)
    (hbefore : (s.threads t).target ≠ some i) (hafter : position.target ≠ some i)
    (hcompletions : s'.completions.filter (fun e => e.1 = i) =
      s.completions.filter (fun e => e.1 = i))
    (hrecords : records s'.owner.audit op.id = records s.owner.audit op.id) :
    Progress s' i op := by
  refine h.congr ?_ hcompletions hrecords
  intro t'
  rw [hthreads]
  by_cases heq : t' = t
  · subst heq
    rw [Function.update_self, claims_eq_false hbefore, claims_eq_false hafter]
    exact ⟨rfl, fun hfalse => by cases hfalse⟩
  · rw [Function.update_of_ne heq]
    exact ⟨rfl, fun _ => rfl⟩

/-! ### The steps -/

variable {t : ThreadId} {outcome : Outcome}

theorem exactness_start : Exactness ({} : State Value) := by
  refine ⟨rfl, ?_, ?_, ?_, ?_, List.nodup_nil, ?_, rfl, rfl⟩ <;> simp [Position.target]

theorem getElem?_concat {α : Type*} {l : List α} {a x : α} (h : (l ++ [a])[i]? = some x) :
    l[i]? = some x ∨ i = l.length ∧ a = x := by
  grind

theorem Exactness.lt_length (hs : Exactness s) (hop : s.operations[i]? = some op) :
    op.id ≤ s.owner.authorizedOperations ∧ i < s.operations.length := by
  have hlt := (List.getElem?_eq_some_iff.mp hop).1
  rw [hs.ids i op hop, hs.count]
  exact ⟨hlt, hlt⟩

/-- One more record: it is about an operation that exists, or about none. -/
theorem Exactness.bound_append (hs : Exactness s) {r : Record Value}
    (hr : r.id ≤ s.owner.authorizedOperations) :
    ∀ r' ∈ s.owner.audit ++ [r], r'.id ≤ s.owner.authorizedOperations :=
  List.forall_mem_append.mpr ⟨hs.bound, List.forall_mem_singleton.mpr hr⟩

/-- What a thread is busy with exists, also after one thread has moved. -/
theorem Exactness.busy_update (hs : Exactness s)
    (htarget : ∀ j, position.target = some j → j < s.operations.length) (t' : ThreadId) (j : Nat)
    (h : (Function.update s.threads t position t').target = some j) :
    j < s.operations.length := by
  grind [Function.update_apply, hs.busy]

theorem construct_spec (hs : Exactness s) (operation : Kind) (audited : Bool) (value : Value) :
    let out := s.owner.construct operation audited value
    let id := s.owner.authorizedOperations + 1
    (out.2.id = id ∧ out.2.done = false) ∧ out.1.authorizedOperations = id ∧
    out.1.operationsInFlight = s.owner.operationsInFlight + 1 ∧ out.1.ended = s.owner.ended ∧
    (∀ r ∈ out.1.audit, r.id ≤ id) ∧
    (∀ id' < id, records out.1.audit id' = records s.owner.audit id') ∧
    records out.1.audit out.2.id = trail out.2 false none := by
  have hnil : records s.owner.audit (s.owner.authorizedOperations + 1) = [] :=
    records_eq_nil fun r hr => Nat.lt_succ_of_le (hs.bound r hr)
  have hbound : ∀ r ∈ s.owner.audit, r.id ≤ s.owner.authorizedOperations + 1 :=
    fun r hr => (hs.bound r hr).trans (Nat.le_succ _)
  unfold Owner.construct
  dsimp only
  cases audited with
  | false => exact ⟨⟨rfl, rfl⟩, rfl, rfl, rfl, hbound, fun _ _ => rfl, hnil⟩
  | true =>
    refine ⟨⟨rfl, rfl⟩, rfl, rfl, rfl, ?_, ?_, ?_⟩
    · exact List.forall_mem_append.mpr ⟨hbound, List.forall_mem_singleton.mpr le_rfl⟩
    · intro id' hlt
      exact records_append_ne _ (Nat.ne_of_gt hlt)
    · show records (s.owner.audit ++ [_]) _ = _
      rw [records_append, hnil]
      simp [trail]

theorem exactness_arrive (hs : Exactness s) (operation : Kind) (rights : Rights) (value : Value) :
    Exactness (s.arrive operation rights value) := by
  unfold State.arrive
  split
  · -- refused at admission: one more record, with no identifier
    refine ⟨hs.count, hs.ids, hs.bound_append (Nat.zero_le _), hs.busy, ?_, hs.nodup, hs.range,
      hs.inFlight, hs.outcomes⟩
    intro i op hop
    refine (hs.progress i op hop).congr (fun t => ⟨rfl, fun _ => rfl⟩) rfl ?_
    refine records_append_ne _ ?_
    rw [hs.ids i op hop]
    exact (Nat.succ_ne_zero i).symm
  · obtain ⟨hop, hauthorized, hflight, houtcomes, hbound, hold, hnew⟩ :=
      construct_spec hs operation rights.trapWrite value
    generalize s.owner.construct operation rights.trapWrite value = out at *
    obtain ⟨owner, op⟩ := out
    dsimp only at *
    have hlength : (s.operations ++ [op]).length = s.operations.length + 1 := by simp
    refine ⟨?_, ?_, hauthorized ▸ hbound, ?_, ?_, hs.nodup, ?_, ?_, houtcomes.trans hs.outcomes⟩
    · rw [hauthorized, hs.count, hlength]
    · intro i op' hop'
      rcases getElem?_concat hop' with hop' | ⟨rfl, rfl⟩
      · exact hs.ids i op' hop'
      · rw [hop.1, hs.count]
    · intro t i ht
      exact hlength ▸ Nat.lt_succ_of_lt (hs.busy t i ht)
    · intro i op' hop'
      rcases getElem?_concat hop' with hop' | ⟨rfl, rfl⟩
      · refine (hs.progress i op' hop').congr (fun t => ⟨rfl, fun _ => rfl⟩) rfl ?_
        exact hold _ (Nat.lt_succ_of_le (hs.lt_length hop').1)
      · refine .opened hop.2 ?_ ?_ hnew
        · intro t
          exact claims_eq_false fun ht => Nat.lt_irrefl _ (hs.busy t _ ht)
        · exact fun hmem => Nat.lt_irrefl _ (hs.range _ hmem)
    · intro i hi
      exact hlength ▸ Nat.lt_succ_of_lt (hs.range i hi)
    · have hbefore := hs.inFlight
      rw [hflight, hlength]
      dsimp only
      omega

/-- A thread wins the claim and goes on to `position`. -/
theorem exactness_claim (hs : Exactness s) (hidle : s.threads t = .idle)
    (hop : s.operations[i]? = some op) (hopen : op.done = false)
    (hclaims : position.claims i = true) (hrecorded : position.denialRecorded = false)
    (htarget : position.target = some i) :
    Exactness ((s.setDone i op).setThread t position) := by
  have hset : ∀ j op', (s.operations.set i { op with done := true })[j]? = some op' →
      (j = i ∧ op' = { op with done := true }) ∨ (j ≠ i ∧ s.operations[j]? = some op') := by
    grind
  have hlength : ((s.setDone i op).setThread t position).operations.length =
      s.operations.length := List.length_set
  refine ⟨hs.count.trans hlength.symm, ?_, hs.bound, ?_, ?_, hs.nodup, hlength ▸ hs.range,
    hs.inFlight.trans hlength.symm, hs.outcomes⟩
  · intro j op' hj
    rcases hset j op' hj with ⟨rfl, rfl⟩ | ⟨-, hold⟩
    · exact hs.ids j op hop
    · exact hs.ids j op' hold
  · rw [hlength]
    refine hs.busy_update fun j hj => ?_
    rw [htarget] at hj
    exact Option.some.inj hj ▸ (hs.lt_length hop).2
  · intro j op' hj
    rcases hset j op' hj with ⟨rfl, rfl⟩ | ⟨hne, hold⟩
    · -- the operation was open, so nobody else has a claim on it
      cases hs.progress j op hop with
      | opened _ free never record =>
        refine .claimed t rfl ?_ ?_ never ?_
        · simpa [State.setThread] using hclaims
        · intro t' ht'
          by_contra hother
          simp [State.setThread, State.setDone, hother, free t'] at ht'
        · simpa [State.setThread, State.setDone, hrecorded, trail] using record
      | claimed _ done | completed _ done => rw [hopen] at done; cases done
    · refine (hs.progress j op' hold).other t position rfl ?_ ?_ rfl rfl
      · simp [hidle, Position.target]
      · rw [htarget]
        exact fun heq => hne (Option.some.inj heq).symm

/-- A thread that has no claim moves to where it has none. -/
theorem exactness_move (hs : Exactness s) (hbefore : ∀ i, (s.threads t).claims i = false)
    (hafter : ∀ i, position.claims i = false)
    (htarget : ∀ i, position.target = some i → i < s.operations.length) :
    Exactness (s.setThread t position) := by
  refine ⟨hs.count, hs.ids, hs.bound, hs.busy_update htarget, ?_, hs.nodup, hs.range, hs.inFlight,
    hs.outcomes⟩
  intro i op hop
  refine (hs.progress i op hop).congr (fun t' => ?_) rfl rfl
  by_cases heq : t' = t
  · subst heq
    simp [State.setThread, hbefore i, hafter i]
  · simp [State.setThread, heq]

/-- Ghost answers do not matter. -/
theorem exactness_answers (hs : Exactness s) (answers : List (Nat × Bool)) :
    Exactness { s with answers := answers } := by
  refine ⟨hs.count, hs.ids, hs.bound, hs.busy, ?_, hs.nodup, hs.range, hs.inFlight, hs.outcomes⟩
  intro i op hop
  exact (hs.progress i op hop).congr (fun t => ⟨rfl, fun _ => rfl⟩) rfl rfl

theorem finish_cases (h : s.finish t i outcome = some s') :
    ∃ op, s.threads t = .idle ∧ s.operations[i]? = some op ∧
      (op.done = true ∧ s' = s ∨
        op.done = false ∧ s' = (s.setDone i op).setThread t (.completing i outcome)) := by
  grind [State.finish]

theorem exactness_finish (hs : Exactness s) (hne : outcome ≠ .denied)
    (h : s.finish t i outcome = some s') : Exactness s' := by
  obtain ⟨op, hidle, hop, ⟨-, rfl⟩ | ⟨hopen, rfl⟩⟩ := finish_cases h
  · exact hs
  · exact exactness_claim hs hidle hop hopen (by simp [Position.claims])
      (by simpa [Position.denialRecorded] using hne) rfl

variable {rights : Rights} {target : Bool} {value : Value}

theorem authorized_cases (h : s.authorized t i rights target value = some s') :
    ∃ op, s.threads t = .idle ∧ s.operations[i]? = some op ∧
      (s' = { s with answers := s.answers ++ [(i, target)] } ∨
        s' = s.setThread t (.denying i false value) ∨
        op.done = false ∧ s' = (s.setDone i op).setThread t (.denying i true value)) := by
  grind [State.authorized]

theorem exactness_authorized (hs : Exactness s)
    (h : s.authorized t i rights target value = some s') : Exactness s' := by
  obtain ⟨op, hidle, hop, rfl | rfl | ⟨hopen, rfl⟩⟩ := authorized_cases h
  · exact exactness_answers hs _
  · refine exactness_move hs (fun j => by rw [hidle]; rfl) (fun j => rfl) ?_
    rintro j ⟨rfl⟩
    exact (hs.lt_length hop).2
  · exact exactness_claim hs hidle hop hopen (by simp [Position.claims]) rfl rfl

/-- The operation that a thread is busy with exists and is the one it claims. -/
theorem claimed_by (hs : Exactness s) (hop : s.operations[i]? = some op)
    (hclaims : (s.threads t).claims i = true) :
    op.done = true ∧ (∀ t', (s.threads t').claims i = true → t' = t) ∧
    i ∉ s.completions.map Prod.fst ∧
    records s.owner.audit op.id = trail op (s.threads t).denialRecorded none := by
  cases hs.progress i op hop with
  | opened _ free | completed _ _ free => rw [free t] at hclaims; cases hclaims
  | claimed t₀ done mine only never record =>
    obtain rfl := only t hclaims
    exact ⟨done, only, never, record⟩

theorem recordDenied_cases (h : s.recordDenied t = some s') :
    ∃ i claimed value op, s.threads t = .denying i claimed value ∧ s.operations[i]? = some op ∧
      s' = if claimed then
          { s.setThread t (.completing i .denied) with
            owner := s.owner.recordDenied op.operation value (if op.trap then op.id else 0) }
        else { s.setThread t .idle with
          owner := s.owner.recordDenied op.operation value 0
          answers := s.answers ++ [(i, false)] } := by
  grind [State.recordDenied, State.setThread]

theorem exactness_recordDenied (hs : Exactness s) (h : s.recordDenied t = some s') :
    Exactness s' := by
  obtain ⟨i, claimed, value, op, hdenying, hop, rfl⟩ := recordDenied_cases h
  obtain ⟨hbound, hlt⟩ := hs.lt_length hop
  have hid := hs.ids i op hop
  cases claimed with
  | true =>
    rw [if_pos rfl]
    refine ⟨hs.count, hs.ids, hs.bound_append ?_, hs.busy_update ?_, ?_, hs.nodup, hs.range,
      hs.inFlight, hs.outcomes⟩
    · dsimp only
      split
      · exact hbound
      · exact Nat.zero_le _
    · rintro j ⟨rfl⟩
      exact hlt
    intro j op' hop'
    by_cases hj : j = i
    · subst hj
      cases hop.symm.trans hop'
      obtain ⟨done, only, never, record⟩ :=
        claimed_by (t := t) hs hop (by simp [hdenying, Position.claims])
      refine .claimed t done ?_ ?_ never ?_
      · simp [State.setThread, Position.claims]
      · intro t' ht'
        by_cases heq : t' = t
        · exact heq
        · exact only t' (by simpa [State.setThread, heq] using ht')
      · rw [hdenying] at record
        show records (s.owner.audit ++ [_]) op.id =
          trail op (Function.update s.threads t _ t).denialRecorded none
        rw [Function.update_self, records_append, record]
        cases htrap : op.trap <;> simp [trail, htrap, Position.denialRecorded, hid]
    · refine (hs.progress j op' hop').other t (.completing i .denied) rfl ?_ ?_ rfl
        (records_append_ne _ ?_)
      · rw [hdenying]
        exact fun heq => hj (Option.some.inj heq).symm
      · exact fun heq => hj (Option.some.inj heq).symm
      · -- the record carries the identifier of `op` or none at all
        dsimp only
        rw [hs.ids j op' hop', hid]
        split <;> omega
  | false =>
    rw [if_neg Bool.false_ne_true]
    refine ⟨hs.count, hs.ids, hs.bound_append (Nat.zero_le _), hs.busy_update ?_, ?_, hs.nodup,
      hs.range, hs.inFlight, hs.outcomes⟩
    · simp [Position.target]
    intro j op' hop'
    refine (hs.progress j op' hop').congr (fun t' => ?_) rfl (records_append_ne _ ?_)
    · by_cases heq : t' = t
      · subst heq
        simp [State.setThread, hdenying, Position.claims]
      · simp [State.setThread, heq]
    · rw [hs.ids j op' hop']
      exact (Nat.succ_ne_zero j).symm

theorem complete_spec (owner : Owner Value) (op : Operation) (outcome : Outcome) :
    (owner.complete op outcome).authorizedOperations = owner.authorizedOperations ∧
    (owner.complete op outcome).operationsInFlight = owner.operationsInFlight - 1 ∧
    (owner.complete op outcome).ended = owner.ended + 1 ∧
    (owner.complete op outcome).audit = owner.audit ++ if op.trap then [{
      id := op.id
      operation := op.operation
      phase := .completion
      result := .of outcome
      value := none }] else [] := by
  unfold Owner.complete Owner.recordAudit
  cases op.trap <;> cases outcome <;> simp [Owner.count, Owner.ended] <;> omega

theorem complete_cases (h : s.complete t = some s') :
    ∃ i outcome op, s.threads t = .completing i outcome ∧ s.operations[i]? = some op ∧
      s' = { s.setThread t .idle with
        owner := s.owner.complete op outcome
        completions := s.completions ++ [(i, outcome)]
        answers := if outcome = .denied then s.answers ++ [(i, false)] else s.answers } := by
  grind [State.complete]

theorem exactness_complete (hs : Exactness s) (h : s.complete t = some s') : Exactness s' := by
  obtain ⟨i, outcome, op, hcompleting, hop, rfl⟩ := complete_cases h
  obtain ⟨hbound, hlt⟩ := hs.lt_length hop
  have hid := hs.ids i op hop
  obtain ⟨done, only, never, record⟩ :=
    claimed_by (t := t) hs hop (by simp [hcompleting, Position.claims])
  obtain ⟨hauthorized, hflight, hended, haudit⟩ := complete_spec s.owner op outcome
  have hmap : (s.completions ++ [(i, outcome)]).map Prod.fst =
      s.completions.map Prod.fst ++ [i] := by simp
  have hnodup : (s.completions.map Prod.fst ++ [i]).Nodup :=
    List.nodup_append.mpr ⟨hs.nodup, by simp, by grind⟩
  have hrange : ∀ j ∈ s.completions.map Prod.fst ++ [i], j < s.operations.length :=
    List.forall_mem_append.mpr ⟨hs.range, List.forall_mem_singleton.mpr hlt⟩
  -- one more of the operations is over, so at least one was in flight
  have hfits : s.completions.length + 1 ≤ s.operations.length := by
    have hsub : s.completions.map Prod.fst ++ [i] ⊆ List.range s.operations.length :=
      fun j hj => List.mem_range.mpr (hrange j hj)
    simpa using (List.Nodup.subperm hnodup hsub).length_le
  refine exactness_answers (s := { s.setThread t .idle with
    owner := s.owner.complete op outcome
    completions := s.completions ++ [(i, outcome)] }) ?_ _
  refine ⟨hauthorized.trans hs.count, hs.ids, ?_, hs.busy_update (by simp [Position.target]), ?_,
    hmap ▸ hnodup, hmap ▸ hrange, ?_, ?_⟩
  · dsimp only
    rw [haudit, hauthorized]
    split
    · exact hs.bound_append hbound
    · simpa using hs.bound
  · intro j op' hop'
    by_cases hj : j = i
    · subst hj
      cases hop.symm.trans hop'
      refine .completed outcome done ?_ ?_ ?_
      · intro t'
        by_cases heq : t' = t
        · subst heq
          simp [State.setThread, Position.claims]
        · cases hclaims : (s.threads t').claims j with
          | false => simpa [State.setThread, heq] using hclaims
          | true => exact absurd (only t' hclaims) heq
      · have hnone : s.completions.filter (fun e => e.1 = j) = [] := by
          rw [List.filter_eq_nil_iff]
          intro e he heq
          exact never (List.mem_map.mpr ⟨e, he, of_decide_eq_true heq⟩)
        simp [List.filter_append, hnone]
      · rw [hcompleting] at record
        dsimp only
        rw [haudit]
        cases htrap : op.trap with
        | true =>
          rw [if_pos rfl, records_append, record]
          simp [trail, htrap, Position.denialRecorded]
        | false =>
          rw [if_neg Bool.false_ne_true, List.append_nil, record]
          simp [trail, htrap]
    · refine (hs.progress j op' hop').other t .idle rfl ?_ (by simp [Position.target]) ?_ ?_
      · rw [hcompleting]
        exact fun heq => hj (Option.some.inj heq).symm
      · simp [List.filter_append, Ne.symm hj]
      · dsimp only
        rw [haudit]
        split
        · refine records_append_ne _ ?_
          show op.id ≠ op'.id
          rw [hid, hs.ids j op' hop']
          omega
        · rw [List.append_nil]
  · have hbefore := hs.inFlight
    show _ = s.operations.length
    dsimp only
    rw [hflight, List.length_append, List.length_singleton]
    omega
  · dsimp only
    rw [hended, hs.outcomes, List.length_append, List.length_singleton]

theorem exactness_step {a : Label Value} (hs : Exactness s) (h : machine.step s a = some s') :
    Exactness s' := by
  cases a with
  | arrive operation rights value =>
    cases h
    exact exactness_arrive hs operation rights value
  | cancel | reply | error | destroy => exact exactness_finish hs (by simp) h
  | authorized t i rights target value => exact exactness_authorized hs h
  | recordDenied t => exact exactness_recordDenied hs h
  | complete t => exact exactness_complete hs h

theorem exactness_reachable (hs : machine.Reachable s) : Exactness s := by
  refine hs.invariant ?_ fun _ _ _ => exactness_step
  rintro s rfl
  exact exactness_start

/-! ## The audit trail is exact -/

/-- Operations are added at the end and claimed; nothing else happens to them. -/
theorem operations_step {a : Label Value} (h : machine.step s a = some s') :
    s'.operations = s.operations ∨ (∃ op, s'.operations = s.operations ++ [op]) ∨
      ∃ i, ∃ op : Operation, s'.operations = s.operations.set i { op with done := true } := by
  cases a with
  | arrive operation rights value =>
    cases h
    unfold State.arrive
    split
    · exact .inl rfl
    · exact .inr (.inl ⟨_, rfl⟩)
  | cancel | reply | error | destroy =>
    obtain ⟨op, -, -, ⟨-, rfl⟩ | ⟨-, rfl⟩⟩ := finish_cases h
    · exact .inl rfl
    · exact .inr (.inr ⟨_, op, rfl⟩)
  | authorized =>
    obtain ⟨op, -, -, rfl | rfl | ⟨-, rfl⟩⟩ := authorized_cases h
    · exact .inl rfl
    · exact .inl rfl
    · exact .inr (.inr ⟨_, op, rfl⟩)
  | recordDenied =>
    obtain ⟨i, claimed, value, op, -, -, rfl⟩ := recordDenied_cases h
    cases claimed <;> exact .inl rfl
  | complete =>
    obtain ⟨i, outcome, op, -, -, rfl⟩ := complete_cases h
    exact .inl rfl

/-- A claim is never taken back. -/
theorem done_step {a : Label Value} (h : machine.step s a = some s')
    (hdone : ∃ op, s.operations[i]? = some op ∧ op.done = true) :
    ∃ op, s'.operations[i]? = some op ∧ op.done = true := by
  rcases operations_step h with heq | ⟨new, heq⟩ | ⟨j, claimed, heq⟩ <;> grind

/-- What holds between any two steps. -/
structure AuditExact (s : State Value) : Prop where
  balance : s.owner.authorizedOperations = s.owner.operationsInFlight +
    s.owner.operationsSucceeded + s.owner.operationsFailed + s.owner.operationsCancelled +
    s.owner.operationsAbandoned + s.owner.operationsDenied
  /-- Every operation has an identifier of its own, and it is not zero. -/
  ids : ∀ i op, s.operations[i]? = some op → op.id = i + 1
  atMostOnce : ∀ i, (s.completions.filter fun e => e.1 = i).length ≤ 1
  /-- An operation that somebody has finished is completed once nobody is inside any more;
      a destructor finishes it at the latest. -/
  exactlyOnce : ∀ i op, s.operations[i]? = some op → op.done = true →
    (∀ t, (s.threads t).claims i = false) →
    ∃ outcome, (s.completions.filter fun e => e.1 = i) = [(i, outcome)]
  destroyed : ∀ t i s', machine.step s (.destroy t i) = some s' → ∀ as u,
    machine.exec s' as = some u → ∃ op, u.operations[i]? = some op ∧ op.done = true
  /-- The records of a completed operation. -/
  trail : ∀ i op outcome, s.operations[i]? = some op → op.trap = true →
    (i, outcome) ∈ s.completions → records s.owner.audit op.id =
      (.authorization, .allowed) ::
        ((if outcome = .denied then [(.authorization, .of .denied)] else []) ++
          [(.completion, .of outcome)])
  /-- The records of an operation that is not completed; a denial on record means that the
      completion is about to follow. -/
  pending : ∀ i op, s.operations[i]? = some op → op.trap = true →
    i ∉ s.completions.map Prod.fst →
    records s.owner.audit op.id = [(.authorization, .allowed)] ∨
    (records s.owner.audit op.id = [(.authorization, .allowed), (.authorization, .of .denied)] ∧
      ∃ t, s.threads t = .completing i .denied)
  /-- A denial that lost the claim is recorded without an identifier. -/
  late : ∀ t i value s', s.threads t = .denying i false value →
    machine.step s (.recordDenied t) = some s' → ∃ op, s.operations[i]? = some op ∧
      s'.owner.audit = s.owner.audit ++ [{
        id := 0
        operation := op.operation
        phase := .authorization
        result := .of .denied
        value := Owner.preview op.operation value }] ∧ s'.threads t = .idle

/-- **The audit trail and the counters are exact**, in every state of every run. -/
theorem audit_exact {s : State Value} (hs : machine.Reachable s) : AuditExact s := by
  have hok := exactness_reachable hs
  refine ⟨?_, hok.ids, ?_, ?_, ?_, ?_, ?_, ?_⟩
  · have hflight := hok.inFlight
    have hended := hok.outcomes
    have hcount := hok.count
    unfold Owner.ended at hended
    omega
  · intro i
    have hkeys : ∀ e ∈ s.completions.filter (fun e => e.1 = i), e.1 = i :=
      fun e he => of_decide_eq_true (List.mem_filter.mp he).2
    have hmap : ((s.completions.filter fun e => e.1 = i).map Prod.fst).Nodup :=
      hok.nodup.sublist (List.filter_sublist.map _)
    rw [List.map_eq_replicate_iff.mpr hkeys] at hmap
    exact List.nodup_replicate.mp hmap
  · intro i op hop hdone hfree
    cases hok.progress i op hop with
    | opened hopen => rw [hopen] at hdone; cases hdone
    | claimed t _ mine => rw [hfree t] at mine; cases mine
    | completed outcome _ _ once => exact ⟨outcome, once⟩
  · intro t i s' hstep as u hrun
    have hnow : ∃ op, s'.operations[i]? = some op ∧ op.done = true := by
      obtain ⟨op, -, hop, ⟨hdone, rfl⟩ | ⟨-, rfl⟩⟩ := finish_cases hstep
      · exact ⟨op, hop, hdone⟩
      · refine ⟨{ op with done := true }, ?_, rfl⟩
        show (s.operations.set i _)[i]? = _
        rw [List.getElem?_set, if_pos rfl, if_pos (hok.lt_length hop).2]
    exact machine.exec_invariant (P := fun u => ∃ op, u.operations[i]? = some op ∧ op.done = true)
      (fun _ _ _ hu hnext => done_step hnext hu) hnow hrun
  · intro i op outcome hop htrap hmem
    cases hok.progress i op hop with
    | opened _ _ never | claimed _ _ _ _ never => exact absurd (List.mem_map.mpr ⟨_, hmem, rfl⟩) never
    | completed outcome' _ _ once record =>
      have hin : (i, outcome) ∈ s.completions.filter (fun e => e.1 = i) :=
        List.mem_filter.mpr ⟨hmem, by simp⟩
      rw [once] at hin
      cases List.mem_singleton.mp hin
      rw [record]
      simp [Audit.trail, htrap]
  · intro i op hop htrap hnot
    cases hok.progress i op hop with
    | opened _ _ _ record =>
      left
      rw [record]
      simp [Audit.trail, htrap]
    | claimed t _ mine _ _ record =>
      rw [record]
      cases hposition : s.threads t with
      | idle => simp [hposition, Position.claims] at mine
      | denying j claimed value =>
        left
        simp [Audit.trail, htrap, Position.denialRecorded]
      | completing j outcome =>
        by_cases hdenied : outcome = .denied
        · subst hdenied
          have hj : j = i := by simpa [hposition, Position.claims] using mine
          subst hj
          right
          exact ⟨by simp [Audit.trail, htrap, Position.denialRecorded], t, hposition⟩
        · left
          simp [Audit.trail, htrap, Position.denialRecorded, hdenied]
    | completed outcome _ _ once =>
      have hin : (i, outcome) ∈ s.completions.filter (fun e => e.1 = i) := by simp [once]
      exact absurd (List.mem_map.mpr ⟨_, (List.mem_filter.mp hin).1, rfl⟩) hnot
  · intro t i value s' hdenying hstep
    obtain ⟨j, claimed, value', op, hposition, hop, rfl⟩ := recordDenied_cases hstep
    cases hdenying.symm.trans hposition
    exact ⟨op, hop, rfl, by simp [State.setThread]⟩

/-- The first operation is cancelled while a dispatch check is about to deny it; the second
    is denied at its dispatch. -/
theorem audit_exact_races : ∃ s : State Nat, machine.Reachable s ∧
    records s.owner.audit 1 = [(.authorization, .allowed), (.completion, .of .cancelled)] ∧
    records s.owner.audit 2 = [(.authorization, .allowed), (.authorization, .of .denied),
      (.completion, .of .denied)] ∧
    records s.owner.audit 0 = [(.authorization, .of .denied)] ∧ AuditExact s := by
  let run : List (Label Nat) := [
    .arrive .put { write := true, trapWrite := true } 7,
    .arrive .rpc { write := true, trapWrite := true } 8,
    .cancel 0 0, .authorized 1 0 {} true 7, .complete 0, .recordDenied 1,
    .authorized 1 1 {} true 8, .error 0 1, .recordDenied 1, .destroy 0 1, .complete 1]
  have hrun : (machine.exec {} run).map (fun s =>
      (records s.owner.audit 1, records s.owner.audit 2, records s.owner.audit 0)) =
      some ([(.authorization, .allowed), (.completion, .of .cancelled)],
        [(.authorization, .allowed), (.authorization, .of .denied), (.completion, .of .denied)],
        [(.authorization, .of .denied)]) := by
    decide +kernel
  obtain ⟨s, hs, hend⟩ := Option.map_eq_some_iff.mp hrun
  simp only [Prod.mk.injEq] at hend
  have hreach : machine.Reachable s := ⟨{}, run, rfl, hs⟩
  exact ⟨s, hreach, hend.1, hend.2.1, hend.2.2, audit_exact hreach⟩

end RedisPvxsIoc.Access.Audit
