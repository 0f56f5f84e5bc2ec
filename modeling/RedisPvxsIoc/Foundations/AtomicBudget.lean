import Mathlib
import RedisPvxsIoc.Foundations.Machine

/-!
# A Budget behind a Compare-and-Swap

A counter that several threads share without a lock.  To *acquire*, a thread loads the counter
and then tries to replace the value it has seen by a larger one, as long as the limit allows
it; an attempt fails when the counter has changed meanwhile, or for no reason, and tells the
thread the value it found.  To *release*, a thread subtracts.  A second counter is raised to the
largest value in the same way.

The counters are words of `W` values, so every sum and difference is taken modulo `W`.

## Main results

- `Sound`: the counter is the sum of what is held, and within the limit
- `sound_reachable`: in every interleaving
- `acquire_exec`: a thread that nobody disturbs acquires in one go, or not at all
-/

namespace RedisPvxsIoc.Foundations.AtomicBudget

/-- Where a thread stands in `acquire`. -/
inductive Stage where
  /-- It has loaded `current` and wants `bytes` more. -/
  | reserving (bytes current : Nat)
  /-- The counter is `target` by its doing. -/
  | reserved (target : Nat)
  /-- It has loaded `prior` from the peak. -/
  | raising (target prior : Nat)
  deriving DecidableEq, Repr

structure State where
  limit : Nat
  used : Nat := 0
  peak : Nat := 0
  /-- The sizes of the reservations that are held. -/
  live : List Nat := []
  acquires : List Stage := []
  deriving DecidableEq, Repr

inductive Label where
  /-- A thread enters `acquire` and loads the counter. -/
  | load (bytes : Nat)
  /-- The `i`-th of the threads in `acquire` goes on; its attempt may fail spuriously. -/
  | turn (i : Nat) (spurious : Bool)
  /-- The `i`-th reservation is given back. -/
  | release (i : Nat)
  deriving DecidableEq, Repr

variable (W : Nat)

namespace State

/-- A turn of the first loop: the limit does not allow it, the attempt succeeds, or it fails. -/
def reserve (s : State) (i bytes current : Nat) (spurious : Bool) : State :=
  if s.limit < bytes ∨ s.limit - bytes < current then
    { s with acquires := s.acquires.eraseIdx i }
  else if s.used = current ∧ spurious = false then
    { s with
      used := (current + bytes) % W
      live := s.live ++ [bytes]
      acquires := s.acquires.set i (.reserved ((current + bytes) % W)) }
  else { s with acquires := s.acquires.set i (.reserving bytes s.used) }

/-- A turn of the second loop. -/
def raise (s : State) (i target prior : Nat) (spurious : Bool) : State :=
  if target ≤ prior then { s with acquires := s.acquires.eraseIdx i }
  else if s.peak = prior ∧ spurious = false then
    { s with peak := target, acquires := s.acquires.eraseIdx i }
  else { s with acquires := s.acquires.set i (.raising target s.peak) }

def turn (s : State) (i : Nat) (spurious : Bool) : Stage → State
  | .reserving bytes current => s.reserve W i bytes current spurious
  | .reserved target => { s with acquires := s.acquires.set i (.raising target s.peak) }
  | .raising target prior => s.raise i target prior spurious

/-- `fetch_sub` -/
def release (s : State) (i bytes : Nat) : State :=
  { s with used := (s.used + W - bytes) % W, live := s.live.eraseIdx i }

end State

def step (s : State) : Label → Option State
  | .load bytes => some { s with acquires := s.acquires ++ [.reserving bytes s.used] }
  | .turn i spurious => (s.acquires[i]?).map fun stage => s.turn W i spurious stage
  | .release i => (s.live[i]?).map fun bytes => s.release W i bytes

def machine (start : State → Prop) : Machine State Label := ⟨start, step W⟩

/-! ## The invariant -/

/-- The books are right. -/
structure Sound (s : State) : Prop where
  limit_lt : s.limit < W
  used_eq : s.used = s.live.sum
  used_le : s.used ≤ s.limit

variable {W} {s s' : State}

theorem sum_eraseIdx {l : List Nat} {i x : Nat} (h : l[i]? = some x) :
    l.sum = x + (l.eraseIdx i).sum := by
  obtain ⟨hlt, rfl⟩ := List.getElem?_eq_some_iff.mp h
  rw [← (List.getElem_cons_eraseIdx_perm hlt).sum_eq, List.sum_cons]

variable {bytes : Nat}

theorem sound_release (h : Sound W s) {i : Nat} (hi : s.live[i]? = some bytes) :
    Sound W (s.release W i bytes) := by
  have hsum := sum_eraseIdx hi
  have hused := h.used_eq
  have hle := h.used_le
  have hlimit := h.limit_lt
  -- what is given back was held, so the difference does not wrap
  have hback : (s.used + W - bytes) % W = s.used - bytes := by
    rw [show s.used + W - bytes = s.used - bytes + W by omega, Nat.add_mod_right,
      Nat.mod_eq_of_lt (by omega)]
  refine ⟨hlimit, ?_, ?_⟩
  · show (s.used + W - bytes) % W = (s.live.eraseIdx i).sum
    omega
  · show (s.used + W - bytes) % W ≤ s.limit
    omega

theorem sound_reserve (h : Sound W s) (i bytes current : Nat) (spurious : Bool) :
    Sound W (s.reserve W i bytes current spurious) := by
  unfold State.reserve
  split_ifs with hrefused hswap
  · exact ⟨h.limit_lt, h.used_eq, h.used_le⟩
  · obtain ⟨rfl, -⟩ := hswap
    have hlimit := h.limit_lt
    have hused := h.used_eq
    -- the limit has been checked for the value that is replaced, so the sum does not wrap
    have hsum : (s.used + bytes) % W = s.used + bytes := Nat.mod_eq_of_lt (by omega)
    rw [hsum]
    refine ⟨hlimit, ?_, ?_⟩
    · show s.used + bytes = (s.live ++ [bytes]).sum
      rw [List.sum_append, List.sum_singleton, hused]
    · show s.used + bytes ≤ s.limit
      omega
  · exact ⟨h.limit_lt, h.used_eq, h.used_le⟩

theorem sound_step (h : Sound W s) {a : Label} (hstep : step W s a = some s') : Sound W s' := by
  cases a with
  | load bytes =>
    cases hstep
    exact ⟨h.limit_lt, h.used_eq, h.used_le⟩
  | turn i spurious =>
    obtain ⟨stage, -, rfl⟩ := Option.map_eq_some_iff.mp hstep
    cases stage with
    | reserving bytes current => exact sound_reserve h i bytes current spurious
    | reserved target => exact ⟨h.limit_lt, h.used_eq, h.used_le⟩
    | raising target prior =>
      -- the peak is not part of the books
      dsimp only [State.turn, State.raise]
      split_ifs <;> exact ⟨h.limit_lt, h.used_eq, h.used_le⟩
  | release i =>
    obtain ⟨bytes, hi, rfl⟩ := Option.map_eq_some_iff.mp hstep
    exact sound_release h hi

theorem limit_step {a : Label} (hstep : step W s a = some s') : s'.limit = s.limit := by
  cases a with
  | load bytes =>
    cases hstep
    rfl
  | turn i spurious =>
    obtain ⟨stage, -, rfl⟩ := Option.map_eq_some_iff.mp hstep
    cases stage with
    | reserving bytes current =>
      dsimp only [State.turn, State.reserve]
      split_ifs <;> rfl
    | reserved target => rfl
    | raising target prior =>
      dsimp only [State.turn, State.raise]
      split_ifs <;> rfl
  | release i =>
    obtain ⟨bytes, -, rfl⟩ := Option.map_eq_some_iff.mp hstep
    rfl

variable {start : State → Prop}

theorem limit_reachable {limit : Nat} (hstart : ∀ s, start s → s.limit = limit)
    (h : (machine W start).Reachable s) :
    s.limit = limit :=
  Machine.Reachable.invariant (P := fun s => s.limit = limit) hstart
    (fun _ _ _ hs hstep => (limit_step hstep).trans hs) h

/-- **The books are right in every interleaving.** -/
theorem sound_reachable (hstart : ∀ s, start s → Sound W s) (h : (machine W start).Reachable s) :
    Sound W s :=
  Machine.Reachable.invariant (P := Sound W) hstart (fun _ _ _ hs => sound_step hs) h

/-! ## A thread alone -/

/-- `acquire` of a thread that nobody disturbs; nothing when it throws. -/
def acquire (W : Nat) (s : State) (bytes : Nat) : Option State :=
  if s.limit < bytes ∨ s.limit - bytes < s.used then none
  else some
    { s with
      used := (s.used + bytes) % W
      peak := max s.peak ((s.used + bytes) % W)
      live := s.live ++ [bytes] }

theorem acquire_ok (h : Sound W s) (bytes : Nat) :
    acquire W s bytes = some s' ↔ s.used + bytes ≤ s.limit ∧
      s' = { s with used := s.used + bytes, peak := max s.peak (s.used + bytes),
                    live := s.live ++ [bytes] } := by
  have hlimit := h.limit_lt
  have hused := h.used_le
  unfold acquire
  split_ifs with hrefused
  · simp only [false_iff, not_and]
    omega
  · rw [Nat.mod_eq_of_lt (by omega), Option.some.injEq, eq_comm]
    exact ⟨fun heq => ⟨by omega, heq⟩, fun heq => heq.2⟩

theorem Sound.acquire (h : Sound W s) (hs' : acquire W s bytes = some s') :
    Sound W s' := by
  obtain ⟨hfits, rfl⟩ := (acquire_ok h bytes).mp hs'
  refine ⟨h.limit_lt, ?_, hfits⟩
  show s.used + bytes = (s.live ++ [bytes]).sum
  rw [List.sum_append, List.sum_singleton, h.used_eq]

/-- In the machine such a thread loads and swaps the counter, loads the peak and raises it; or
    it loads the counter and is refused, and nothing has changed. -/
theorem acquire_exec (start : State → Prop) (halone : s.acquires = []) (bytes : Nat) :
    (∀ s', acquire W s bytes = some s' → (machine W start).exec s
      [.load bytes, .turn 0 false, .turn 0 false, .turn 0 false] = some s') ∧
    (acquire W s bytes = none → (machine W start).exec s [.load bytes, .turn 0 false] = some s) := by
  obtain ⟨limit, used, peak, live, acquires⟩ := s
  obtain rfl : acquires = [] := halone
  unfold acquire
  constructor
  · intro s' hs'
    split_ifs at hs' with hrefused
    cases hs'
    have hswap : step W ⟨limit, used, peak, live, [.reserving bytes used]⟩ (.turn 0 false) =
        some ⟨limit, (used + bytes) % W, peak, live ++ [bytes],
          [.reserved ((used + bytes) % W)]⟩ := by
      simp [step, State.turn, State.reserve, hrefused]
    have hraise : step W ⟨limit, (used + bytes) % W, peak, live ++ [bytes],
          [.raising ((used + bytes) % W) peak]⟩ (.turn 0 false) =
        some ⟨limit, (used + bytes) % W, max peak ((used + bytes) % W), live ++ [bytes], []⟩ := by
      by_cases henough : (used + bytes) % W ≤ peak
      · simp [step, State.turn, State.raise, henough]
      · simp [step, State.turn, State.raise, henough, Nat.max_eq_right (Nat.le_of_not_le henough)]
    refine (machine W start).exec_cons_iff.mpr ⟨_, rfl, ?_⟩
    refine (machine W start).exec_cons_iff.mpr ⟨_, hswap, ?_⟩
    refine (machine W start).exec_cons_iff.mpr ⟨_, rfl, ?_⟩
    exact (machine W start).exec_cons_iff.mpr ⟨_, hraise, rfl⟩
  · intro hnone
    split_ifs at hnone with hrefused
    refine (machine W start).exec_cons_iff.mpr ⟨_, rfl, ?_⟩
    refine (machine W start).exec_cons_iff.mpr ⟨⟨limit, used, peak, live, []⟩, ?_, rfl⟩
    simp [machine, step, State.turn, State.reserve, hrefused]

theorem acquire_reachable (h : (machine W start).Reachable s) (halone : s.acquires = [])
    (hs' : acquire W s bytes = some s') :
    (machine W start).Reachable s' ∧ s'.acquires = [] := by
  refine ⟨h.exec ((acquire_exec start halone bytes).1 s' hs'), ?_⟩
  unfold acquire at hs'
  split_ifs at hs'
  cases hs'
  exact halone

end RedisPvxsIoc.Foundations.AtomicBudget
