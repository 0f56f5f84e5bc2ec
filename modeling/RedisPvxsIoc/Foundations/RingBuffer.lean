import Mathlib.Data.Nat.ModEq

/-!
# Circular Buffers

`RingBuffer α` is a buffer of fixed size with a head index and a count, the way it is
written over an array: entry `i` of the queue is in cell `(head + i) % size`.  The bounds
on the two indices are fields of the structure.  `toList` is the queue it stands for.

## Main results

- `RingBuffer.toList_push`, `RingBuffer.toList_pop`, `RingBuffer.toList_discard`
-/

namespace RedisPvxsIoc.Foundations

structure RingBuffer (α : Type*) where
  size : Nat
  cells : Nat → α
  head : Nat
  count : Nat
  head_lt : head < size
  count_le : count ≤ size

namespace RingBuffer

variable {α : Type*}

/-- A buffer of `n` default cells, with nothing in it. -/
def ofSize [Inhabited α] (n : Nat) (h : 0 < n) : RingBuffer α where
  size := n
  cells := fun _ => default
  head := 0
  count := 0
  head_lt := h
  count_le := Nat.zero_le _

/-- The queue the buffer stands for, oldest entry first. -/
def toList (r : RingBuffer α) : List α :=
  (List.range r.count).map fun i => r.cells ((r.head + i) % r.size)

theorem size_pos (r : RingBuffer α) : 0 < r.size := Nat.zero_lt_of_lt r.head_lt

/-- Store behind the last entry; a full buffer is left alone. -/
def push (r : RingBuffer α) (x : α) : RingBuffer α :=
  if h : r.count < r.size then
    { r with
      cells := Function.update r.cells ((r.head + r.count) % r.size) x
      count := r.count + 1
      count_le := h }
  else r

/-- Take the oldest entry. -/
def pop (r : RingBuffer α) : Option (α × RingBuffer α) :=
  if r.count = 0 then none
  else some (r.cells r.head,
    { r with
      head := (r.head + 1) % r.size
      count := r.count - 1
      head_lt := Nat.mod_lt _ r.size_pos
      count_le := (Nat.sub_le _ _).trans r.count_le })

/-- Take `n` entries and forget them. -/
def drop : Nat → RingBuffer α → RingBuffer α
  | 0, r => r
  | n + 1, r =>
    match r.pop with
    | some (_, r') => drop n r'
    | none => r

/-- Empty the buffer entry by entry. -/
def discard (r : RingBuffer α) : RingBuffer α := drop r.count r

@[simp] theorem length_toList (r : RingBuffer α) : r.toList.length = r.count := by
  simp [toList]

theorem toList_eq_nil_iff (r : RingBuffer α) : r.toList = [] ↔ r.count = 0 := by
  rw [← List.length_eq_zero_iff, length_toList]

@[simp] theorem toList_ofSize [Inhabited α] (n : Nat) (h : 0 < n) :
    (ofSize n h : RingBuffer α).toList = [] := rfl

/-! ## `push` -/

/-- Cells of different entries are different: the indices stay within one turn. -/
theorem cell_ne (r : RingBuffer α) {i j : Nat} (hi : i < j) (hj : j < r.size) :
    (r.head + i) % r.size ≠ (r.head + j) % r.size := by
  intro heq
  have hmod : i ≡ j [MOD r.size] := Nat.ModEq.add_left_cancel' r.head heq
  have hij : i = j := Nat.ModEq.eq_of_lt_of_lt hmod (hi.trans hj) hj
  omega

theorem toList_push (r : RingBuffer α) (x : α) (h : r.count < r.size) :
    (r.push x).toList = r.toList ++ [x] := by
  have hpush : r.push x = { r with
      cells := Function.update r.cells ((r.head + r.count) % r.size) x
      count := r.count + 1
      count_le := h } := dif_pos h
  rw [hpush]
  unfold toList
  dsimp only
  rw [List.range_succ, List.map_append]
  congr 1
  · apply List.map_congr_left
    intro i hi
    exact Function.update_of_ne (r.cell_ne (List.mem_range.mp hi) h) _ _
  · simp

/-! ## `pop` -/

theorem pop_eq_none_iff (r : RingBuffer α) : r.pop = none ↔ r.count = 0 := by
  simp [pop]

variable {r r' : RingBuffer α} {x : α}

theorem toList_pop (h : r.pop = some (x, r')) :
    r.toList = x :: r'.toList := by
  unfold pop at h
  split at h
  · cases h
  · rename_i hcount
    cases h
    obtain ⟨n, hn⟩ := Nat.exists_eq_succ_of_ne_zero hcount
    unfold toList
    dsimp only
    rw [hn, List.range_succ_eq_map, List.map_cons, List.map_map]
    congr 1
    · rw [Nat.add_zero, Nat.mod_eq_of_lt r.head_lt]
    · apply List.map_congr_left
      intro i _
      -- one step of the head and one step of the offset meet in the same cell
      have hcell : (r.head + (i + 1)) % r.size = ((r.head + 1) % r.size + i) % r.size := by
        rw [Nat.mod_add_mod]
        congr 1
        omega
      exact congrArg r.cells hcell

theorem count_pop (h : r.pop = some (x, r')) :
    r.count = r'.count + 1 := by
  have hlength := congrArg List.length (toList_pop h)
  simpa using hlength

/-! ## `discard` -/

theorem toList_drop (n : Nat) (r : RingBuffer α) : (drop n r).toList = r.toList.drop n := by
  induction n generalizing r with
  | zero => rfl
  | succ n ih =>
    unfold drop
    split
    · rename_i x r' hpop
      rw [ih, toList_pop hpop, List.drop_succ_cons]
    · rename_i hpop
      have hempty : r.toList = [] := (toList_eq_nil_iff r).mpr ((pop_eq_none_iff r).mp hpop)
      rw [hempty, List.drop_nil]

@[simp] theorem toList_discard (r : RingBuffer α) : r.discard.toList = [] := by
  unfold discard
  rw [toList_drop, ← length_toList, List.drop_length]

end RingBuffer

end RedisPvxsIoc.Foundations
