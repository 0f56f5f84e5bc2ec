import Mathlib.Tactic.Ring

/-!
# Framed Messages

Binary messages as one byte string: numbers in network order and frames of a header with a
fixed width followed by a body whose length the header tells.  A character stands for a byte.

## Main results

- `splitWord_append`: a word is read back, up to its width
- `unframe_flatMap`: a stream of frames is read back frame by frame
-/

namespace RedisPvxsIoc.Foundations

abbrev Bytes := List Char

/-! ## Words -/

def byte (n : Nat) : Char := Char.ofNat (n % 256)

theorem toNat_byte (n : Nat) : (byte n).toNat = n % 256 := by
  have hlt : n % 256 < 256 := Nat.mod_lt _ (by decide)
  have hvalid : (n % 256).isValidChar := Or.inl (by omega)
  unfold byte Char.ofNat
  rw [dif_pos hvalid]
  rfl

/-- The lowest `width` bytes of a number, highest first. -/
def word : Nat → Nat → Bytes
  | 0, _ => []
  | width + 1, n => byte (n / 256 ^ width) :: word width n

/-- The number that a word stands for. -/
def number (bytes : Bytes) : Nat := bytes.foldl (fun acc c => acc * 256 + c.toNat) 0

@[simp] theorem length_word (width n : Nat) : (word width n).length = width := by
  induction width with
  | zero => rfl
  | succ width ih => rw [word, List.length_cons, ih]

theorem foldl_word (width n acc : Nat) :
    (word width n).foldl (fun acc c => acc * 256 + c.toNat) acc =
      acc * 256 ^ width + n % 256 ^ width := by
  induction width generalizing acc with
  | zero => simp [word, Nat.mod_one]
  | succ width ih =>
    -- the highest byte is the next digit, the rest is the word one byte shorter
    have hsplit : n % 256 ^ (width + 1) = n / 256 ^ width % 256 * 256 ^ width + n % 256 ^ width := by
      rw [pow_succ, Nat.mod_mul, Nat.mul_comm, Nat.add_comm]
    rw [word, List.foldl_cons, ih, toNat_byte, hsplit]
    ring

theorem number_word (width n : Nat) : number (word width n) = n % 256 ^ width := by
  rw [number, foldl_word]
  omega

/-- The first `width` bytes and what follows them. -/
def splitBytes (width : Nat) (bytes : Bytes) : Option (Bytes × Bytes) :=
  if width ≤ bytes.length then some (bytes.take width, bytes.drop width) else none

theorem splitBytes_append {width : Nat} {front : Bytes} (h : front.length = width) (rest : Bytes) :
    splitBytes width (front ++ rest) = some (front, rest) := by
  subst h
  unfold splitBytes
  rw [if_pos (by simp), List.take_left, List.drop_left]

/-- Read a word. -/
def splitWord (width : Nat) (bytes : Bytes) : Option (Nat × Bytes) :=
  (splitBytes width bytes).map fun split => (number split.1, split.2)

theorem splitWord_append (width n : Nat) (rest : Bytes) :
    splitWord width (word width n ++ rest) = some (n % 256 ^ width, rest) := by
  rw [splitWord, splitBytes_append (length_word width n), Option.map_some, number_word]

/-! ## Frames -/

section Frames

variable {φ : Type}

/-- A frame format: how a frame is written, and how the first frame of a stream is read. -/
structure FrameFormat (φ : Type) where
  write : φ → Bytes
  read : Bytes → Option (φ × Bytes)

/-- The frames that are read back as they were written, whatever follows them. -/
def FrameFormat.Faithful (format : FrameFormat φ) (frame : φ) : Prop :=
  format.write frame ≠ [] ∧
    ∀ rest, format.read (format.write frame ++ rest) = some (frame, rest)

/-- All frames of a stream; a frame takes at least one byte. -/
def unframe (format : FrameFormat φ) : Nat → Bytes → Option (List φ)
  | _, [] => some []
  | 0, _ :: _ => none
  | fuel + 1, bytes =>
    match format.read bytes with
    | none => none
    | some (frame, rest) => (unframe format fuel rest).map (frame :: ·)

theorem unframe_write {format : FrameFormat φ} {frame : φ} (h : format.Faithful frame)
    (fuel : Nat) (rest : Bytes) :
    unframe format (fuel + 1) (format.write frame ++ rest) =
      (unframe format fuel rest).map (frame :: ·) := by
  have hread := h.2 rest
  cases hbytes : format.write frame ++ rest with
  | nil => exact absurd (List.append_eq_nil_iff.mp hbytes).1 h.1
  | cons c cs =>
    rw [hbytes] at hread
    simp only [unframe, hread]

/-- **A stream of faithful frames** is read back, with its length as fuel. -/
theorem unframe_flatMap {format : FrameFormat φ} {frames : List φ}
    (h : ∀ frame ∈ frames, format.Faithful frame) {fuel : Nat}
    (hfuel : (frames.flatMap format.write).length ≤ fuel) :
    unframe format fuel (frames.flatMap format.write) = some frames := by
  induction frames generalizing fuel with
  | nil =>
    rw [List.flatMap_nil]
    cases fuel with
    | zero => rfl
    | succ fuel => rfl
  | cons frame frames ih =>
    have hframe := h frame List.mem_cons_self
    rw [List.flatMap_cons, List.length_append] at hfuel
    have hpos := List.length_pos_iff.mpr hframe.1
    obtain ⟨fuel, rfl⟩ : ∃ n, fuel = n + 1 := ⟨fuel - 1, by omega⟩
    rw [List.flatMap_cons, unframe_write hframe,
      ih (fun f hf => h f (List.mem_cons_of_mem _ hf)) (by omega)]
    rfl

end Frames

end RedisPvxsIoc.Foundations
