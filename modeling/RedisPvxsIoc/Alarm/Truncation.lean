import RedisPvxsIoc.Alarm.Publisher

/-!
# Truncated Alarm Messages

`StoredState::encode` of `src/alarm_worker.cpp` once more, with its buffer: every access of
the message and of the buffer is checked, and an access out of bounds is `none`.  The machine
of `Alarm.Publisher` uses the plain `encode`, which is what the checked one computes.

## Main results

- `cut_isGreatest`: where the loop stops
- `cut_utf8`: in valid UTF-8 it stops in front of a character, at most three bytes back
- `encode_truncates`
-/

namespace RedisPvxsIoc.Alarm

/-! ## The buffer -/

/-- `StoredState` with the whole of its buffer. -/
structure StoredBuffer where
  severity : Int
  status : Int
  length : Nat
  message : List UInt8

/-- `memcpy`, which must stay within its source and its target. -/
def memcpy (target : List UInt8) (start : Nat) (source : List UInt8) (count : Nat) :
    Option (List UInt8) :=
  if count ≤ source.length ∧ start + count ≤ target.length then
    some (target.take start ++ source.take count ++ target.drop (start + count))
  else none

def cutChecked (message : List UInt8) : Nat → Option Nat
  | 0 => some 0
  | length + 1 => do
    let byte ← message[length + 1]?
    if isContinuation byte then cutChecked message length else return length + 1

def encodeChecked (state : AlarmState) : Option (StoredBuffer × Bool) := do
  let truncated := decide (messageCapacity < state.message.length)
  let length := min state.message.length (messageCapacity - if truncated then 3 else 0)
  let length ← if truncated then cutChecked state.message length else some length
  let message ← memcpy (List.replicate messageCapacity 0) 0 state.message length
  let message ← if truncated then memcpy message length ellipsis 3 else some message
  return ({ severity := state.severity
            status := state.status
            length := if truncated then length + 3 else length
            message := message }, truncated)

def StoredBuffer.decode (stored : StoredBuffer) : AlarmState :=
  { severity := stored.severity
    status := stored.status
    message := stored.message.take stored.length }

/-! ## Where the loop stops -/

/-- A cut after `k` bytes is not in front of a continuation byte, or there is nothing left to
    cut off. -/
def Boundary (message : List UInt8) (k : Nat) : Prop :=
  k = 0 ∨ isContinuation (message.getD k 0) = false

variable {message : List UInt8} {n : Nat}

theorem cut_isGreatest (message : List UInt8) (n : Nat) :
    IsGreatest {k | k ≤ n ∧ Boundary message k} (cut message n) := by
  induction n with
  | zero => exact ⟨⟨le_rfl, .inl rfl⟩, fun k hk => hk.1⟩
  | succ n ih =>
    rw [cut]
    split
    · rename_i hcontinues
      refine ⟨⟨Nat.le_succ_of_le ih.1.1, ih.1.2⟩, fun k ⟨hle, hk⟩ => ih.2 ⟨?_, hk⟩⟩
      -- the cut in front of the byte that was just passed is no boundary
      by_contra hlt
      obtain rfl : k = n + 1 := by omega
      rcases hk with hk | hk <;> simp_all
    · rename_i hstop
      exact ⟨⟨le_rfl, .inr (by simpa using hstop)⟩, fun k hk => hk.1⟩

theorem cutChecked_eq (hn : n < message.length) : cutChecked message n = some (cut message n) := by
  induction n with
  | zero => rfl
  | succ n ih =>
    simp only [cutChecked, cut, List.getElem?_eq_getElem hn, List.getD_eq_getElem?_getD,
      Option.getD_some, Option.bind_eq_bind, Option.bind_some, ih (by omega)]
    split <;> rfl

/-! ## Characters -/

/-- The bytes of a list of characters. -/
def utf8 (chars : List Char) : List UInt8 := chars.flatMap String.utf8EncodeChar

def ValidUtf8 (message : List UInt8) : Prop := ∃ chars, message = utf8 chars

theorem utf8_append (l l' : List Char) : utf8 (l ++ l') = utf8 l ++ utf8 l' :=
  List.flatMap_append

theorem utf8_cons (c : Char) (l : List Char) :
    utf8 (c :: l) = String.utf8EncodeChar c ++ utf8 l := rfl

theorem isContinuation_iff (byte : UInt8) :
    isContinuation byte = true ↔ 128 ≤ byte.toNat ∧ byte.toNat < 192 := by
  have h : ∀ b : Fin 256, isContinuation (.ofFin b) = true ↔ 128 ≤ b.val ∧ b.val < 192 := by
    decide +kernel
  exact h byte.toFin

/-- The bytes of a character after the first continue it. -/
theorem isContinuation_utf8 (c : Char) {i : Nat} (hi : i < (String.utf8EncodeChar c).length) :
    isContinuation (String.utf8EncodeChar c)[i] = true ↔ i ≠ 0 := by
  rw [isContinuation_iff]
  have hval : c.toNat = c.val.toNat := rfl
  rcases i with _ | _ | _ | _ | i <;> simp only [String.utf8EncodeChar] at hi ⊢ <;>
    split_ifs at hi ⊢ <;> simp at hi ⊢ <;> omega

theorem length_utf8_le (c : Char) : (String.utf8EncodeChar c).length ≤ 4 := by
  rw [String.length_utf8EncodeChar]
  exact c.utf8Size_le_four

/-- The character that byte `n` belongs to. -/
theorem exists_char_at {chars : List Char} (hn : n < (utf8 chars).length) :
    ∃ before c after, chars = before ++ c :: after ∧ (utf8 before).length ≤ n ∧
      n < (utf8 before).length + (String.utf8EncodeChar c).length := by
  induction chars generalizing n with
  | nil => simp [utf8] at hn
  | cons c chars ih =>
    rw [utf8_cons, List.length_append] at hn
    by_cases hfirst : n < (String.utf8EncodeChar c).length
    · exact ⟨[], c, chars, rfl, Nat.zero_le n, by simpa [utf8] using hfirst⟩
    · obtain ⟨before, c', after, rfl, hle, hlt⟩ :=
        ih (n := n - (String.utf8EncodeChar c).length) (by omega)
      refine ⟨c :: before, c', after, rfl, ?_, ?_⟩ <;> rw [utf8_cons, List.length_append] <;> omega

/-- A cut within valid UTF-8 goes back to the character that it would have split. -/
theorem cut_utf8 {chars : List Char} (hn : n < (utf8 chars).length) :
    ∃ before after, chars = before ++ after ∧ cut (utf8 chars) n = (utf8 before).length ∧
      n ≤ (utf8 before).length + 3 := by
  obtain ⟨before, c, after, rfl, hle, hlt⟩ := exists_char_at hn
  have hfour := length_utf8_le c
  have hbyte : ∀ k, (utf8 before).length ≤ k → k ≤ n → isContinuation
      ((utf8 (before ++ c :: after)).getD k 0) = decide (k ≠ (utf8 before).length) := by
    intro k hk hkn
    have hi : k - (utf8 before).length < (String.utf8EncodeChar c).length := by omega
    have h := isContinuation_utf8 c hi
    rw [Bool.eq_iff_iff, decide_eq_true_iff]
    simp only [utf8_append, utf8_cons, List.getD_eq_getElem?_getD,
      List.getElem?_append_right hk, List.getElem?_append_left hi, List.getElem?_eq_getElem hi,
      Option.getD_some, h]
    omega
  refine ⟨before, c :: after, rfl, (cut_isGreatest _ n).unique ⟨⟨hle, .inr ?_⟩, ?_⟩, by omega⟩
  · rw [hbyte _ le_rfl hle]
    simp
  · intro k ⟨hkn, hk⟩
    by_contra hlt
    rcases hk with rfl | hk
    · omega
    · rw [hbyte k (by omega) hkn, decide_eq_false_iff_not] at hk
      omega

/-! ## The result -/

/-- What becomes of a message: it is kept if it fits; otherwise its longest part of at most 509
    bytes that ends at a boundary is kept, and dots after it.  Valid UTF-8 stays valid and loses
    at most three bytes more. -/
structure Truncates (message : List UInt8) (truncated : Bool) (result : List UInt8) : Prop where
  bounded : result.length ≤ 512
  fits : message.length ≤ 512 → result = message ∧ truncated = false
  cuts : 512 < message.length → truncated = true ∧ ∃ n, result = message.take n ++ ellipsis ∧
    IsGreatest {k | k ≤ 509 ∧ Boundary message k} n ∧ (ValidUtf8 message → 506 ≤ n)
  valid : ValidUtf8 message → ValidUtf8 result

theorem truncates_fits (h : message.length ≤ 512) : Truncates message false message :=
  ⟨h, fun _ => ⟨rfl, rfl⟩, fun hlong => absurd hlong (by omega), id⟩

theorem truncates_cut (h : 512 < message.length) :
    Truncates message true (message.take (cut message 509) ++ ellipsis) := by
  have hgreatest := cut_isGreatest message 509
  have hle : cut message 509 ≤ 509 := hgreatest.1.1
  refine ⟨?_, fun hfits => absurd h (by omega), fun _ => ⟨rfl, _, rfl, hgreatest, ?_⟩, ?_⟩
  · simp [ellipsis]
    omega
  · rintro ⟨chars, rfl⟩
    obtain ⟨before, after, -, hcut, hback⟩ :=
      cut_utf8 (n := 509) (show _ < (utf8 chars).length by omega)
    omega
  · rintro ⟨chars, rfl⟩
    obtain ⟨before, after, rfl, hcut, -⟩ :=
      cut_utf8 (n := 509) (show _ < (utf8 chars).length by omega)
    refine ⟨before ++ ['.', '.', '.'], ?_⟩
    rw [hcut, utf8_append, List.take_left, utf8_append]
    rfl

/-- Bytes that are copied behind those already there, into the free part of the buffer. -/
theorem memcpy_behind (written source : List UInt8) (free count : Nat)
    (hsource : count ≤ source.length) (hfree : count ≤ free) :
    memcpy (written ++ List.replicate free 0) written.length source count =
      some (written ++ source.take count ++ List.replicate (free - count) 0) := by
  rw [memcpy, if_pos ⟨hsource, by simpa using hfree⟩, List.take_left, List.drop_append,
    List.drop_of_length_le (by omega), List.drop_replicate]
  simp

/-- The stored state of a text, at the start of the buffer. -/
def storedText (state : AlarmState) (text : List UInt8) : StoredBuffer :=
  { severity := state.severity
    status := state.status
    length := text.length
    message := text ++ List.replicate (messageCapacity - text.length) 0 }

theorem encodeChecked_fits {state : AlarmState} (h : state.message.length ≤ messageCapacity) :
    encodeChecked state = some (storedText state state.message, false) := by
  have hcopy := memcpy_behind [] state.message _ _ le_rfl h
  rw [List.length_nil, List.nil_append, List.take_length, List.nil_append] at hcopy
  simp [encodeChecked, not_lt.mpr h, min_eq_left h, hcopy, storedText]

theorem encodeChecked_cut {state : AlarmState} (h : messageCapacity < state.message.length) :
    encodeChecked state =
      some (storedText state (state.message.take (cut state.message 509) ++ ellipsis), true) := by
  have hlong : 512 < state.message.length := h
  have hle : cut state.message 509 ≤ 509 := (cut_isGreatest _ 509).1.1
  have hlength : (state.message.take (cut state.message 509)).length = cut state.message 509 := by
    rw [List.length_take]
    omega
  have hcopy := memcpy_behind [] state.message messageCapacity (cut state.message 509)
    (by omega) (show _ ≤ 512 by omega)
  have hdots := memcpy_behind (state.message.take (cut state.message 509)) ellipsis
    (messageCapacity - cut state.message 509) 3 (by decide) (show 3 ≤ 512 - _ by omega)
  rw [List.length_nil, List.nil_append, List.nil_append] at hcopy
  rw [hlength, show ellipsis.take 3 = ellipsis by rfl] at hdots
  have hmin : min state.message.length (messageCapacity - 3) = 509 := min_eq_right (by omega)
  have hcut : cutChecked state.message 509 = _ := cutChecked_eq (by omega)
  simp [encodeChecked, h, hmin, hcut, hcopy, hdots, storedText, hlength, Nat.sub_add_eq,
    show ellipsis.length = 3 by rfl]

theorem decode_storedText (state : AlarmState) (text : List UInt8) :
    (storedText state text).decode.message = text := List.take_left

/-- **Truncation respects the bounds and the characters.**  No access is out of bounds, the
    buffer keeps its size, and what is decoded is the message or its truncation; the machine of
    the publisher computes with the same. -/
theorem encode_truncates (state : AlarmState) :
    ∃ stored truncated, encodeChecked state = some (stored, truncated) ∧
      stored.message.length = 512 ∧ stored.length ≤ 512 ∧
      Truncates state.message truncated stored.decode.message ∧
      encode state = ({ severity := stored.decode.severity, status := stored.decode.status
                        message := stored.decode.message }, truncated) := by
  have hbuffer : ∀ text, text.length ≤ 512 → (storedText state text).message.length = 512 := by
    intro text htext
    rw [storedText, List.length_append, List.length_replicate, messageCapacity]
    omega
  by_cases h : state.message.length ≤ messageCapacity
  · have htruncates := truncates_fits h
    refine ⟨_, _, encodeChecked_fits h, hbuffer _ h, h, ?_, ?_⟩
    · rw [decode_storedText]
      exact htruncates
    · rw [decode_storedText]
      simp [encode, not_lt.mpr h, min_eq_left h, storedText, StoredBuffer.decode]
  · have hlong := not_le.mp h
    have htruncates := truncates_cut hlong
    refine ⟨_, _, encodeChecked_cut hlong, hbuffer _ htruncates.bounded, htruncates.bounded, ?_, ?_⟩
    · rw [decode_storedText]
      exact htruncates
    · have hmin : min state.message.length (messageCapacity - 3) = 509 := min_eq_right (by
        simp only [messageCapacity] at hlong ⊢
        omega)
      rw [decode_storedText]
      simp [encode, hlong, hmin, storedText, StoredBuffer.decode]

end RedisPvxsIoc.Alarm
