import Mathlib.Data.List.Basic

/-!
# Secret files

Credentials are read from regular files of one line (`src/secrets.cpp`).  The file is read into a
fixed buffer three bytes larger than the limit, by as many `read` calls as the kernel needs: a call
may be interrupted or deliver only some of the bytes that are left.

## Main results

- `readLoop_ends`: a read loop whose calls make progress ends with the whole file in the buffer
- `readSecretFile_exact`: the secret is the content of the file without its line end, if that is
  one nonempty line within the limit
-/

namespace RedisPvxsIoc.Config

abbrev SecretBytes := List UInt8

/-- The answer of one `read` call; a transfer has at least one byte while there are any left. -/
inductive ReadEvent where
  | interrupted
  | failed
  | transfer (more : Nat)
  deriving DecidableEq, Repr

/-- What `open` and `fstat` find. -/
inductive SecretFile where
  | unopened (reason : String)
  | uninspected
  | irregular
  | regular (size : Nat) (content : SecretBytes)

inductive SecretResult where
  | value (secret : SecretBytes)
  | thrown (message : String)
  /-- A byte was written behind the buffer. -/
  | overrun
  deriving DecidableEq, Repr

def secretLimit : Nat := 16 * 1024

structure ReadState where
  buffer : SecretBytes
  used : Nat
  deriving DecidableEq, Repr

inductive ReadTurn where
  | again (s : ReadState)
  | finished (s : ReadState)
  | failed
  | overrun

/-- One `read` call at the offset of the bytes already read. -/
def readTurn (content : SecretBytes) (s : ReadState) : ReadEvent → ReadTurn
  | .interrupted => .again s
  | .failed => .failed
  | .transfer more =>
    let bytes := (content.drop s.used).take (min (more + 1) (s.buffer.length - s.used))
    if bytes.length = 0 then .finished s
    else if s.buffer.length < s.used + bytes.length then .overrun
    else .again ⟨s.buffer.take s.used ++ bytes ++ s.buffer.drop (s.used + bytes.length),
      s.used + bytes.length⟩

/-- The loop for at most `n` turns; `none` if it is still reading. -/
def readLoop (content : SecretBytes) : Nat → (Nat → ReadEvent) → ReadState → Option ReadTurn
  | 0, _, _ => none
  | n + 1, events, s =>
    if s.used < s.buffer.length then
      match readTurn content s (events 0) with
      | .again s => readLoop content n (fun i => events (i + 1)) s
      | turn => some turn
    else some (.finished s)

/-- The number of bytes without one line end, LF or CRLF. -/
def withoutLineEnd (s : ReadState) : Nat :=
  if s.used ≠ 0 ∧ s.buffer[s.used - 1]? = some 0x0a then
    let used := s.used - 1
    if used ≠ 0 ∧ s.buffer[used - 1]? = some 0x0d then used - 1 else used
  else s.used

/-- The checks after the loop. -/
def secretOf (setting : String) (s : ReadState) : SecretResult :=
  let used := withoutLineEnd s
  if secretLimit < used then .thrown (setting ++ ": secret exceeds 16384 bytes")
  else if used = 0 then .thrown (setting ++ ": secret file must not be empty")
  else
    let value := s.buffer.take used
    if value.any (fun c => c = 0x0d || c = 0x0a || c = 0) then
      .thrown (setting ++ ": secret must be one line without NUL")
    else .value value

def emptyBuffer : ReadState := ⟨List.replicate (secretLimit + 3) 0, 0⟩

/-- `readSecretFile` with at most `n` calls of `read`. -/
def readSecretFile (n : Nat) (events : Nat → ReadEvent) (path setting : String)
    (file : SecretFile) : Option SecretResult :=
  if path.toList = [] ∨ '\x00' ∈ path.toList then
    some (.thrown (setting ++ ": secret file path must be nonempty text"))
  else
    match file with
    | .unopened reason => some (.thrown (setting ++ ": cannot open secret file: " ++ reason))
    | .uninspected => some (.thrown (setting ++ ": cannot inspect secret file"))
    | .irregular => some (.thrown (setting ++ ": secret input must be a regular file"))
    | .regular size content =>
      if secretLimit + 2 < size then some (.thrown (setting ++ ": secret exceeds 16384 bytes"))
      else (readLoop content n events emptyBuffer).map fun turn =>
        match turn with
        | .finished s => secretOf setting s
        | .failed => .thrown (setting ++ ": cannot read secret file")
        | .overrun => .overrun
        | .again _ => .overrun

/-! ## The read loop -/

section Loop

variable {content : SecretBytes} {s : ReadState} {events : Nat → ReadEvent}

/-- The first `used` bytes of the file are in the buffer, which keeps its size. -/
structure Filled (content : SecretBytes) (s : ReadState) : Prop where
  size : s.buffer.length = secretLimit + 3
  within : s.used ≤ content.length
  bytes : s.buffer.take s.used = content.take s.used

/-- Calls are interrupted only finitely often in a row, and none of them fails. -/
structure Progress (events : Nat → ReadEvent) : Prop where
  succeeds : ∀ i, events i ≠ .failed
  moves : ∀ i, ∃ j, events (i + j) ≠ .interrupted

theorem Progress.tail (h : Progress events) : Progress fun i => events (i + 1) where
  succeeds i := h.succeeds (i + 1)
  moves i := by
    obtain ⟨j, hj⟩ := h.moves (i + 1)
    exact ⟨j, by rwa [Nat.add_right_comm]⟩

theorem filled_emptyBuffer (content : SecretBytes) : Filled content emptyBuffer where
  size := List.length_replicate
  within := Nat.zero_le _
  bytes := rfl

/-- A transfer finds the end of the file or adds some of its bytes within the buffer. -/
theorem Filled.transfer (h : Filled content s) (hfits : content.length ≤ secretLimit + 2)
    (more : Nat) :
    (readTurn content s (.transfer more) = .finished s ∧ s.used = content.length) ∨
      ∃ s', readTurn content s (.transfer more) = .again s' ∧ Filled content s' ∧
        s.used < s'.used := by
  have hsize := h.size
  have hwithin := h.within
  generalize hbytes : (content.drop s.used).take (min (more + 1) (s.buffer.length - s.used)) =
    bytes
  have hlength : bytes.length =
      min (min (more + 1) (s.buffer.length - s.used)) (content.length - s.used) := by
    rw [← hbytes, List.length_take, List.length_drop]
  simp only [readTurn, hbytes]
  by_cases hend : s.used = content.length
  · exact .inl ⟨if_pos (by omega), hend⟩
  · rw [if_neg (by omega), if_neg (by omega)]
    refine .inr ⟨_, rfl, ⟨?_, ?_, ?_⟩, ?_⟩
    · simp only [List.length_append, List.length_take, List.length_drop]
      omega
    · dsimp only
      omega
    · have htake : (s.buffer.take s.used ++ bytes).length = s.used + bytes.length := by
        rw [List.length_append, List.length_take]
        omega
      rw [List.take_left' htake, h.bytes, ← hbytes, List.take_add]
      congr 1
      rw [hbytes, ← hbytes, List.length_take, List.take_eq_take_iff]
      rw [List.length_drop]
      omega
    · dsimp only
      omega

/-- A transfer leads to the end of the loop if every further state of it does. -/
theorem readLoop_transfer (hfits : content.length ≤ secretLimit + 2) (h : Filled content s)
    (hroom : s.used < s.buffer.length) {more : Nat} (hfirst : events 0 = .transfer more)
    (hrest : ∀ s', Filled content s' → s.used < s'.used →
      ∃ turns, ∀ n, turns ≤ n → ∃ s'', readLoop content n (fun i => events (i + 1)) s' =
        some (.finished s'') ∧ Filled content s'' ∧ s''.used = content.length) :
    ∃ turns, ∀ n, turns ≤ n → ∃ s'', readLoop content n events s = some (.finished s'') ∧
      Filled content s'' ∧ s''.used = content.length := by
  obtain ⟨hturn, hend⟩ | ⟨s', hturn, hfilled, hless⟩ := h.transfer hfits more
  · refine ⟨1, fun n hn => ⟨s, ?_, h, hend⟩⟩
    obtain ⟨n, rfl⟩ := Nat.exists_eq_add_of_le' hn
    rw [readLoop, if_pos hroom, hfirst, hturn]
  · obtain ⟨turns, hturns⟩ := hrest s' hfilled hless
    refine ⟨turns + 1, fun n hn => ?_⟩
    obtain ⟨n, rfl⟩ := Nat.exists_eq_add_of_le' (Nat.le_of_add_left_le hn)
    rw [readLoop, if_pos hroom, hfirst, hturn]
    exact hturns n (by omega)

/-- By induction on the bytes that are left, and for each of them on the interruptions before
    the next transfer. -/
theorem readLoop_ends (hfits : content.length ≤ secretLimit + 2) (h : Filled content s)
    (hevents : Progress events) :
    ∃ turns, ∀ n, turns ≤ n → ∃ s', readLoop content n events s = some (.finished s') ∧
      Filled content s' ∧ s'.used = content.length := by
  induction hleft : content.length - s.used using Nat.strongRecOn generalizing s events with
  | _ left ih =>
  have hroom : s.used < s.buffer.length := by
    have := h.size
    have := h.within
    omega
  have hless : ∀ {events}, Progress events → ∀ s', Filled content s' → s.used < s'.used → _ :=
    fun hevents s' hfilled hless =>
      ih (content.length - s'.used) (by have := hfilled.within; omega) hfilled hevents.tail rfl
  obtain ⟨wait, hwait⟩ := hevents.moves 0
  rw [Nat.zero_add] at hwait
  induction wait generalizing events with
  | zero =>
    cases hfirst : events 0 with
    | interrupted => exact absurd hfirst hwait
    | failed => exact absurd hfirst (hevents.succeeds 0)
    | transfer more => exact readLoop_transfer hfits h hroom hfirst (hless hevents)
  | succ wait ihwait =>
    cases hfirst : events 0 with
    | interrupted =>
      obtain ⟨turns, hturns⟩ := ihwait hevents.tail hwait
      refine ⟨turns + 1, fun n hn => ?_⟩
      obtain ⟨n, rfl⟩ := Nat.exists_eq_add_of_le' (Nat.le_of_add_left_le hn)
      rw [readLoop, if_pos hroom, hfirst]
      exact hturns n (by omega)
    | failed => exact absurd hfirst (hevents.succeeds 0)
    | transfer more => exact readLoop_transfer hfits h hroom hfirst (hless hevents)

/-- A transfer is cut to the room that is left, whatever the file has. -/
theorem readTurn_cases (h : s.used ≤ s.buffer.length) (event : ReadEvent) :
    readTurn content s event = .failed ∨ readTurn content s event = .finished s ∨
      ∃ s', readTurn content s event = .again s' ∧ s'.used ≤ s'.buffer.length := by
  cases event with
  | interrupted => exact .inr (.inr ⟨s, rfl, h⟩)
  | failed => exact .inl rfl
  | transfer more =>
    generalize hbytes : (content.drop s.used).take (min (more + 1) (s.buffer.length - s.used)) =
      bytes
    have hlength : bytes.length ≤ s.buffer.length - s.used := by
      rw [← hbytes, List.length_take]
      omega
    simp only [readTurn, hbytes]
    split
    · exact .inr (.inl rfl)
    · rw [if_neg (by omega)]
      refine .inr (.inr ⟨_, rfl, ?_⟩)
      simp only [List.length_append, List.length_take, List.length_drop]
      omega

/-- Also if the calls never make progress or fail. -/
theorem readLoop_within (h : s.used ≤ s.buffer.length) {n : Nat} {turn : ReadTurn}
    (hloop : readLoop content n events s = some turn) :
    turn = .failed ∨ ∃ s', turn = .finished s' := by
  induction n generalizing events s with
  | zero => cases hloop
  | succ n ih =>
    rw [readLoop] at hloop
    split at hloop
    · obtain hturn | hturn | ⟨s', hturn, hused⟩ := @readTurn_cases content s h (events 0)
      · rw [hturn] at hloop
        exact .inl (Option.some.inj hloop).symm
      · rw [hturn] at hloop
        exact .inr ⟨s, (Option.some.inj hloop).symm⟩
      · rw [hturn] at hloop
        exact ih hused hloop
    · exact .inr ⟨s, (Option.some.inj hloop).symm⟩

end Loop

/-! ## The secret -/

/-- `secret` is the only line of the file; its line end may be missing. -/
def IsSecret (content secret : SecretBytes) : Prop :=
  (content = secret ∨ content = secret ++ [0x0a] ∨ content = secret ++ [0x0d, 0x0a]) ∧
    1 ≤ secret.length ∧ secret.length ≤ 16384 ∧ ∀ c ∈ secret, c ≠ 0x0d ∧ c ≠ 0x0a ∧ c ≠ 0

section Secret

/-- The loop's buffer, and the three ways for a file to end. -/
theorem withoutLineEnd_cases (content rest : SecretBytes) :
    ∃ kept ending, content = kept ++ ending ∧
      withoutLineEnd ⟨content ++ rest, content.length⟩ = kept.length ∧
      (ending = [] ∧ kept.getLast? ≠ some 0x0a ∨ ending = [0x0a] ∧ kept.getLast? ≠ some 0x0d ∨
        ending = [0x0d, 0x0a]) := by
  have hlast : ∀ (init : SecretBytes) last rest, (init ++ [last] ++ rest)[init.length]? =
      some last := by
    intro init last rest
    rw [List.append_assoc, List.getElem?_append_right (Nat.le_refl _), Nat.sub_self]
    rfl
  obtain rfl | ⟨init, last, rfl⟩ := List.eq_nil_or_concat' content
  · exact ⟨[], [], rfl, rfl, .inl ⟨rfl, fun h => by cases h⟩⟩
  by_cases hlf : last = 0x0a
  · subst hlf
    obtain rfl | ⟨init, last, rfl⟩ := List.eq_nil_or_concat' init
    · exact ⟨[], [0x0a], rfl, rfl, .inr (.inl ⟨rfl, fun h => by cases h⟩)⟩
    have hends : withoutLineEnd ⟨init ++ [last] ++ [0x0a] ++ rest,
        (init ++ [last] ++ [0x0a]).length⟩ =
        if last = 0x0d then init.length else init.length + 1 := by
      have hbefore := hlast init last ([0x0a] ++ rest)
      have hend := hlast (init ++ [last]) 0x0a rest
      rw [← List.append_assoc] at hbefore
      simp only [List.length_append, List.length_singleton] at hend ⊢
      simp only [withoutLineEnd, Nat.add_sub_cancel, hend, hbefore, Option.some.injEq]
      split <;> simp_all
    by_cases hcr : last = 0x0d
    · subst hcr
      refine ⟨init, [0x0d, 0x0a], List.append_assoc _ _ _, ?_, .inr (.inr rfl)⟩
      rw [hends, if_pos rfl]
    · refine ⟨init ++ [last], [0x0a], rfl, ?_, .inr (.inl ⟨rfl, ?_⟩)⟩
      · rw [hends, if_neg hcr, List.length_append, List.length_singleton]
      · rw [List.getLast?_concat]
        exact fun h => hcr (Option.some.inj h)
  · refine ⟨init ++ [last], [], (List.append_nil _).symm, ?_, .inl ⟨rfl, ?_⟩⟩
    · rw [withoutLineEnd, if_neg]
      rintro ⟨-, h⟩
      rw [List.length_append, List.length_singleton, Nat.add_sub_cancel, hlast init last rest] at h
      exact hlf (Option.some.inj h)
    · rw [List.getLast?_concat]
      exact fun h => hlf (Option.some.inj h)

/-- A line end that the content has cannot be part of the secret. -/
theorem isSecret_iff {kept ending secret : SecretBytes}
    (hending : ending = [] ∧ kept.getLast? ≠ some 0x0a ∨
      ending = [0x0a] ∧ kept.getLast? ≠ some 0x0d ∨ ending = [0x0d, 0x0a]) :
    IsSecret (kept ++ ending) secret ↔ secret = kept ∧ 1 ≤ kept.length ∧ kept.length ≤ 16384 ∧
      ∀ c ∈ kept, c ≠ 0x0d ∧ c ≠ 0x0a ∧ c ≠ 0 := by
  constructor
  · rintro ⟨hline, hnonempty, hlimit, hbytes⟩
    suffices h : secret = kept by
      subst h
      exact ⟨rfl, hnonempty, hlimit, hbytes⟩
    have hlf : ∀ init : SecretBytes, secret ≠ init ++ [0x0a] := by
      rintro init rfl
      exact (hbytes 0x0a (List.mem_append_right _ (List.mem_singleton.mpr rfl))).2.1 rfl
    have hcr : ∀ init : SecretBytes, secret ≠ init ++ [0x0d] := by
      rintro init rfl
      exact (hbytes 0x0d (List.mem_append_right _ (List.mem_singleton.mpr rfl))).1 rfl
    have hsplit : ∀ init : SecretBytes, init ++ [0x0d, 0x0a] = init ++ [0x0d] ++ [0x0a] :=
      fun init => (List.append_assoc init [0x0d] [0x0a]).symm
    obtain ⟨rfl, hlast⟩ | ⟨rfl, hlast⟩ | rfl := hending
    · rw [List.append_nil] at hline
      obtain rfl | rfl | rfl := hline
      · rfl
      · exact absurd List.getLast?_concat hlast
      · rw [hsplit] at hlast
        exact absurd List.getLast?_concat hlast
    · obtain h | h | h := hline
      · exact absurd h.symm (hlf kept)
      · exact (List.append_cancel_right h).symm
      · rw [hsplit] at h
        rw [List.append_cancel_right h] at hlast
        exact absurd List.getLast?_concat hlast
    · obtain h | h | h := hline
      · rw [hsplit] at h
        exact absurd h.symm (hlf _)
      · rw [hsplit] at h
        exact absurd (List.append_cancel_right h).symm (hcr kept)
      · exact (List.append_cancel_right h).symm
  · rintro ⟨rfl, hkept⟩
    refine ⟨?_, hkept⟩
    obtain ⟨rfl, -⟩ | ⟨rfl, -⟩ | rfl := hending
    · exact .inl (List.append_nil _)
    · exact .inr (.inl rfl)
    · exact .inr (.inr rfl)

/-- The checks after the loop decide whether the file has a secret. -/
theorem secretOf_cases (setting : String) (content rest : SecretBytes) :
    (∃ secret, secretOf setting ⟨content ++ rest, content.length⟩ = .value secret ∧
        ∀ c, IsSecret content c ↔ c = secret) ∨
      (∃ e, secretOf setting ⟨content ++ rest, content.length⟩ = .thrown e) ∧
        ∀ c, ¬IsSecret content c := by
  obtain ⟨kept, ending, rfl, hused, hending⟩ := withoutLineEnd_cases content rest
  simp only [secretOf, hused, secretLimit, isSecret_iff hending]
  split
  · exact .inr ⟨⟨_, rfl⟩, fun c h => by omega⟩
  split
  · exact .inr ⟨⟨_, rfl⟩, fun c h => by omega⟩
  rw [List.append_assoc, List.take_left']
  · split
    · rename_i hany
      refine .inr ⟨⟨_, rfl⟩, fun c h => ?_⟩
      obtain ⟨b, hmem, hb⟩ := List.any_eq_true.mp hany
      have := h.2.2.2 b hmem
      simp_all
    · rename_i hany
      refine .inl ⟨kept, rfl, fun c => ⟨And.left, fun h => ⟨h, by omega, by omega, ?_⟩⟩⟩
      intro b hmem
      have := fun hb => hany (List.any_eq_true.mpr ⟨b, hmem, hb⟩)
      simp_all
  · rfl

/-- **Secret files are read exactly.**  No call of `read` is given more room than the buffer has
    left, and once the calls make progress the result depends on the content alone. -/
theorem readSecretFile_exact (path : String)
    (hpath : path.toList ≠ [] ∧ '\x00' ∉ path.toList) (setting : String) (content : SecretBytes)
    (events : Nat → ReadEvent) :
    (∀ n, readSecretFile n events path setting (.regular content.length content) ≠
      some .overrun) ∧
    (Progress events → ∃ turns, ∀ n, turns ≤ n →
      (∃ secret, readSecretFile n events path setting (.regular content.length content) =
          some (.value secret) ∧ ∀ c, IsSecret content c ↔ c = secret) ∨
        (∃ e, readSecretFile n events path setting (.regular content.length content) =
          some (.thrown e)) ∧ ∀ c, ¬IsSecret content c) := by
  have hbad : ¬(path.toList = [] ∨ '\x00' ∈ path.toList) := not_or.mpr hpath
  simp only [readSecretFile, if_neg hbad]
  constructor
  · intro n
    split
    · intro h
      cases h
    · intro h
      obtain ⟨turn, hloop, hturn⟩ := Option.map_eq_some_iff.mp h
      obtain rfl | ⟨s, rfl⟩ := readLoop_within (Nat.zero_le _) hloop
      · cases hturn
      · dsimp only [secretOf] at hturn
        split_ifs at hturn
  · intro hevents
    split
    · rename_i hsize
      refine ⟨0, fun n _ => .inr ⟨⟨_, rfl⟩, fun c h => ?_⟩⟩
      obtain ⟨rfl | rfl | rfl, -, hlimit, -⟩ := h
      all_goals
        simp only [secretLimit, List.length_append, List.length_cons, List.length_nil] at hsize
        omega
    · obtain ⟨turns, hturns⟩ :=
        readLoop_ends (by omega) (filled_emptyBuffer content) hevents
      refine ⟨turns, fun n hn => ?_⟩
      obtain ⟨⟨buffer, used⟩, hloop, hfilled, hused⟩ := hturns n hn
      dsimp only at hused
      subst hused
      have hbuffer := hfilled.bytes
      rw [List.take_length] at hbuffer
      rw [hloop]
      dsimp only [Option.map_some]
      rw [← List.take_append_drop content.length buffer, hbuffer]
      obtain ⟨secret, hsecret, hexact⟩ | ⟨⟨e, he⟩, hno⟩ :=
        secretOf_cases setting content (buffer.drop content.length)
      · exact .inl ⟨secret, congrArg some hsecret, hexact⟩
      · exact .inr ⟨⟨e, congrArg some he⟩, hno⟩

/-- Every other call is interrupted, and the others deliver one byte. -/
def alternating (i : Nat) : ReadEvent := if i % 2 = 0 then .interrupted else .transfer 0

theorem readSecretFile_exact_alternating :
    ∃ n, readSecretFile n alternating "/run/key" "KEY" (.regular 4 [0x61, 0x62, 0x0d, 0x0a]) =
      some (.value [0x61, 0x62]) := by
  have hevents : Progress alternating := by
    refine ⟨fun i => ?_, fun i => ⟨(i + 1) % 2, ?_⟩⟩
    · unfold alternating
      split <;> exact fun h => by cases h
    · rw [alternating, if_neg (by omega)]
      exact fun h => by cases h
  have hsecret : IsSecret [0x61, 0x62, 0x0d, 0x0a] [0x61, 0x62] := by
    exact ⟨.inr (.inr rfl), by simp, by simp, by simp⟩
  obtain ⟨turns, hturns⟩ := (readSecretFile_exact "/run/key" (by decide) "KEY"
    [0x61, 0x62, 0x0d, 0x0a] alternating).2 hevents
  obtain ⟨secret, hvalue, hexact⟩ | ⟨-, hno⟩ := hturns turns (Nat.le_refl _)
  · obtain rfl := (hexact _).mp hsecret
    exact ⟨turns, hvalue⟩
  · exact absurd hsecret (hno _)

end Secret

end RedisPvxsIoc.Config
