import RedisPvxsIoc.Access.Acf

/-!
# Preparing an Access Policy

Model of `readTextFile`, `expandMacros`, `fingerprint` and `preparePolicy` in
`src/access_control.cpp`.  The file system, the macro library and the access library answer
from a `MacroLibrary` and an `AccessWorld`; one character of a `String` is one byte of the
source's strings.

## Main results

- `preparePolicy_ok`: a prepared policy is the expansion of one read of the file, its
  fingerprint is that of the expansion, and it defines every required group
- `expandMacros_exact`: an expansion is returned whole or not at all
-/

namespace RedisPvxsIoc.Access

open Foundations Config

def kMaxRawPolicyBytes : Nat := 1024 * 1024

def kMaxExpandedPolicyBytes : Nat := 4 * 1024 * 1024

/-! ## The world outside -/

/-- What one attempt to read a file meets.  The size is taken first, the bytes afterwards. -/
inductive FileRead where
  | cannotOpen
  | noSize
  | bytes (length : Nat) (text : Option String)
  deriving DecidableEq, Repr

/-- The macro library.  Expansions are C strings. -/
structure MacroLibrary where
  /-- The whole expansion; `none` when a macro is undefined. -/
  expansion : FinMap String String → String → Option String
  terminated : ∀ macros input text, expansion macros input = some text → '\x00' ∉ text.toList

/-- What the libraries answer during one operation. -/
structure AccessWorld where
  file : String → FileRead
  /-- Whether a macro context can be made. -/
  macCreateHandle : Bool
  /-- `none` when the library takes the text; otherwise the message, and the policy that was
      active stays active. -/
  asInitMem : String → Option String
  /-- Whether a member of the group can be added. -/
  asAddMember : String → Bool

/-! ## Reading and expanding -/

def readTextFile (path : String) : FileRead → Except String String
  | .cannotOpen => .error ("cannot open ACF file '" ++ path ++ "'")
  | .noSize => .error ("cannot determine ACF file size for '" ++ path ++ "'")
  | .bytes length text =>
    if kMaxRawPolicyBytes < length then
      .error ("ACF file exceeds the 1 MiB limit: '" ++ path ++ "'")
    else match text with
      | none => .error ("cannot read ACF file '" ++ path ++ "'")
      | some text =>
        if text.toList.contains '\x00' then
          .error ("ACF file contains a NUL byte: '" ++ path ++ "'")
        else .ok text

/-- What `macExpandString` writes into a buffer of `size` bytes. -/
def MacroLibrary.macExpandString (lib : MacroLibrary) (macros : FinMap String String)
    (input : String) (size : Nat) : Option String :=
  (lib.expansion macros input).map fun text => String.ofList (text.toList.take (size - 1))

/-- The loop over growing buffers.  The capacity doubles from at least 4096, so twelve turns
    reach the limit. -/
def expandLoop (lib : MacroLibrary) (macros : FinMap String String) (input : String) :
    Nat → Nat → Except String String
  | 0, _ => .error "expanded ACF exceeds supported size"
  | n + 1, capacity =>
    match lib.macExpandString macros input capacity with
    | none => .error "ACF contains an undefined macro"
    | some output =>
      if output.toList.length + 1 < capacity then .ok output
      else if capacity = kMaxExpandedPolicyBytes + 1 then
        .error "expanded ACF exceeds supported size"
      else expandLoop lib macros input n (min (kMaxExpandedPolicyBytes + 1) (capacity * 2))

def expandMacros (lib : MacroLibrary) (w : AccessWorld) (input : String)
    (macros : FinMap String String) : Except String String :=
  if w.macCreateHandle then
    expandLoop lib macros input 12
      (min (kMaxExpandedPolicyBytes + 1) (max (input.toList.length + 1024) 4096))
  else .error "failed to create ACF macro context"

variable {lib : MacroLibrary}

/-- What is returned is the whole expansion. -/
theorem expandLoop_ok {macros : FinMap String String} {input output : String} {n capacity : Nat}
    (h : expandLoop lib macros input n capacity = .ok output) :
    lib.expansion macros input = some output := by
  induction n generalizing capacity with
  | zero => cases h
  | succ n ih =>
    rw [expandLoop] at h
    unfold MacroLibrary.macExpandString at h
    cases hfull : lib.expansion macros input with
    | none =>
      rw [hfull] at h
      cases h
    | some text =>
      simp only [hfull, Option.map_some] at h
      split at h
      · rename_i hroom
        cases h
        rw [String.toList_ofList, List.length_take] at hroom
        -- the buffer was not filled, so nothing was cut off
        have hshort : text.toList.length ≤ capacity - 1 := by omega
        rw [List.take_of_length_le hshort, String.ofList_toList]
      · split at h
        · cases h
        · rw [← hfull]
          exact ih h

theorem expandMacros_ok {w : AccessWorld} {macros : FinMap String String} {input output : String}
    (h : expandMacros lib w input macros = .ok output) :
    lib.expansion macros input = some output := by
  unfold expandMacros at h
  split at h
  · exact expandLoop_ok h
  · cases h

/-- The loop as the source runs it, without a bound on its turns. -/
inductive Expanding (lib : MacroLibrary) (macros : FinMap String String) (input : String) :
    Nat → Except String String → Prop where
  | undefined {capacity : Nat} (hnone : lib.macExpandString macros input capacity = none) :
    Expanding lib macros input capacity (.error "ACF contains an undefined macro")
  | fits {capacity : Nat} {output : String}
      (hsome : lib.macExpandString macros input capacity = some output)
      (hroom : output.toList.length + 1 < capacity) :
    Expanding lib macros input capacity (.ok output)
  | full {output : String}
      (hsome : lib.macExpandString macros input (kMaxExpandedPolicyBytes + 1) = some output)
      (hroom : ¬output.toList.length + 1 < kMaxExpandedPolicyBytes + 1) :
    Expanding lib macros input (kMaxExpandedPolicyBytes + 1)
      (.error "expanded ACF exceeds supported size")
  | grow {capacity : Nat} {output : String} {result : Except String String}
      (hsome : lib.macExpandString macros input capacity = some output)
      (hroom : ¬output.toList.length + 1 < capacity)
      (hmore : capacity ≠ kMaxExpandedPolicyBytes + 1)
      (hrest : Expanding lib macros input (min (kMaxExpandedPolicyBytes + 1) (capacity * 2))
        result) :
    Expanding lib macros input capacity result

section Expanding

variable {macros : FinMap String String} {input : String}

/-- By induction on the turns: each of them doubles the capacity or reaches the limit. -/
theorem expanding_expandLoop {n capacity : Nat} (hlimit : capacity ≤ kMaxExpandedPolicyBytes + 1)
    (hturns : kMaxExpandedPolicyBytes + 1 ≤ capacity * 2 ^ n) :
    Expanding lib macros input capacity (expandLoop lib macros input (n + 1) capacity) := by
  induction n generalizing capacity with
  | zero =>
    obtain rfl : capacity = kMaxExpandedPolicyBytes + 1 := by omega
    rw [expandLoop]
    cases hexpand : lib.macExpandString macros input (kMaxExpandedPolicyBytes + 1) with
    | none => exact .undefined hexpand
    | some output =>
      dsimp only
      split
      · exact .fits hexpand ‹_›
      · rw [if_pos rfl]
        exact .full hexpand ‹_›
  | succ n ih =>
    rw [expandLoop]
    cases hexpand : lib.macExpandString macros input capacity with
    | none => exact .undefined hexpand
    | some output =>
      dsimp only
      split
      · exact .fits hexpand ‹_›
      · split
        · rename_i hroom hlast
          subst hlast
          exact .full hexpand hroom
        · refine .grow hexpand ‹_› ‹_› (ih (Nat.min_le_left _ _) ?_)
          obtain hle | hle := Nat.le_total (kMaxExpandedPolicyBytes + 1) (capacity * 2)
          · rw [Nat.min_eq_left hle]
            exact Nat.le_mul_of_pos_right _ (Nat.two_pow_pos n)
          · rw [Nat.min_eq_right hle, Nat.mul_assoc, ← Nat.pow_succ']
            exact hturns

/-- A turn returns only what it did not cut off, and the last one has room for every expansion
    below the limit. -/
theorem Expanding.result {capacity : Nat} {result : Except String String}
    (h : Expanding lib macros input capacity result)
    (hlimit : capacity ≤ kMaxExpandedPolicyBytes + 1) :
    (lib.expansion macros input = none → ∃ e, result = .error e) ∧
      ∀ text, lib.expansion macros input = some text →
        if text.toList.length < kMaxExpandedPolicyBytes then result = .ok text
        else ∃ e, result = .error e := by
  have hwritten : ∀ size output, lib.macExpandString macros input size = some output →
      ∃ text, lib.expansion macros input = some text ∧
        output = String.ofList (text.toList.take (size - 1)) := by
    intro size output h
    obtain ⟨text, htext, hout⟩ := Option.map_eq_some_iff.mp h
    exact ⟨text, htext, hout.symm⟩
  induction h with
  | undefined hnone =>
    have : lib.expansion macros input = none := Option.map_eq_none_iff.mp hnone
    refine ⟨fun _ => ⟨_, rfl⟩, fun text htext => ?_⟩
    rw [this] at htext
    cases htext
  | @fits capacity output hsome hroom =>
    obtain ⟨text, htext, rfl⟩ := hwritten _ _ hsome
    rw [String.toList_ofList, List.length_take] at hroom
    refine ⟨fun h => ?_, fun text' htext' => ?_⟩
    · rw [h] at htext
      cases htext
    · obtain rfl := Option.some.inj (htext.symm.trans htext')
      rw [if_pos (by omega), List.take_of_length_le (by omega), String.ofList_toList]
  | full hsome hroom =>
    obtain ⟨text, htext, rfl⟩ := hwritten _ _ hsome
    rw [String.toList_ofList, List.length_take] at hroom
    refine ⟨fun _ => ⟨_, rfl⟩, fun text' htext' => ?_⟩
    obtain rfl := Option.some.inj (htext.symm.trans htext')
    rw [if_neg (by omega)]
    exact ⟨_, rfl⟩
  | grow _ _ _ _ ih => exact ih (Nat.min_le_left _ _)

end Expanding

/-- **Expansions are never truncated.**  The loop ends, and returns the whole expansion exactly if
    no macro is undefined and the expansion is below the limit. -/
theorem expandMacros_exact (lib : MacroLibrary) (w : AccessWorld) (input : String)
    (macros : FinMap String String) :
    (w.macCreateHandle = false → ∃ e, expandMacros lib w input macros = .error e) ∧
    (w.macCreateHandle = true →
      Expanding lib macros input
        (min (kMaxExpandedPolicyBytes + 1) (max (input.toList.length + 1024) 4096))
        (expandMacros lib w input macros) ∧
      (lib.expansion macros input = none → ∃ e, expandMacros lib w input macros = .error e) ∧
      ∀ text, lib.expansion macros input = some text →
        if text.toList.length < kMaxExpandedPolicyBytes then
          expandMacros lib w input macros = .ok text
        else ∃ e, expandMacros lib w input macros = .error e) := by
  unfold expandMacros
  refine ⟨fun h => ⟨_, by rw [h]; rfl⟩, fun h => ?_⟩
  rw [if_pos h]
  -- eleven doublings of the least first capacity pass the limit
  have hrun := @expanding_expandLoop lib macros input 11
    (min (kMaxExpandedPolicyBytes + 1) (max (input.toList.length + 1024) 4096))
    (Nat.min_le_left _ _) (by unfold kMaxExpandedPolicyBytes; omega)
  exact ⟨hrun, hrun.result (Nat.min_le_left _ _)⟩

/-! ## Fingerprints -/

/-- One turn of the hash loop, on 64 bits. -/
def hashByte (hash : Nat) (ch : Char) : Nat :=
  ((hash ^^^ ch.toNat % 256) * 1099511628211) % 2 ^ 64

def fingerprint (text : String) : String :=
  let hash := text.toList.foldl hashByte 1469598103934665603
  String.ofList ((Nat.toDigits 16 hash).leftpad 16 '0')

/-! ## The policy -/

structure PreparedPolicy where
  raw : String
  rawFingerprint : String
  expanded : String
  fingerprint : String
  groups : NameSet

/-- The loop over the required groups. -/
def requireGroups (groups : NameSet) (requiredAsgs : NameSet) : Except String Unit :=
  match requiredAsgs.keys.find? fun asg => !groups.contains asg with
  | some asg => .error ("ACF does not define required ASG '" ++ asg ++ "'")
  | none => .ok ()

def preparePolicy (lib : MacroLibrary) (w : AccessWorld) (config : AccessConfig)
    (requiredAsgs : NameSet) : Except String PreparedPolicy := do
  let raw ← readTextFile config.file (w.file config.file)
  let expanded ← expandMacros lib w raw config.macros
  let groups ← inspectAcf expanded
  requireGroups groups requiredAsgs
  return {
    raw, rawFingerprint := fingerprint raw, expanded, fingerprint := fingerprint expanded, groups }

/-- The policy text is the expansion of the given bytes of the file. -/
structure DerivedFrom (lib : MacroLibrary) (config : AccessConfig) (raw expanded print : String) :
    Prop where
  expansion : lib.expansion config.macros raw = some expanded
  fingerprint : print = fingerprint expanded

/-- Every group of `asgs` is one that the parser finds in the text. -/
def GroupsDefined (text : String) (asgs : NameSet) : Prop :=
  ∃ groups, inspectAcf text = .ok groups ∧ ∀ asg ∈ asgs.keys, groups.contains asg = true

/-- **What a prepared policy is.** -/
theorem preparePolicy_ok {w : AccessWorld} {config : AccessConfig} {requiredAsgs : NameSet}
    {policy : PreparedPolicy} (h : preparePolicy lib w config requiredAsgs = .ok policy) :
    DerivedFrom lib config policy.raw policy.expanded policy.fingerprint ∧
      GroupsDefined policy.expanded requiredAsgs ∧ '\x00' ∉ policy.expanded.toList ∧
      readTextFile config.file (w.file config.file) = .ok policy.raw := by
  simp only [preparePolicy, bind_eq_ok] at h
  obtain ⟨raw, hraw, expanded, hexpanded, groups, hgroups, ⟨⟩, hrequired, h⟩ := h
  cases h
  have hfull := expandMacros_ok hexpanded
  refine ⟨⟨hfull, rfl⟩, ⟨groups, hgroups, ?_⟩, lib.terminated _ _ _ hfull, hraw⟩
  intro asg hasg
  unfold requireGroups at hrequired
  cases hfind : requiredAsgs.keys.find? fun asg => !groups.contains asg with
  | some missing =>
    rw [hfind] at hrequired
    cases hrequired
  | none =>
    have hnone := List.find?_eq_none.mp hfind asg hasg
    simpa using hnone

end RedisPvxsIoc.Access
