import RedisPvxsIoc.Foundations.Unfolding

/-!
# The Structure of a Configuration File

`validateTree` of `src/config.cpp`.  Aliases make a YAML document a graph of nodes, which may
share children and have cycles; the check walks its unfolding with a stack of ancestors and a
counter of visits.

`Exact` says of a part of the walk when it succeeds and how many visits it takes; the rules for
it follow the loops of the source.

## Main results

- `exact_validateTree`
- `validateTree_exact`
-/

namespace RedisPvxsIoc.Config

open Foundations.Unfolding

/-- A node of the graph; an entry of a map is a key and a value. -/
inductive YamlShape (N : Type) where
  | null
  | scalar (text : String)
  | sequence (items : List N)
  | map (entries : List (N × N))

/-- `visited`, and the most calls that were nested so far. -/
structure Visits where
  visited : Nat := 0
  nested : Nat := 0

/-- Errors leave the counters as they are. -/
abbrev Validate := ExceptT String (StateM Visits)

def invalid (path message : String) : Validate Unit := throw (path ++ ": " ++ message)

/-! ## The walk -/

variable {N : Type} (graph : N → YamlShape N)

section Loops

variable (validate : String → N → Validate Unit) (path : String)

/-- The loop over the entries of a map, with the keys met so far. -/
def validateEntries : List String → List (N × N) → Validate Unit
  | _, [] => return
  | keys, (keyNode, value) :: entries =>
    match graph keyNode with
    | .scalar key => do
      if key ∈ keys then invalid (path ++ "." ++ key) "duplicate key"
      else
        validate (path ++ "." ++ key) value
        validateEntries (key :: keys) entries
    | _ => invalid path "mapping keys must be scalar strings"

def validateItems : Nat → List N → Validate Unit
  | _, [] => return
  | i, item :: items => do
    validate (path ++ "[" ++ toString i ++ "]") item
    validateItems (i + 1) items

end Loops

/-- The start of a call. -/
def visit (path : String) (depth : Nat) : Validate Unit := do
  modify fun s => { visited := s.visited + 1, nested := max s.nested (depth + 1) }
  if 1000000 < (← get).visited ∨ 64 ≤ depth then
    invalid path "configuration structure exceeds validation bounds"

/-- The first argument is `64 - ancestors.size()`; where it is zero nothing comes after the
    start. -/
def validateTree [DecidableEq N] : Nat → String → List N → N → Validate Unit
  | 0, path, ancestors, _ => visit path ancestors.length
  | level + 1, path, ancestors, node => do
    visit path ancestors.length
    if node ∈ ancestors then invalid path "recursive YAML aliases are unsupported"
    else match graph node with
      | .map entries =>
        validateEntries graph (validateTree level · (node :: ancestors)) path [] entries
      | .sequence items => validateItems (validateTree level · (node :: ancestors)) path 0 items
      | _ => return

/-! ## What it accepts -/

/-- The nodes that are visited below a node. -/
def children (n : N) : List N :=
  match graph n with
  | .map entries => entries.map Prod.snd
  | .sequence items => items
  | _ => []

/-- Keys are scalars, and no two of them are equal. -/
def KeysOk (keys : List (YamlShape N)) : Prop := (∀ k ∈ keys, ∃ text, k = .scalar text) ∧ keys.Nodup

/-- The keys of a map. -/
def keys (n : N) : List (YamlShape N) :=
  match graph n with
  | .map entries => entries.map fun e => graph e.1
  | _ => []

/-- How a part of the walk ends that starts with these counters: it succeeds exactly if `P` holds
    and `w` more visits are allowed, which it then has made. -/
structure Ends (s : Visits) (P : Prop) (w : Nat) (result : Except String Unit × Visits) : Prop where
  ok_iff : result.1 = .ok () ↔ P ∧ s.visited + w ≤ 1000000
  visited : result.1 = .ok () → result.2.visited = s.visited + w
  bound : result.2.visited ≤ 1000001
  nested : result.2.nested ≤ 65

def Exact (v : Validate Unit) (P : Prop) (w : Nat) : Prop :=
  ∀ s : Visits, s.visited ≤ 1000000 → s.nested ≤ 65 → Ends s P w (v.run s)

variable {v v' : Validate Unit} {P P' : Prop} {w w' : Nat}

theorem exact_pure : Exact (pure ()) True 0 :=
  fun _ hs hn => ⟨⟨fun _ => ⟨trivial, hs⟩, fun _ => rfl⟩, fun _ => rfl, Nat.le_succ_of_le hs, hn⟩

theorem exact_invalid (path message : String) (w : Nat) : Exact (invalid path message) False w :=
  fun _ hs hn => ⟨⟨fun h => (by cases h), fun h => h.1.elim⟩, fun h => (by cases h),
    Nat.le_succ_of_le hs, hn⟩

theorem run_bind (v v' : Validate Unit) (s : Visits) :
    (do v; v' : Validate Unit).run s =
      if (v.run s).1 = .ok () then v'.run (v.run s).2 else v.run s := by
  show ExceptT.bindCont (fun _ => v') (v.run s).1 (v.run s).2 = _
  rcases v.run s with ⟨_ | ⟨⟩, t⟩ <;> rfl

theorem Exact.bind (h : Exact v P w) (h' : Exact v' P' w') :
    Exact (do v; v') (P ∧ P') (w + w') := by
  intro s hs hn
  obtain ⟨hok, hvisited, hbound, hnested⟩ := h s hs hn
  have hrest := h' (v.run s).2
  rw [run_bind]
  constructor <;> grind [Ends]

theorem Exact.congr (h : Exact v P w) (hP : P ↔ P') (hw : P → w = w') : Exact v P' w' := by
  intro s hs hn
  obtain ⟨hok, hvisited, hbound, hnested⟩ := h s hs hn
  constructor <;> grind

theorem exact_visit (path : String) (depth : Nat) (hdepth : depth ≤ 64) :
    Exact (visit path depth) (depth < 64) 1 := by
  intro s hs hn
  have hvisited : s.visited + 1 ≤ 1000001 := Nat.succ_le_succ hs
  have hnested : max s.nested (depth + 1) ≤ 65 := by omega
  show Ends s _ _ ((if 1000000 < s.visited + 1 ∨ 64 ≤ depth then invalid path _ else pure ()).run
    ⟨s.visited + 1, max s.nested (depth + 1)⟩)
  split
  · exact ⟨⟨fun h => (by cases h), by omega⟩, fun h => (by cases h), hvisited, hnested⟩
  · exact ⟨⟨by omega, fun _ => rfl⟩, fun _ => rfl, hvisited, hnested⟩

variable {validate : String → N → Validate Unit} {Q : N → Prop} {weight : N → Nat}

theorem exact_validateItems (h : ∀ path n, Exact (validate path n) (Q n) (weight n))
    (path : String) (i : Nat) (items : List N) :
    Exact (validateItems validate path i items) (∀ n ∈ items, Q n) (items.map weight).sum := by
  induction items generalizing i with
  | nil => exact exact_pure.congr (by simp) fun _ => rfl
  | cons n items ih =>
    exact ((h _ n).bind (ih (i + 1))).congr List.forall_mem_cons.symm fun _ => rfl

theorem exact_validateEntries (graph : N → YamlShape N)
    (h : ∀ path n, Exact (validate path n) (Q n) (weight n)) (path : String) (seen : List String)
    (entries : List (N × N)) :
    Exact (validateEntries graph validate path seen entries)
      ((∀ n ∈ entries.map Prod.snd, Q n) ∧ KeysOk (entries.map fun e => graph e.1) ∧
        ∀ e ∈ entries, ∀ key ∈ seen, graph e.1 ≠ .scalar key)
      ((entries.map Prod.snd).map weight).sum := by
  induction entries generalizing seen with
  | nil => exact exact_pure.congr (by simp [KeysOk]) fun _ => rfl
  | cons e entries ih =>
    rw [validateEntries.eq_def]
    dsimp only
    split
    · rename_i key hkey
      split
      · exact (exact_invalid _ _ _).congr (by grind) fun _ => rfl
      · exact ((h _ e.2).bind (ih (key :: seen))).congr (by grind [KeysOk]) fun _ => rfl
    · exact (exact_invalid _ _ _).congr (by simp_all [KeysOk]) fun _ => rfl

theorem exact_validateTree [DecidableEq N] (level : Nat) (path : String)
    (ancestors : List N) (n : N)
    (hlevel : level + ancestors.length = 64) :
    Exact (validateTree graph level path ancestors n)
      ((Shallow (children graph) level n ∧ ∀ a ∈ ancestors, ¬Reaches (children graph) n a) ∧
        ∀ m, Reaches (children graph) n m → KeysOk (keys graph m))
      (total (children graph) (fun _ => 1) level n) := by
  have hvisit := exact_visit path ancestors.length (by omega)
  induction level generalizing path ancestors n with
  | zero => exact hvisit.congr (by simp [Shallow]; omega) (by omega)
  | succ level ih =>
    have hchild := fun path c =>
      ih path (n :: ancestors) c (by grind) (exact_visit path _ (by grind))
    rw [validateTree]
    split
    · -- the node is one of its ancestors
      rename_i hmem
      refine (hvisit.bind (exact_invalid _ _ 0)).congr ?_ (by simp)
      exact iff_of_false (by simp) fun h => h.1.2 n hmem .refl
    · rename_i hmem
      have hdown : (∀ c ∈ children graph n, (Shallow (children graph) level c ∧
          ∀ a ∈ n :: ancestors, ¬Reaches (children graph) c a) ∧
            ∀ m, Reaches (children graph) c m → KeysOk (keys graph m)) ∧ KeysOk (keys graph n) ↔
          (Shallow (children graph) (level + 1) n ∧
            ∀ a ∈ ancestors, ¬Reaches (children graph) n a) ∧
            ∀ m, Reaches (children graph) n m → KeysOk (keys graph m) := by
        rw [← shallow_below hmem]
        have hreach : ∀ m, Reaches (children graph) n m ↔ _ := fun m => reaches_iff
        grind
      have hlt : ancestors.length < 64 := by omega
      cases hshape : graph n with
      | map entries =>
        refine (hvisit.bind (exact_validateEntries graph hchild path [] entries)).congr ?_ ?_
        · rw [← hdown]
          simp [children, keys, hshape, hlt]
        · simp [total, children, hshape]
      | sequence items =>
        refine (hvisit.bind (exact_validateItems hchild path 0 items)).congr ?_ ?_
        · rw [← hdown]
          simp [children, keys, hshape, hlt, KeysOk]
        · simp [total, children, hshape]
      | null | scalar =>
        refine (hvisit.bind exact_pure).congr ?_ ?_
        · rw [← hdown]
          simp [children, keys, hshape, hlt, KeysOk]
        · simp [total, children, hshape]

/-- **Structure validation is exact and bounded**: it accepts the graphs whose unfolding is a
    tree of at most 64 levels and a million nodes with proper keys. -/
theorem validateTree_exact [DecidableEq N] (root : N) :
    (((validateTree graph 64 "root" [] root).run {}).1 = .ok () ↔
      Shallow (children graph) 64 root ∧ total (children graph) (fun _ => 1) 64 root ≤ 1000000 ∧
        ∀ n, Reaches (children graph) root n → KeysOk (keys graph n)) ∧
    ((validateTree graph 64 "root" [] root).run {}).2.visited ≤ 1000001 ∧
    ((validateTree graph 64 "root" [] root).run {}).2.nested ≤ 65 := by
  obtain ⟨hok, -, hbound, hnested⟩ := exact_validateTree graph 64 "root" [] root rfl {}
    (Nat.zero_le _) (Nat.zero_le _)
  refine ⟨hok.trans ?_, hbound, hnested⟩
  simp only [List.not_mem_nil, Nat.zero_add]
  tauto

end RedisPvxsIoc.Config
