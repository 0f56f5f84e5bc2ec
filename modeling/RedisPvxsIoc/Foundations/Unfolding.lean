import Mathlib

/-!
# Unfolding a Graph

A graph is given by the list of children of each node.  Its unfolding from a node is the tree
of all paths that start there; it is finite exactly if no path runs into a cycle.

## Main results

- `Shallow.acyclic`: a node of a finite unfolding does not reach itself
- `shallow_below`: what a walk with a stack of ancestors checks
-/

namespace RedisPvxsIoc.Foundations.Unfolding

variable {N : Type*} (children : N → List N)

/-- The unfolding from a node has at most this many levels. -/
def Shallow : Nat → N → Prop
  | 0, _ => False
  | level + 1, n => ∀ c ∈ children n, Shallow level c

/-- The weights of all nodes in these levels of the unfolding. -/
def total (weight : N → Nat) : Nat → N → Nat
  | 0, _ => 0
  | level + 1, n => weight n + ((children n).map (total weight level)).sum

/-- The nodes of the unfolding. -/
abbrev Reaches : N → N → Prop := Relation.ReflTransGen fun n c => c ∈ children n

variable {children} {level : Nat} {n m c : N}

theorem Shallow.succ (h : Shallow children level n) : Shallow children (level + 1) n := by
  induction level generalizing n with
  | zero => exact h.elim
  | succ level ih => exact fun c hc => ih (h c hc)

theorem Shallow.child (h : Shallow children level n) (hc : c ∈ children n) :
    Shallow children level c := by
  cases level with
  | zero => exact h.elim
  | succ level => exact (h c hc).succ

theorem Shallow.reaches (h : Shallow children level n) (hm : Reaches children n m) :
    Shallow children level m := by
  induction hm with
  | refl => exact h
  | tail _ hc ih => exact ih.child hc

/-- By induction on the levels: below a node that reaches itself the same unfolding begins one
    level further down. -/
theorem Shallow.acyclic (h : Shallow children level n) (hc : c ∈ children n) :
    ¬Reaches children c n := by
  intro hback
  induction level with
  | zero => exact h
  | succ level ih => exact ih ((h c hc).reaches hback)

theorem reaches_iff : Reaches children n m ↔ n = m ∨ ∃ c ∈ children n, Reaches children c m :=
  Relation.ReflTransGen.cases_head_iff

/-- A walk that remembers the ancestors: below a node they are those of the node and the node
    itself, which a finite unfolding does not reach again. -/
theorem shallow_below {ancestors : List N} (hn : n ∉ ancestors) :
    (∀ c ∈ children n, Shallow children level c ∧ ∀ a ∈ n :: ancestors, ¬Reaches children c a) ↔
      Shallow children (level + 1) n ∧ ∀ a ∈ ancestors, ¬Reaches children n a := by
  simp only [reaches_iff (n := n)]
  constructor
  · intro h
    exact ⟨fun c hc => (h c hc).1, by grind⟩
  · rintro ⟨hshallow, hfree⟩ c hc
    have hacyclic := hshallow.acyclic hc
    exact ⟨hshallow c hc, by grind⟩

end RedisPvxsIoc.Foundations.Unfolding
