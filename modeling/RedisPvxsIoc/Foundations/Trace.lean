import Mathlib.Data.List.Basic

/-!
# Order of Events in a Log

A ghost log grows at its end, so the order of two events is a sublist of length two.  The
lemmas say what one more event can add.

## Main results

- `before_concat_iff`
-/

namespace RedisPvxsIoc.Foundations

variable {α : Type*}

/-- An occurrence of `a` comes before an occurrence of `b`. -/
def Before (log : List α) (a b : α) : Prop := [a, b].Sublist log

variable {log : List α} {a : α}

theorem Before.mono {b : α} (h : Before log a b) (more : List α) :
    Before (log ++ more) a b :=
  h.trans (List.sublist_append_left log more)

theorem before_concat (h : a ∈ log) (b : α) : Before (log ++ [b]) a b :=
  (List.singleton_sublist.mpr h).append (List.Sublist.refl [b])

/-- The last event of a log comes after all others and before none. -/
theorem before_concat_iff {b c : α} :
    Before (log ++ [c]) a b ↔ Before log a b ∨ (a ∈ log ∧ b = c) := by
  constructor
  · intro h
    obtain ⟨l₁, l₂, hsplit, h₁, h₂⟩ := List.sublist_append_iff.mp h
    -- the part of the pair that falls into the last event is empty or that event
    rcases List.sublist_singleton.mp h₂ with rfl | rfl
    · rw [List.append_nil] at hsplit
      rw [← hsplit] at h₁
      exact .inl h₁
    · have hpair : [a] ++ [b] = l₁ ++ [c] := hsplit
      obtain ⟨hl, hc⟩ := List.append_inj' hpair rfl
      refine .inr ⟨?_, List.singleton_inj.mp hc⟩
      exact List.singleton_sublist.mp (hl ▸ h₁)
  · rintro (h | ⟨ha, rfl⟩)
    · exact h.mono [c]
    · exact before_concat ha _

end RedisPvxsIoc.Foundations
