import Mathlib.Data.List.Basic

/-!
# Ladders of Rules with Hysteresis

A *ladder* is a list of tiers, the most severe first, and a tier is a list of rules.  A rule
has a status, the values for which it applies, and the values for which it is kept when its
status was reported before.  A tier reports the first of its rules that applies and, when none
does, the one whose status was reported before if it is kept; the ladder reports what its first
tier with a report says, together with the rank of that tier.

A prior status that no rule has is a *fresh* start: nothing is kept then.

## Main results

- `rank_fresh_le`, `status_of_rank_lt`: hysteresis only raises a report, and only by keeping
  the prior status
- `le_rank_of_kept`: a rule that is kept holds the rank of its tier
- `evaluate_eq_fresh`: without a band there is no hysteresis
- `evaluate_idempotent`: a report is stable
-/

namespace RedisPvxsIoc.Foundations.Hysteresis

structure Rule (V S : Type*) where
  status : S
  applies : V → Bool
  keeps : V → Bool

variable {V S : Type*} [DecidableEq S]

/-- The rule of the tier that was reported before, if it is kept. -/
def kept (tier : List (Rule V S)) (v : V) (prior : S) : Option (Rule V S) :=
  tier.find? fun r => r.status = prior && r.keeps v

/-- What a tier reports. -/
def select (tier : List (Rule V S)) (v : V) (prior : S) : Option (Rule V S) :=
  (tier.find? fun r => r.applies v).or (kept tier v prior)

/-- What a ladder reports: the rank of a tier, counted from the last one, and a status. -/
def evaluate : List (List (Rule V S)) → V → S → Option (Nat × S)
  | [], _, _ => none
  | tier :: lower, v, prior =>
    match select tier v prior with
    | some r => some (lower.length + 1, r.status)
    | none => evaluate lower v prior

def rank (report : Option (Nat × S)) : Nat := report.elim 0 Prod.fst

/-- The status to report, `fresh` without an alarm. -/
def statusOr (fresh : S) (report : Option (Nat × S)) : S := report.elim fresh Prod.snd

/-- No rule of the ladder has the status. -/
def Fresh (tiers : List (List (Rule V S))) (status : S) : Prop :=
  ∀ tier ∈ tiers, ∀ r ∈ tier, r.status ≠ status

variable {tier : List (Rule V S)} {tiers lower : List (List (Rule V S))} {v : V}
  {prior fresh : S}

/-! ## One tier -/

theorem kept_eq_none (h : ∀ r ∈ tier, r.status ≠ prior) : kept tier v prior = none := by
  refine List.find?_eq_none.mpr fun r hr => ?_
  simp [h r hr]

variable {r : Rule V S}

theorem status_of_kept (h : kept tier v prior = some r) : r.status = prior := by
  have hr := List.find?_some h
  simp only [Bool.and_eq_true, decide_eq_true_eq] at hr
  exact hr.1

theorem select_fresh (h : ∀ r ∈ tier, r.status ≠ fresh) :
    select tier v fresh = tier.find? fun r => r.applies v := by
  rw [select, kept_eq_none h, Option.or_none]

/-- A tier reports a rule that applies, whatever was reported before, or the prior status. -/
theorem select_cases (h : select tier v prior = some r) :
    (∀ other, select tier v other = some r) ∨ r.status = prior := by
  cases hnow : tier.find? fun r => r.applies v with
  | some r' =>
    have heq : ∀ other, select tier v other = some r' := fun other => by
      rw [select, hnow, Option.some_or]
    rw [heq] at h
    exact .inl (Option.some.inj h ▸ heq)
  | none =>
    rw [select, hnow, Option.none_or] at h
    exact .inr (status_of_kept h)

theorem select_eq_none : select tier v prior = none ↔
    (∀ r ∈ tier, r.applies v = false) ∧ kept tier v prior = none := by
  rw [select, Option.or_eq_none_iff, List.find?_eq_none]
  simp

omit [DecidableEq S] in
theorem find?_pair (a b : Rule V S) (p : Rule V S → Bool) :
    [a, b].find? p = if p a then some a else if p b then some b else none := by
  cases ha : p a <;> cases hb : p b <;> simp [ha, hb]

/-- A tier of two rules is a chain of four tests. -/
theorem select_pair (a b : Rule V S) (v : V) (prior : S) :
    select [a, b] v prior =
      if a.applies v then some a
      else if b.applies v then some b
      else if a.status = prior && a.keeps v then some a
      else if b.status = prior && b.keeps v then some b
      else none := by
  rw [select, kept, find?_pair, find?_pair]
  cases a.applies v with
  | true => rfl
  | false =>
    cases b.applies v with
    | true => rfl
    | false => rfl

/-! ## Ladders -/

theorem evaluate_cons_some (h : select tier v prior = some r) :
    evaluate (tier :: lower) v prior = some (lower.length + 1, r.status) := by
  simp only [evaluate, h]

theorem evaluate_cons_none (h : select tier v prior = none) :
    evaluate (tier :: lower) v prior = evaluate lower v prior := by
  simp only [evaluate, h]

/-- A ladder whose first tier has two rules is a chain of four tests in front of the rest. -/
theorem evaluate_pair (a b : Rule V S) (lower : List (List (Rule V S))) (v : V) (prior : S) :
    evaluate ([a, b] :: lower) v prior =
      if a.applies v then some (lower.length + 1, a.status)
      else if b.applies v then some (lower.length + 1, b.status)
      else if a.status = prior && a.keeps v then some (lower.length + 1, a.status)
      else if b.status = prior && b.keeps v then some (lower.length + 1, b.status)
      else evaluate lower v prior := by
  rw [evaluate, select_pair]
  split_ifs <;> rfl

theorem rank_le_length (tiers : List (List (Rule V S))) (v : V) (prior : S) :
    rank (evaluate tiers v prior) ≤ tiers.length := by
  induction tiers with
  | nil => exact Nat.zero_le _
  | cons tier lower ih =>
    cases h : select tier v prior with
    | some r => rw [evaluate_cons_some h]; exact Nat.le_refl _
    | none => rw [evaluate_cons_none h]; exact Nat.le_succ_of_le ih

/-- Where a prior status keeps nothing, a fresh start finds nothing either. -/
theorem select_fresh_none (hfresh : ∀ r ∈ tier, r.status ≠ fresh)
    (h : select tier v prior = none) : select tier v fresh = none :=
  select_eq_none.mpr ⟨(select_eq_none.mp h).1, kept_eq_none hfresh⟩

theorem rank_fresh_le (hfresh : Fresh tiers fresh) :
    rank (evaluate tiers v fresh) ≤ rank (evaluate tiers v prior) := by
  induction tiers with
  | nil => exact Nat.le_refl _
  | cons tier lower ih =>
    obtain ⟨htier, hlower⟩ := List.forall_mem_cons.mp hfresh
    cases h : select tier v prior with
    | some r =>
      rw [evaluate_cons_some h]
      exact rank_le_length (tier :: lower) v fresh
    | none =>
      rw [evaluate_cons_none h, evaluate_cons_none (select_fresh_none htier h)]
      exact ih hlower

theorem status_of_rank_lt (hfresh : Fresh tiers fresh)
    (hlt : rank (evaluate tiers v fresh) < rank (evaluate tiers v prior)) :
    statusOr fresh (evaluate tiers v prior) = prior := by
  induction tiers with
  | nil => exact absurd hlt (Nat.lt_irrefl _)
  | cons tier lower ih =>
    obtain ⟨htier, hlower⟩ := List.forall_mem_cons.mp hfresh
    cases h : select tier v prior with
    | some r =>
      rw [evaluate_cons_some h] at hlt ⊢
      rcases select_cases h with hsame | hprior
      · -- a rule that applies is reported after a fresh start too
        rw [evaluate_cons_some (hsame fresh)] at hlt
        exact absurd hlt (Nat.lt_irrefl _)
      · exact hprior
    | none =>
      rw [evaluate_cons_none h, evaluate_cons_none (select_fresh_none htier h)] at hlt
      rw [evaluate_cons_none h]
      exact ih hlower hlt

theorem le_rank_of_kept {upper : List (List (Rule V S))} (hr : r ∈ tier)
    (hkeeps : r.keeps v = true) :
    lower.length + 1 ≤ rank (evaluate (upper ++ tier :: lower) v r.status) := by
  induction upper with
  | nil =>
    have hselect : select tier v r.status ≠ none := by
      intro hnone
      have hkept := List.find?_eq_none.mp (select_eq_none.mp hnone).2 r hr
      simp [hkeeps] at hkept
    obtain ⟨r', hr'⟩ := Option.ne_none_iff_exists'.mp hselect
    rw [List.nil_append, evaluate_cons_some hr']
    exact Nat.le_refl _
  | cons first upper ih =>
    cases h : select first v r.status with
    | some r' =>
      rw [List.cons_append, evaluate_cons_some h]
      simp only [rank, Option.elim_some, List.length_append, List.length_cons]
      omega
    | none =>
      rw [List.cons_append, evaluate_cons_none h]
      exact ih

theorem evaluate_eq_fresh (hfresh : Fresh tiers fresh)
    (hband : ∀ tier ∈ tiers, ∀ r ∈ tier, r.keeps v = true → r.applies v = true) :
    evaluate tiers v prior = evaluate tiers v fresh := by
  induction tiers with
  | nil => rfl
  | cons tier lower ih =>
    obtain ⟨htier, hlower⟩ := List.forall_mem_cons.mp hfresh
    obtain ⟨hbandTier, hbandLower⟩ := List.forall_mem_cons.mp hband
    have hsame : select tier v prior = select tier v fresh := by
      cases hnow : tier.find? fun r => r.applies v with
      | some r => rw [select, select, hnow, Option.some_or, Option.some_or]
      | none =>
        -- what is kept would apply
        have hkept : kept tier v prior = none := by
          refine List.find?_eq_none.mpr fun r hr hkept => ?_
          simp only [Bool.and_eq_true] at hkept
          exact List.find?_eq_none.mp hnow r hr (hbandTier r hr hkept.2)
        rw [select_fresh htier, select, hkept, Option.or_none]
    simp only [evaluate, hsame]
    rw [ih hlower hbandLower]

/-- The status of a report is that of a rule, or fresh. -/
theorem statusOr_evaluate (tiers : List (List (Rule V S))) (v : V) (prior fresh : S) :
    statusOr fresh (evaluate tiers v prior) = fresh ∨
      ∃ tier ∈ tiers, ∃ r ∈ tier, r.status = statusOr fresh (evaluate tiers v prior) := by
  induction tiers with
  | nil => exact .inl rfl
  | cons tier lower ih =>
    cases h : select tier v prior with
    | some r =>
      rw [evaluate_cons_some h]
      refine .inr ⟨tier, List.mem_cons_self, r, ?_, rfl⟩
      rcases Option.or_eq_some_iff.mp h with hnow | ⟨-, hkept⟩
      · exact List.mem_of_find?_eq_some hnow
      · exact List.mem_of_find?_eq_some hkept
    | none =>
      rw [evaluate_cons_none h]
      rcases ih with hfresh | ⟨tier', htier', r, hr, hstatus⟩
      · exact .inl hfresh
      · exact .inr ⟨tier', List.mem_cons_of_mem _ htier', r, hr, hstatus⟩

/-- **A report is stable**: evaluated again with the status it reported, the ladder reports the
    same, if no two tiers share a status. -/
theorem evaluate_idempotent (hfresh : Fresh tiers fresh)
    (hdistinct : tiers.Pairwise fun x y => ∀ r ∈ x, ∀ r' ∈ y, r.status ≠ r'.status) :
    evaluate tiers v (statusOr fresh (evaluate tiers v prior)) = evaluate tiers v prior := by
  induction tiers with
  | nil => rfl
  | cons tier lower ih =>
    obtain ⟨htier, hlower⟩ := List.forall_mem_cons.mp hfresh
    obtain ⟨hapart, hdistinct⟩ := List.pairwise_cons.mp hdistinct
    cases h : select tier v prior with
    | some r =>
      rw [evaluate_cons_some h]
      rcases select_cases h with hsame | hprior
      · exact evaluate_cons_some (hsame _)
      · have hselect : select tier v r.status = some r := by rw [hprior]; exact h
        exact evaluate_cons_some hselect
    | none =>
      rw [evaluate_cons_none h]
      -- the status comes from a lower tier, so this one keeps nothing
      have hkept : kept tier v (statusOr fresh (evaluate lower v prior)) = none := by
        refine kept_eq_none fun r hr => ?_
        rcases statusOr_evaluate lower v prior fresh with heq | ⟨tier', htier', r', hr', heq⟩
        · rw [heq]
          exact htier r hr
        · rw [← heq]
          exact hapart tier' htier' r hr r' hr'
      rw [evaluate_cons_none (select_eq_none.mpr ⟨(select_eq_none.mp h).1, hkept⟩)]
      exact ih hlower hdistinct

end RedisPvxsIoc.Foundations.Hysteresis
