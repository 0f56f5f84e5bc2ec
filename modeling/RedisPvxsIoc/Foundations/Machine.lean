import Mathlib.Order.Bounds.Basic

/-!
# Labelled Machines and Their Runs

A component that several threads drive is described by a *machine*: a set of start
states and a partial step function.  A label names one atomic section of one thread
together with everything the outside world decides about it (a clock reading, the
answer of a server, the point at which an exception is thrown), so the step function
stays executable and every interleaving is a list of labels.

## Main definitions

- `Machine.exec` runs a list of labels, `none` when one of them is not enabled
- `Machine.states` lists the states of a run
- `Machine.record` keeps a record of a run, `Machine.observe` carries it along
- `Machine.Reachable` collects the states at the end of some run
- `Machine.Guarded` is the side condition "every step of this run meets `ok`"

## Main results

- `Machine.Reachable.invariant` and `Machine.Reachable.invariant_with`
- `Machine.peak_isGreatest` for high-water marks
- `Machine.exec_guarded_invariant` for runs restricted by a step condition
- `Machine.forall_states_iff_guarded` for properties that exactly some steps keep, and
  `Machine.pairwise_states_iff_guarded` for quantities that exactly some steps do not lower
-/

namespace RedisPvxsIoc.Foundations

/-- A labelled machine: the states it may start in and what each label does.
    `step s a = none` means that label `a` is not enabled in `s`. -/
structure Machine (σ α : Type*) where
  start : σ → Prop
  step : σ → α → Option σ

namespace Machine

variable {σ α : Type*} (m : Machine σ α)

/-- Run a list of labels from `s`. -/
def exec : σ → List α → Option σ
  | s, [] => some s
  | s, a :: as => (m.step s a).bind fun s' => exec s' as

/-- The states that a run from `s` goes through, `s` and the last one included. -/
def states : σ → List α → List σ
  | s, [] => [s]
  | s, a :: as => s :: ((m.step s a).map fun s' => states s' as).getD []

/-- Every step of the run that starts in `s` and follows the labels meets `ok`
    in the state in which it is taken. -/
def Guarded (ok : σ → α → Prop) : σ → List α → Prop
  | _, [] => True
  | s, a :: as => ok s a ∧ ∀ s', m.step s a = some s' → Guarded ok s' as

/-- A decidable step condition can be checked along a run. -/
instance decidableGuarded {ok : σ → α → Prop} [∀ s a, Decidable (ok s a)] :
    ∀ (s : σ) (as : List α), Decidable (m.Guarded ok s as)
  | _, [] => isTrue trivial
  | s, a :: as =>
    match hstep : m.step s a with
    | none => decidable_of_iff (ok s a) (by simp [Guarded, hstep])
    | some s' =>
      have : Decidable (m.Guarded ok s' as) := decidableGuarded s' as
      decidable_of_iff (ok s a ∧ m.Guarded ok s' as) (by simp [Guarded, hstep])

/-- What an observer has on record after a run, who notes every step: the state it is
    taken in, its label and the state it leads to. -/
def record {γ : Type*} (note : σ → α → σ → γ → γ) : γ → σ → List α → γ
  | r, _, [] => r
  | r, s, a :: as =>
    match m.step s a with
    | some s' => record note (note s a s' r) s' as
    | none => r

/-- The machine together with such an observer, for conditions on steps that depend on what
    happened before. -/
def observe {γ : Type*} (note : σ → α → σ → γ → γ) (r₀ : γ) : Machine (σ × γ) α where
  start x := m.start x.1 ∧ x.2 = r₀
  step x a := (m.step x.1 a).map fun s' => (s', note x.1 a s' x.2)

/-- The states at the end of a run from a start state. -/
def Reachable (s : σ) : Prop :=
  ∃ s₀ as, m.start s₀ ∧ m.exec s₀ as = some s

/-! ## Runs -/

@[simp] theorem exec_nil (s : σ) : m.exec s [] = some s := rfl

variable {s t : σ} {as : List α}

theorem exec_cons_iff {a : α} :
    m.exec s (a :: as) = some t ↔ ∃ s', m.step s a = some s' ∧ m.exec s' as = some t := by
  simp only [exec, Option.bind_eq_some_iff]

theorem exec_append {u : σ} {bs : List α} (hs : m.exec s as = some t) (ht : m.exec t bs = some u) :
    m.exec s (as ++ bs) = some u := by
  induction as generalizing s with
  | nil =>
    cases hs
    exact ht
  | cons a as ih =>
    obtain ⟨s', hstep, hrest⟩ := m.exec_cons_iff.mp hs
    exact m.exec_cons_iff.mpr ⟨s', hstep, ih hrest⟩

variable {P : σ → Prop}

/-- A property that every step keeps holds at the end of a run that starts with it. -/
theorem exec_invariant (hstep : ∀ s a s', P s → m.step s a = some s' → P s') (hs : P s)
    (hrun : m.exec s as = some t) : P t := by
  induction as generalizing s with
  | nil =>
    cases hrun
    exact hs
  | cons a as ih =>
    obtain ⟨s', hfirst, hrest⟩ := m.exec_cons_iff.mp hrun
    exact ih (hstep s a s' hs hfirst) hrest

variable {ok : σ → α → Prop}

/-- The same rule for runs all of whose steps meet `ok`: only such steps have to
    keep the property. -/
theorem exec_guarded_invariant (hstep : ∀ s a s', P s → ok s a → m.step s a = some s' → P s')
    (hs : P s) (hok : m.Guarded ok s as) (hrun : m.exec s as = some t) : P t := by
  induction as generalizing s with
  | nil =>
    cases hrun
    exact hs
  | cons a as ih =>
    obtain ⟨s', hfirst, hrest⟩ := m.exec_cons_iff.mp hrun
    exact ih (hstep s a s' hs hok.1 hfirst) (hok.2 s' hfirst) hrest

/-- The rule for what relates a state to the record of the run that led to it. -/
theorem exec_record_invariant {γ : Type*} {note : σ → α → σ → γ → γ} {P : σ → γ → Prop}
    (hstep : ∀ s a s' r, P s r → m.step s a = some s' → P s' (note s a s' r)) {r : γ} (hs : P s r)
    (hrun : m.exec s as = some t) :
    P t (m.record note r s as) := by
  induction as generalizing s r with
  | nil =>
    cases hrun
    exact hs
  | cons a as ih =>
    obtain ⟨s', hfirst, hrest⟩ := m.exec_cons_iff.mp hrun
    simp only [record, hfirst]
    exact ih (hstep s a s' r hs hfirst) hrest

/-- A state on the way: the run to it and the run from it. -/
theorem exec_of_mem_states {u : σ} (hrun : m.exec s as = some t) (hu : u ∈ m.states s as) :
    ∃ bs cs, as = bs ++ cs ∧ m.exec s bs = some u ∧
      m.exec u cs = some t := by
  induction as generalizing s with
  | nil =>
    obtain rfl := List.mem_singleton.mp hu
    exact ⟨[], [], rfl, rfl, hrun⟩
  | cons a as ih =>
    obtain ⟨s', hfirst, hrest⟩ := m.exec_cons_iff.mp hrun
    rw [states, hfirst] at hu
    rcases List.mem_cons.mp hu with rfl | htail
    · exact ⟨[], a :: as, rfl, rfl, hrun⟩
    · obtain ⟨bs, cs, rfl, hbs, hcs⟩ := ih hrest htail
      exact ⟨a :: bs, cs, rfl, m.exec_cons_iff.mpr ⟨s', hfirst, hbs⟩, hcs⟩

theorem self_mem_states (s : σ) (as : List α) : s ∈ m.states s as := by
  cases as <;> simp [states]

variable {I : σ → Prop}

/-- **When a property holds all along a run**: if in the states of the invariant `I` exactly
    the steps that meet `ok` keep `P`, a run from a state with `P` stays in `P` exactly when
    all its steps meet `ok`. -/
theorem forall_states_iff_guarded (hinv : ∀ s a s', I s → m.step s a = some s' → I s')
    (hstep : ∀ s a s', I s → P s → m.step s a = some s' → (P s' ↔ ok s a)) (hI : I s) (hP : P s)
    (hrun : m.exec s as = some t) :
    (∀ u ∈ m.states s as, P u) ↔ m.Guarded ok s as := by
  induction as generalizing s with
  | nil => simpa [states, Guarded] using hP
  | cons a as ih =>
    obtain ⟨s', hfirst, hrest⟩ := m.exec_cons_iff.mp hrun
    have hiff := hstep s a s' hI hP hfirst
    simp only [states, Guarded, hfirst, Option.map_some, Option.getD_some, List.forall_mem_cons,
      Option.some.injEq, forall_eq']
    constructor
    · rintro ⟨-, hall⟩
      have hP' := hall s' (m.self_mem_states s' as)
      exact ⟨hiff.mp hP', (ih (hinv s a s' hI hfirst) hP' hrest).mp hall⟩
    · rintro ⟨hok, hguard⟩
      exact ⟨hP, (ih (hinv s a s' hI hfirst) (hiff.mpr hok) hrest).mpr hguard⟩

theorem states_eq_cons (s : σ) (as : List α) : ∃ rest, m.states s as = s :: rest := by
  cases as with
  | nil => exact ⟨[], rfl⟩
  | cons a as => exact ⟨_, rfl⟩

/-- **When a quantity never falls along a run**: if among the steps that meet `env` exactly
    those that meet `ok` do not lower `f`, a run of such steps never lowers `f` exactly when
    all its steps meet `ok`. -/
theorem pairwise_states_iff_guarded {β : Type*} [Preorder β] {f : σ → β} {env : σ → α → Prop}
    (hinv : ∀ s a s', I s → env s a → ok s a → m.step s a = some s' → I s')
    (hstep : ∀ s a s', I s → env s a → m.step s a = some s' → (f s ≤ f s' ↔ ok s a)) (hI : I s)
    (henv : m.Guarded env s as) (hrun : m.exec s as = some t) :
    (m.states s as).Pairwise (fun x y => f x ≤ f y) ↔ m.Guarded ok s as := by
  induction as generalizing s with
  | nil => simp [states, Guarded]
  | cons a as ih =>
    obtain ⟨s', hfirst, hrest⟩ := m.exec_cons_iff.mp hrun
    have hiff := hstep s a s' hI henv.1 hfirst
    have htail := fun hok => ih (hinv s a s' hI henv.1 hok hfirst) (henv.2 s' hfirst) hrest
    simp only [states, Guarded, hfirst, Option.map_some, Option.getD_some, List.pairwise_cons,
      Option.some.injEq, forall_eq']
    constructor
    · rintro ⟨hhead, hpairs⟩
      have hok := hiff.mp (hhead s' (m.self_mem_states s' as))
      exact ⟨hok, (htail hok).mp hpairs⟩
    · rintro ⟨hok, hguard⟩
      have hpairs := (htail hok).mpr hguard
      refine ⟨?_, hpairs⟩
      -- the first state of the rest lies below all others
      obtain ⟨rest, hstates⟩ := m.states_eq_cons s' as
      rw [hstates] at hpairs ⊢
      intro y hy
      rcases List.mem_cons.mp hy with rfl | hy
      · exact hiff.mpr hok
      · exact le_trans (hiff.mpr hok) ((List.pairwise_cons.mp hpairs).1 y hy)

/-- A quantity `peak` that every step raises to at least `value`, and to no more, is the
    greatest `value` of the run. -/
theorem peak_isGreatest (value peak : σ → Nat)
    (hstep : ∀ s a s', value s ≤ peak s → m.step s a = some s' →
      peak s' = max (peak s) (value s')) (hs : peak s = value s) (hrun : m.exec s as = some t) :
    IsGreatest {v | ∃ u ∈ m.states s as, value u = v} (peak t) := by
  -- along the run the peak is that of the start or a value that was met
  suffices hgen : ∀ as s, value s ≤ peak s → m.exec s as = some t →
      (peak t = peak s ∨ ∃ u ∈ m.states s as, value u = peak t) ∧ peak s ≤ peak t ∧
        ∀ u ∈ m.states s as, value u ≤ peak t by
    obtain ⟨hmet, -, hbound⟩ := hgen as s (le_of_eq hs.symm) hrun
    have hself := m.self_mem_states s as
    refine ⟨?_, ?_⟩
    · rcases hmet with heq | hmet
      · exact ⟨s, hself, hs.symm.trans heq.symm⟩
      · exact hmet
    · rintro v ⟨u, hu, rfl⟩
      exact hbound u hu
  intro as
  induction as with
  | nil =>
    intro s hle hrun
    cases hrun
    exact ⟨.inl rfl, le_refl _, by simpa [states] using hle⟩
  | cons a as ih =>
    intro s hle hrun
    obtain ⟨s', hfirst, hrest⟩ := m.exec_cons_iff.mp hrun
    have hpeak := hstep s a s' hle hfirst
    obtain ⟨hmet, hmono, hbound⟩ := ih s' (by omega) hrest
    have hself := m.self_mem_states s' as
    simp only [states, hfirst, Option.map_some, Option.getD_some, List.mem_cons]
    refine ⟨?_, by omega, ?_⟩
    · rcases hmet with heq | ⟨u, hu, hv⟩
      · rcases le_total (value s') (peak s) with hold | hnew
        · exact .inl (by omega)
        · exact .inr ⟨s', .inr hself, by omega⟩
      · exact .inr ⟨u, .inr hu, hv⟩
    · rintro u (rfl | hu)
      · omega
      · exact hbound u hu

/-! ## Reachable states -/

variable {m}

theorem Reachable.of_start (hs : m.start s) : m.Reachable s :=
  ⟨s, [], hs, rfl⟩

theorem Reachable.step {s' : σ} {a : α} (hs : m.Reachable s) (hstep : m.step s a = some s') :
    m.Reachable s' := by
  obtain ⟨s₀, as, hstart, hrun⟩ := hs
  refine ⟨s₀, as ++ [a], hstart, m.exec_append hrun ?_⟩
  exact m.exec_cons_iff.mpr ⟨s', hstep, rfl⟩

theorem Reachable.exec (hs : m.Reachable s) (hrun : m.exec s as = some t) : m.Reachable t := by
  obtain ⟨s₀, bs, hstart, hbs⟩ := hs
  exact ⟨s₀, bs ++ as, hstart, m.exec_append hbs hrun⟩

/-- **Invariant rule**: a property of every start state that every step keeps holds in
    every reachable state. -/
theorem Reachable.invariant (hstart : ∀ s, m.start s → P s)
    (hstep : ∀ s a s', P s → m.step s a = some s' → P s') (hs : m.Reachable s) : P s := by
  obtain ⟨s₀, as, h₀, hrun⟩ := hs
  exact m.exec_invariant hstep (hstart s₀ h₀) hrun

/-- Invariant rule relative to an invariant that is known already: the step may use
    `I` on both sides. -/
theorem Reachable.invariant_with (hI : ∀ s, m.Reachable s → I s) (hstart : ∀ s, m.start s → P s)
    (hstep : ∀ s a s', I s → I s' → P s → m.step s a = some s' → P s') (hs : m.Reachable s) :
    P s := by
  have hboth : m.Reachable s ∧ P s := by
    refine Reachable.invariant (P := fun s => m.Reachable s ∧ P s) ?_ ?_ hs
    · intro s h
      exact ⟨Reachable.of_start h, hstart s h⟩
    · intro s a s' h h'
      have hr := h.1.step h'
      exact ⟨hr, hstep s a s' (hI s h.1) (hI s' hr) h.2 h'⟩
  exact hboth.2

end Machine

end RedisPvxsIoc.Foundations
