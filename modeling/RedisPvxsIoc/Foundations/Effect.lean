import Mathlib.Data.List.Basic

/-!
# Programs That Change a State and May Throw

A function that mutates an object and may throw half-way is an `EStateM String σ α`: the
state at the point of the exception is what the caller finds, nothing is undone.  Two
judgements are enough to reason about such programs.

- `Within R x`: running `x` relates the state before to the state after by `R`, whether `x`
  returns or throws.  With a preorder `R` this is a frame rule, closed under sequencing,
  branching, loops and handlers.
- `Returns x s a t`: started in `s`, `x` returns `a` and leaves `t`.

A function that answers `false` and a message instead of throwing returns an `Outcome`, and
`AllOrNothing R x` says that `x` either reports success or has moved the state only within `R`.
A program over one `Component` of a larger state is run there with `zoom`.  For loops without a
state the same induction is stated for `Except`.

## Main results

- `Within.bind`, `Within.tryCatch`, `Within.foldlM`, `Within.forM`
- `returns_bind`, `Within.bind_returns`, `final_bind`, `foldlM_returns`
- `AllOrNothing.bind`, `AllOrNothing.andThen`, `AllOrNothing.reported`
- `Within.zoom`, `returns_zoom`
- `bind_eq_ok`, `foldlM_ok`
-/

namespace RedisPvxsIoc.Foundations

/-- A program over the state `σ` that returns an `α` or throws a message. -/
abbrev Effect (σ α : Type) := EStateM String σ α

/-- The state in which a program stops. -/
def final {σ α : Type} : EStateM.Result String σ α → σ
  | .ok _ s => s
  | .error _ s => s

section Loops

variable {ε α β : Type}

variable {x : Except ε α}

theorem bind_eq_ok {f : α → Except ε β} {b : β} :
    (x >>= f) = .ok b ↔ ∃ a, x = .ok a ∧ f a = .ok b := by
  cases x with
  | ok a => simp [bind, Except.bind]
  | error e => simp [bind, Except.bind]

/-- Two continuations that agree on what the first part returns. -/
theorem bind_congr_ok {f g : α → Except ε β} (h : ∀ a, x = .ok a → f a = g a) :
    (x >>= f) = (x >>= g) := by
  cases x with
  | error e => rfl
  | ok a => exact h a rfl

variable {f : β → α → Except ε β}

/-- The loop rule for `Except`, by induction on what is still to come: `P done acc` holds after
    the elements in `done`. -/
theorem foldlM_ok {P : List α → β → Prop} {l : List α}
    (hstep : ∀ done x rest acc acc', l = done ++ x :: rest → P done acc → f acc x = .ok acc' →
      P (done ++ [x]) acc')
    {init out : β} (hinit : P [] init) (hloop : l.foldlM f init = .ok out) : P l out := by
  suffices hgen : ∀ todo done acc, l = done ++ todo → P done acc →
      todo.foldlM f acc = .ok out → P l out from hgen l [] init rfl hinit hloop
  intro todo
  induction todo with
  | nil =>
    intro done acc hl hP h
    cases h
    rw [hl, List.append_nil]
    exact hP
  | cons x rest ih =>
    intro done acc hl hP h
    rw [List.foldlM_cons] at h
    cases hx : f acc x with
    | error e =>
      rw [hx] at h
      cases h
    | ok acc' =>
      rw [hx] at h
      exact ih (done ++ [x]) acc' (by simp [hl]) (hstep done x rest acc acc' hl hP hx) h

/-- A sequence does not fail in a certain way when neither part does. -/
theorem bind_ne_error {g : α → Except ε β} {e : ε} (hx : x ≠ .error e)
    (hg : ∀ a, x = .ok a → g a ≠ .error e) : (x >>= g) ≠ .error e := by
  cases x with
  | ok a => exact hg a rfl
  | error e' =>
    intro h
    cases h
    exact hx rfl

/-- A loop does not fail in a certain way when no turn does. -/
theorem foldlM_ne_error {P : List α → β → Prop} {l : List α} {e : ε}
    (hkeep : ∀ done x rest acc acc', l = done ++ x :: rest → P done acc → f acc x = .ok acc' →
      P (done ++ [x]) acc')
    (hstep : ∀ done x rest acc, l = done ++ x :: rest → P done acc → f acc x ≠ .error e)
    {init : β} (hinit : P [] init) : l.foldlM f init ≠ .error e := by
  suffices hgen : ∀ todo done acc, l = done ++ todo → P done acc →
      todo.foldlM f acc ≠ .error e from hgen l [] init rfl hinit
  intro todo
  induction todo with
  | nil =>
    intro done acc _ _ h
    cases h
  | cons x rest ih =>
    intro done acc hl hP
    rw [List.foldlM_cons]
    refine bind_ne_error (hstep done x rest acc hl hP) fun acc' hx => ?_
    exact ih (done ++ [x]) acc' (by simp [hl]) (hkeep done x rest acc acc' hl hP hx)

end Loops

/-! ## Frames -/

section Within

variable {σ α β : Type}

/-- Running `x` changes the state only as `R` allows, also when it throws. -/
def Within (R : σ → σ → Prop) (x : Effect σ α) : Prop :=
  ∀ s, R s (final (x.run s))

variable {R : σ → σ → Prop} [IsPreorder σ R]

theorem within_pure (a : α) : Within R (pure a : Effect σ α) := fun s => refl s

theorem within_throw (e : String) : Within R (throw e : Effect σ α) := fun s => refl s

theorem within_get : Within R (get : Effect σ σ) := fun s => refl s

omit [IsPreorder σ R] in
theorem within_modify {f : σ → σ} (h : ∀ s, R s (f s)) :
    Within R (modify f : Effect σ PUnit) := h

omit [IsPreorder σ R] in
/-- After reading the state the rest may rely on what was read. -/
theorem within_get_bind {f : σ → Effect σ α} (h : ∀ s, R s (final ((f s).run s))) :
    Within R (get >>= f) := h

omit [IsPreorder σ R] in
theorem Within.and {Q : σ → σ → Prop} {x : Effect σ α} (hx : Within R x) (hx' : Within Q x) :
    Within (fun s t => R s t ∧ Q s t) x := fun s => ⟨hx s, hx' s⟩

theorem Within.bind {x : Effect σ α} {f : α → Effect σ β} (hx : Within R x)
    (hf : ∀ a, Within R (f a)) : Within R (x >>= f) := by
  intro s
  have hxs := hx s
  rw [EStateM.run_bind]
  cases hrun : x.run s with
  | ok a t =>
    rw [hrun] at hxs
    exact IsTrans.trans _ _ _ hxs (hf a t)
  | error e t =>
    rw [hrun] at hxs
    exact hxs

/-- Starting with an assignment of what was computed from the state. -/
theorem within_set_bind {s s' : σ} (hset : R s s') {x : Effect σ α} (hx : Within R x) :
    R s (final ((set s' >>= fun _ => x : Effect σ α).run s)) :=
  IsTrans.trans _ _ _ hset (hx s')

theorem Within.tryCatch {x : Effect σ α} {handler : String → Effect σ α} (hx : Within R x)
    (hhandler : ∀ e, Within R (handler e)) : Within R (tryCatch x handler) := by
  intro s
  have hxs := hx s
  show R s (final (EStateM.run (EStateM.tryCatch x handler) s))
  unfold EStateM.run EStateM.tryCatch at *
  -- nothing is restored before the handler runs
  cases hrun : x s with
  | ok a t =>
    rw [hrun] at hxs
    exact hxs
  | error e t =>
    rw [hrun] at hxs
    exact IsTrans.trans _ _ _ hxs (hhandler e t)

theorem Within.foldlM {f : β → α → Effect σ β} (hf : ∀ acc x, Within R (f acc x))
    (l : List α) (init : β) : Within R (l.foldlM f init) := by
  induction l generalizing init with
  | nil => exact within_pure init
  | cons x rest ih =>
    rw [List.foldlM_cons]
    exact (hf init x).bind ih

theorem Within.forM {f : α → Effect σ PUnit} (hf : ∀ x, Within R (f x)) (l : List α) :
    Within R (l.forM f) := by
  induction l with
  | nil => exact within_pure _
  | cons x rest ih => exact (hf x).bind fun _ => ih

/-- A computation that does not look at the state. -/
def ofExcept : Except String α → Effect σ α
  | .ok a => pure a
  | .error e => throw e

theorem within_ofExcept (x : Except String α) : Within R (ofExcept x : Effect σ α) := by
  cases x with
  | ok a => exact within_pure a
  | error e => exact within_throw e

end Within

/-- An invariant is kept when it is a frame. -/
def Keeps {σ : Type} (I : σ → Prop) : σ → σ → Prop := fun s t => I s → I t

instance {σ : Type} (I : σ → Prop) : IsPreorder σ (Keeps I) where
  refl _ := id
  trans _ _ _ h h' := h' ∘ h

/-! ## Programs that return -/

variable {e : String}

section Returns

variable {σ α β : Type}

/-- Started in `s`, the program returns `a` and leaves the state `t`. -/
def Returns (x : Effect σ α) (s : σ) (a : α) (t : σ) : Prop :=
  x.run s = .ok a t

variable {t : σ}

theorem returns_pure {a b : α} {s : σ} :
    Returns (pure a : Effect σ α) s b t ↔ b = a ∧ t = s := by
  simp only [Returns, EStateM.run_pure, EStateM.Result.ok.injEq, eq_comm]

theorem not_returns_throw {a : α} {s : σ} :
    ¬ Returns (throw e : Effect σ α) s a t := by
  intro h
  cases h

theorem returns_get {a s : σ} : Returns (get : Effect σ σ) s a t ↔ a = s ∧ t = s := by
  simp only [Returns, EStateM.run_get, EStateM.Result.ok.injEq, eq_comm]

theorem returns_modify {f : σ → σ} {a : PUnit} {s : σ} :
    Returns (modify f : Effect σ PUnit) s a t ↔ t = f s := by
  simp only [Returns, EStateM.run_modify, EStateM.Result.ok.injEq, true_and, eq_comm]

theorem returns_ofExcept {x : Except String α} {a : α} {s : σ} :
    Returns (ofExcept x : Effect σ α) s a t ↔ x = .ok a ∧ t = s := by
  cases x with
  | ok b => simp only [ofExcept, returns_pure, Except.ok.injEq, eq_comm]
  | error e => simp [ofExcept, not_returns_throw]

theorem returns_bind {x : Effect σ α} {f : α → Effect σ β} {b : β} {s u : σ} :
    Returns (x >>= f) s b u ↔ ∃ a t, Returns x s a t ∧ Returns (f a) t b u := by
  unfold Returns
  rw [EStateM.run_bind]
  cases x.run s with
  | ok a t => simp
  | error e t => simp

theorem returns_get_bind {f : σ → Effect σ β} {b : β} {s u : σ} :
    Returns (get >>= f) s b u ↔ Returns (f s) s b u := Iff.rfl

theorem returns_set {a : PUnit} {s s' : σ} :
    Returns (set s' : Effect σ PUnit) s a t ↔ t = s' := by
  rw [eq_comm]
  exact ⟨fun h => by cases h; rfl, fun h => by cases h; rfl⟩

/-- Started in `s`, the program throws `e` and leaves the state `t`. -/
def Throws (x : Effect σ α) (s : σ) (e : String) (t : σ) : Prop :=
  x.run s = .error e t

theorem throws_bind {x : Effect σ α} {f : α → Effect σ β} {s u : σ} :
    Throws (x >>= f) s e u ↔ Throws x s e u ∨ ∃ a t, Returns x s a t ∧ Throws (f a) t e u := by
  unfold Throws Returns
  rw [EStateM.run_bind]
  cases x.run s with
  | ok a t => simp
  | error e' t => simp

theorem throws_get_bind {f : σ → Effect σ β} {s u : σ} :
    Throws (get >>= f) s e u ↔ Throws (f s) s e u := Iff.rfl

theorem Within.returns {R : σ → σ → Prop} {x : Effect σ α} (hx : Within R x) {a : α} {s : σ}
    (h : Returns x s a t) : R s t := by
  have hxs := hx s
  rw [h] at hxs
  exact hxs

theorem Within.throws {R : σ → σ → Prop} {x : Effect σ α} (hx : Within R x) {s : σ}
    (h : Throws x s e t) : R s t := by
  have hxs := hx s
  rw [h] at hxs
  exact hxs

/-- The sequencing rule for a frame when the rest relies on what was returned. -/
theorem Within.bind_returns {R : σ → σ → Prop} [IsPreorder σ R] {x : Effect σ α}
    {f : α → Effect σ β} {P : α → Prop} (hx : Within R x)
    (hreturns : ∀ s a t, Returns x s a t → P a) (hf : ∀ a, P a → Within R (f a)) :
    Within R (x >>= f) := by
  intro s
  have hxs := hx s
  rw [EStateM.run_bind]
  cases hrun : x.run s with
  | ok a t =>
    rw [hrun] at hxs
    exact IsTrans.trans _ _ _ hxs (hf a (hreturns s a t hrun) t)
  | error e t =>
    rw [hrun] at hxs
    exact hxs

theorem not_throws_pure {a : α} {s : σ} : ¬ Throws (pure a : Effect σ α) s e t := by
  intro h
  cases h

theorem throws_throw {e' : String} {s : σ} :
    Throws (throw e : Effect σ α) s e' t ↔ e' = e ∧ t = s := by
  constructor
  · intro h
    cases h
    exact ⟨rfl, rfl⟩
  · rintro ⟨rfl, rfl⟩
    rfl

theorem throws_ofExcept {x : Except String α} {s : σ} :
    Throws (ofExcept x : Effect σ α) s e t ↔ x = .error e ∧ t = s := by
  cases x with
  | ok a => simp [ofExcept, not_throws_pure]
  | error e' => simp only [ofExcept, throws_throw, Except.error.injEq, eq_comm]

/-- Nothing is restored before the handler runs. -/
theorem returns_tryCatch {x : Effect σ α} {handler : String → Effect σ α} {a : α} {s u : σ} :
    Returns (tryCatch x handler) s a u ↔
      Returns x s a u ∨ ∃ e t, Throws x s e t ∧ Returns (handler e) t a u := by
  unfold Returns Throws
  show EStateM.run (EStateM.tryCatch x handler) s = _ ↔ _
  unfold EStateM.run EStateM.tryCatch
  cases x s with
  | ok b t => simp
  | error e t => simp [EStateM.Backtrackable.restore, EStateM.dummyRestore]

theorem final_of_returns {x : Effect σ α} {s : σ} {a : α} (h : Returns x s a t) :
    final (x.run s) = t := by
  rw [h]
  rfl

theorem final_bind_of_returns {x : Effect σ α} {f : α → Effect σ β} {s : σ} {a : α}
    (h : Returns x s a t) : final ((x >>= f).run s) = final ((f a).run t) := by
  rw [EStateM.run_bind, h]

/-- A program stops by returning or by throwing. -/
theorem final_cases (x : Effect σ α) (s : σ) :
    (∃ a, Returns x s a (final (x.run s))) ∨ ∃ e, Throws x s e (final (x.run s)) := by
  unfold Returns Throws
  cases x.run s with
  | ok a t => exact .inl ⟨a, rfl⟩
  | error e t => exact .inr ⟨e, rfl⟩

/-- The sequencing rule for what holds in the end. -/
theorem final_bind {Q : σ → Prop} {x : Effect σ α} {f : α → Effect σ β} {s : σ}
    (hthrows : ∀ e t, Throws x s e t → Q t)
    (hreturns : ∀ a t, Returns x s a t → Q (final ((f a).run t))) :
    Q (final ((x >>= f).run s)) := by
  rw [EStateM.run_bind]
  cases hrun : x.run s with
  | ok a t => exact hreturns a t hrun
  | error e t => exact hthrows e t hrun

/-- The handler is entered in the state in which the body has stopped. -/
theorem final_tryCatch {Q : σ → Prop} {x : Effect σ α} {handler : String → Effect σ α} {s : σ}
    (hx : Q (final (x.run s))) (hhandler : ∀ e, Within (Keeps Q) (handler e)) :
    Q (final ((tryCatch x handler).run s)) := by
  show Q (final (EStateM.run (EStateM.tryCatch x handler) s))
  unfold EStateM.run EStateM.tryCatch at *
  cases hrun : x s with
  | ok a t =>
    rw [hrun] at hx
    exact hx
  | error e t =>
    rw [hrun] at hx
    exact hhandler e t hx

/-- The loop rule, by induction on what is still to come: `P done acc s` holds after the
    elements in `done`. -/
theorem foldlM_returns {f : β → α → Effect σ β} {P : List α → β → σ → Prop} {l : List α}
    (hstep : ∀ done x rest acc s acc' s', l = done ++ x :: rest → P done acc s →
      Returns (f acc x) s acc' s' → P (done ++ [x]) acc' s') {init out : β} {s : σ}
    (hinit : P [] init s) (hloop : Returns (l.foldlM f init) s out t) :
    P l out t := by
  suffices hgen : ∀ todo done acc s, l = done ++ todo → P done acc s →
      Returns (todo.foldlM f acc) s out t → P l out t from hgen l [] init s rfl hinit hloop
  intro todo
  induction todo with
  | nil =>
    intro done acc s hl hP h
    obtain ⟨rfl, rfl⟩ := returns_pure.mp h
    rw [hl, List.append_nil]
    exact hP
  | cons x rest ih =>
    intro done acc s hl hP h
    rw [List.foldlM_cons] at h
    obtain ⟨acc', s', hx, hrest⟩ := returns_bind.mp h
    exact ih (done ++ [x]) acc' s' (by simp [hl]) (hstep done x rest acc s acc' s' hl hP hx) hrest

end Returns

/-! ## Reporting failure without throwing -/

/-- Success, or `false` with a message. -/
abbrev Outcome := Except String Unit

section AllOrNothing

variable {σ α : Type} {R : σ → σ → Prop}

/-- Unless `x` reports success, it changes the state only as `R` allows. -/
def AllOrNothing (R : σ → σ → Prop) (x : Effect σ Outcome) : Prop :=
  ∀ s, (∀ t, ¬ Returns x s (.ok ()) t) → R s (final (x.run s))

variable {x : Effect σ Outcome}

theorem Within.allOrNothing (h : Within R x) : AllOrNothing R x :=
  fun s _ => h s

variable [IsPreorder σ R]

theorem AllOrNothing.bind {x : Effect σ α} {f : α → Effect σ Outcome} (hx : Within R x)
    (hf : ∀ a, AllOrNothing R (f a)) : AllOrNothing R (x >>= f) := by
  intro s hfail
  have hxs := hx s
  rw [EStateM.run_bind]
  cases hrun : x.run s with
  | error e t =>
    rw [hrun] at hxs
    exact hxs
  | ok a t =>
    rw [hrun] at hxs
    refine IsTrans.trans _ _ _ hxs (hf a t ?_)
    intro u hu
    exact hfail u (returns_bind.mpr ⟨a, t, hrun, hu⟩)

/-- `if (!x) return false; y; return true;` where `y` cannot fail. -/
def andThen (x : Effect σ Outcome) (y : Effect σ Unit) : Effect σ Outcome := do
  match ← x with
  | .error e => return .error e
  | .ok () =>
    y
    return .ok ()

theorem returns_andThen {y : Effect σ Unit} {s u : σ} :
    Returns (andThen x y) s (.ok ()) u ↔ ∃ t, Returns x s (.ok ()) t ∧ Returns y t () u := by
  unfold andThen
  rw [returns_bind]
  constructor
  · rintro ⟨out, t, hx, hrest⟩
    cases out with
    | error e =>
      cases (returns_pure.mp hrest).1
    | ok v =>
      obtain ⟨⟨⟩, u', hy, hpure⟩ := returns_bind.mp hrest
      obtain ⟨-, rfl⟩ := returns_pure.mp hpure
      exact ⟨t, hx, hy⟩
  · rintro ⟨t, hx, hy⟩
    exact ⟨.ok (), t, hx, returns_bind.mpr ⟨(), u, hy, returns_pure.mpr ⟨rfl, rfl⟩⟩⟩

omit [IsPreorder σ R] in
theorem AllOrNothing.andThen {y : Effect σ Unit} (hx : AllOrNothing R x)
    (hy : ∀ s, ∃ t, Returns y s () t) : AllOrNothing R (andThen x y) := by
  intro s hfail
  have hxfail : ∀ t, ¬ Returns x s (.ok ()) t := by
    intro t ht
    obtain ⟨u, hu⟩ := hy t
    exact hfail u (returns_andThen.mpr ⟨t, ht, hu⟩)
  have hxs := hx s hxfail
  unfold Foundations.andThen
  rw [EStateM.run_bind]
  cases hrun : x.run s with
  | error e t =>
    rw [hrun] at hxs
    exact hxs
  | ok out t =>
    cases out with
    | ok v => exact absurd hrun (hxfail t)
    | error e =>
      rw [hrun] at hxs
      exact hxs

omit [IsPreorder σ R] in
/-- A function that turns its exceptions into reports either succeeds or has moved the state
    only within `R`. -/
theorem AllOrNothing.reported (hx : AllOrNothing R x) (s : σ) :
    (∃ t, Returns (tryCatch x fun e => return .error e) s (.ok ()) t) ∨
      ∃ e t, Returns (tryCatch x fun e => return .error e) s (.error e) t ∧ R s t := by
  by_cases hok : ∃ t, Returns x s (.ok ()) t
  · obtain ⟨t, ht⟩ := hok
    exact .inl ⟨t, returns_tryCatch.mpr (.inl ht)⟩
  · have hmoved := hx s fun t ht => hok ⟨t, ht⟩
    rcases final_cases x s with ⟨out, hreturns⟩ | ⟨e, hthrows⟩
    · cases out with
      | ok v => exact absurd ⟨_, hreturns⟩ hok
      | error e => exact .inr ⟨e, _, returns_tryCatch.mpr (.inl hreturns), hmoved⟩
    · refine .inr ⟨e, _, returns_tryCatch.mpr (.inr ⟨e, _, hthrows, ?_⟩), hmoved⟩
      exact returns_pure.mpr ⟨rfl, rfl⟩

end AllOrNothing

/-! ## Components of a state -/

/-- A component `τ` of a state `σ`. -/
structure Component (σ τ : Type) where
  get : σ → τ
  set : τ → σ → σ
  get_set : ∀ t s, get (set t s) = t
  set_set : ∀ t t' s, set t' (set t s) = set t' s

namespace Component

variable {σ τ υ : Type}

/-- The whole state. -/
def self : Component σ σ := ⟨fun s => s, fun t _ => t, fun _ _ => rfl, fun _ _ _ => rfl⟩

/-- A component of a component. -/
def comp (c : Component σ τ) (d : Component τ υ) : Component σ υ where
  get s := d.get (c.get s)
  set u s := c.set (d.set u (c.get s)) s
  get_set u s := by rw [c.get_set, d.get_set]
  set_set u u' s := by rw [c.get_set, d.set_set, c.set_set]

end Component

section Zoom

variable {σ τ α : Type}

/-- Run a program on a component of the state. -/
def zoom (c : Component σ τ) (x : Effect τ α) : Effect σ α := fun s =>
  match x.run (c.get s) with
  | .ok a t => .ok a (c.set t s)
  | .error e t => .error e (c.set t s)

variable {c : Component σ τ} {x : Effect τ α}

theorem Within.zoom {R : σ → σ → Prop} {Q : τ → τ → Prop} (hx : Within Q x)
    (hset : ∀ s t, Q (c.get s) t → R s (c.set t s)) : Within R (zoom c x) := by
  intro s
  have hxs := hx (c.get s)
  show R s (final (Foundations.zoom c x s))
  unfold Foundations.zoom
  cases hrun : x.run (c.get s) with
  | ok a t =>
    rw [hrun] at hxs
    exact hset s t hxs
  | error e t =>
    rw [hrun] at hxs
    exact hset s t hxs

theorem AllOrNothing.zoom {R : σ → σ → Prop} {Q : τ → τ → Prop} {x : Effect τ Outcome}
    (hx : AllOrNothing Q x) (hset : ∀ s t, Q (c.get s) t → R s (c.set t s)) :
    AllOrNothing R (zoom c x) := by
  intro s hfail
  have hxs := hx (c.get s)
  show R s (final (Foundations.zoom c x s))
  unfold Foundations.zoom
  cases hrun : x.run (c.get s) with
  | error e t =>
    rw [hrun] at hxs
    exact hset s t (hxs fun u hu => by cases hrun.symm.trans hu)
  | ok out t =>
    rw [hrun] at hxs
    refine hset s t (hxs fun u hu => ?_)
    -- a success of the part would be one of the whole
    cases hrun.symm.trans hu
    refine hfail (c.set t s) ?_
    show Foundations.zoom c x s = _
    unfold Foundations.zoom
    rw [hrun]

theorem returns_zoom {a : α} {s s' : σ} :
    Returns (zoom c x) s a s' ↔ ∃ t, Returns x (c.get s) a t ∧ s' = c.set t s := by
  show Foundations.zoom c x s = _ ↔ _
  unfold Foundations.zoom Returns
  cases x.run (c.get s) with
  | ok b t => simp [eq_comm]
  | error e t => simp

theorem throws_zoom {s s' : σ} :
    Throws (zoom c x) s e s' ↔ ∃ t, Throws x (c.get s) e t ∧ s' = c.set t s := by
  show Foundations.zoom c x s = _ ↔ _
  unfold Foundations.zoom Throws
  cases x.run (c.get s) with
  | ok b t => simp
  | error e t => simp [eq_comm]

end Zoom

end RedisPvxsIoc.Foundations
